import LibraLive.Lemmas.DecodeOwned
import LibraLive.Lemmas.ChannelPhase

/-!
# Decode loops balance ownership

Whatever `pop`, the codec and the filter return and whenever `isPlaying` is cleared: when a `decode` function has ended, every
packet that it took off the queue has been freed, and every frame that it allocated is or was in the frames queue or has been
freed, once and for good.
-/

namespace LibraLive

namespace Channel

variable {kind : Kind} {c c' : Channel} {a : DecodeAct} {t : Channel × List (OwnEvent Resource)}

/-- The loop has kept the discipline so far. -/
structure Keeping (t : Channel × List (OwnEvent Resource)) : Prop where
  locals : t.1.Locals
  run : ∃ held, Ownership.run [] t.2 = some held ∧ held.Perm t.1.decodeOwned
  once : ∀ n, t.2.count (.acquire (.frame n)) ≤ if n < t.1.frameAllocs then 1 else 0
  kept : ∀ packet, .pass (.packet packet) ∉ t.2

theorem keeping (h : ((decodeLts kind).observe events).Reachable t) : Keeping t := by
  refine Lts.Reachable.invariant ?_ ?_ h
  · rintro ⟨c, log⟩ ⟨⟨hk, hd, hpacket, hframe⟩, rfl⟩
    dsimp only at hd hpacket hframe
    have hnone : c.decodeOwned = [] := by
      unfold decodeOwned
      rw [hd]
    refine ⟨⟨?_, ?_, ?_, ?_⟩, ⟨[], rfl, ?_⟩, ?_, ?_⟩
    · rw [hd]
      simp
    · rw [hpacket]
      simp
    · rw [hframe, hd]
      cases c.kind <;> rfl
    · intro n hn
      rw [hnone] at hn
      cases hn
    · rw [hnone]
    · intro n
      exact Nat.zero_le _
    · intro packet hmem
      cases hmem
  · rintro ⟨c, log⟩ a ⟨c', log'⟩ _ ⟨hlocals, ⟨held, hrun, hperm⟩, honce, hkept⟩ ⟨hstep, hlog⟩
    dsimp only at hlog
    subst hlog
    obtain ⟨hlocals', held₁, hrun₁, hperm₁⟩ := decode_holds hlocals hstep
    obtain ⟨held₂, hrun₂, hperm₂⟩ := Ownership.run_perm hperm.symm hrun₁
    refine ⟨hlocals', ⟨held₂, ?_, hperm₂.symm.trans hperm₁⟩, fun n => ?_, fun packet => ?_⟩
    · rw [Ownership.run_append, hrun]
      exact hrun₂
    · have hle : log.count (.acquire (.frame n)) ≤ if n < c.frameAllocs then 1 else 0 := honce n
      have hallocs : c.frameAllocs ≤ c'.frameAllocs := frameAllocs_le hstep
      have hcount : (c.events a c').count (.acquire (.frame n)) = if c.frameAllocs ≤ n ∧ n < c'.frameAllocs then 1 else 0 :=
        count_events hstep n
      show (log ++ c.events a c').count (.acquire (.frame n)) ≤ if n < c'.frameAllocs then 1 else 0
      rw [List.count_append, hcount]
      split_ifs at hle ⊢ <;> omega
    · intro hmem
      rcases List.mem_append.mp hmem with hmem | hmem
      · exact hkept packet hmem
      · exact keeps_packets c a c' packet hmem

/-- Each packet taken off the queue was freed once, each frame allocated joined the queue once or was freed once, by `decode`
or by the push that was refused, and what was given away was not touched any more; a packet would have to be popped again. -/
structure Balanced (log : List (OwnEvent Resource)) : Prop where
  packets : ∀ packet, log.count (.free (.packet packet)) = log.count (.acquire (.packet packet))
  frames : ∀ n, log.count (.acquire (.frame n)) ≤ 1 ∧
    log.count (.pass (.frame n)) + log.count (.free (.frame n)) = log.count (.acquire (.frame n))
  untouched : ∀ before e between e' after, log = before ++ e :: between ++ e' :: after → e.gives = true →
    e'.touches = true → e.object = e'.object → .acquire e.object ∈ between

/-- When the loop has ended, ownership is balanced. -/
theorem decode_balanced (h : ((decodeLts kind).observe events).Reachable t) (hended : t.1.decode = .ended) : Balanced t.2 := by
  obtain ⟨_, ⟨held, hrun, hperm⟩, honce, hkept⟩ := keeping h
  have hnone : t.1.decodeOwned = [] := by
    unfold decodeOwned
    rw [hended]
  obtain rfl : held = [] := by
    rw [hnone] at hperm
    exact hperm.eq_nil
  have hcount : ∀ object, t.2.count (.acquire object) = t.2.count (.pass object) + t.2.count (.free object) := by
    intro object
    have := Ownership.count_run hrun object
    simpa using this
  refine ⟨fun packet => ?_, fun n => ⟨?_, (hcount _).symm⟩, ?_⟩
  · rw [hcount, List.count_eq_zero.mpr (hkept packet), Nat.zero_add]
  · have hle := honce n
    split_ifs at hle <;> omega
  · rintro before e between e' after heq hgives htouches hsame
    rw [heq] at hrun
    exact Ownership.acquired_between List.nodup_nil hrun hgives htouches hsame

/-- A playing channel with two packets in its queue, its decode thread about to begin. -/
def twoPackets : Channel := { Channel.new .audio 0 with
  packets := ((MessageQueue.new.gotoWork.push ⟨0, 0, 0⟩).1.push ⟨1, 0, 0⟩).1
  frames := MessageQueue.new.gotoWork
  isPlaying := true
  decode := .enter }

/-- The thread, and another that calls `frames.backWork()` and clears `isPlaying`. -/
def stopStep (c : Channel) : DecodeAct → Option Channel
  | .decode ret => c.act (.decode ret)
  | .others => some { c with frames := c.frames.backWork, isPlaying := false }

/-- The frame of the first packet joins the queue, and that of the second is freed by its push. -/
theorem decode_balanced_example : ∃ t, ((decodeLts .audio).observe events).Reachable t ∧ t.1.decode = .ended ∧
    t.2 = [.acquire (.packet ⟨0, 0, 0⟩), .use (.packet ⟨0, 0, 0⟩), .free (.packet ⟨0, 0, 0⟩), .acquire (.frame 0),
      .use (.frame 0), .pass (.frame 0), .acquire (.packet ⟨1, 0, 0⟩), .use (.packet ⟨1, 0, 0⟩), .free (.packet ⟨1, 0, 0⟩),
      .acquire (.frame 1), .use (.frame 1), .free (.frame 1)] ∧ Balanced t.2 := by
  have hrun : (Lts.replay (Lts.observeStep stopStep events) (twoPackets, [])
        (List.replicate 16 (.decode 0) ++ [.others, .decode 0, .decode 0, .decode 0])).map (fun t => (t.1.decode, t.2)) =
      some (.ended, [.acquire (.packet ⟨0, 0, 0⟩), .use (.packet ⟨0, 0, 0⟩), .free (.packet ⟨0, 0, 0⟩), .acquire (.frame 0),
        .use (.frame 0), .pass (.frame 0), .acquire (.packet ⟨1, 0, 0⟩), .use (.packet ⟨1, 0, 0⟩), .free (.packet ⟨1, 0, 0⟩),
        .acquire (.frame 1), .use (.frame 1), .free (.frame 1)]) := rfl
  obtain ⟨t, ht, hstate⟩ := Option.map_eq_some_iff.mp hrun
  obtain ⟨hended, hlog⟩ := Prod.mk.inj hstate
  have hr : ((decodeLts .audio).observe events).Reachable t := by
    refine Lts.replay_reachable (Lts.observeStep_step ?_) _ (.init ⟨⟨rfl, rfl, rfl, rfl⟩, rfl⟩) ht
    intro c a c' h
    cases a with
    | decode ret => exact h
    | others =>
      cases h
      exact ⟨rfl, rfl, rfl, rfl, Or.inl rfl⟩
  exact ⟨t, hr, hended, hlog, decode_balanced hr hended⟩

/-! ## In a channel -/

/-- A step of the output thread allocates nothing. -/
theorem output_frameAllocs {i : OutputInput} (h : c.act (.output i) = some c') : c'.frameAllocs = c.frameAllocs := by
  simp only [act] at h
  cases hk : c.kind with
  | audio =>
    simp only [hk] at h
    unfold AudioChannel.getPcm at h
    split at h
    case h_1 | h_4 => split at h <;> cases h <;> (try split) <;> rfl
    case h_5 =>
      split at h
      · cases h
        rfl
      · split at h <;> cases h <;> rfl
    case h_8 => cases h
    all_goals
      cases h
      rfl
  | video =>
    simp only [hk] at h
    unfold VideoChannel.render at h
    split at h
    case h_6 =>
      split at h
      · cases h
        rfl
      · split at h <;> cases h <;> rfl
    case h_10 => cases h
    all_goals
      cases h
      rfl

/-- A statement of `start` or `stop` creates the decode thread or leaves its variables alone. -/
theorem CtlStep.meddled (h : CtlStep c c') :
    c.Meddled c' ∨ c.ctl = .working2 ∧ c' = { c with decode := .enter, ctl := .decodeCreated } := by
  cases h with
  | createDecode hctl hc => exact Or.inr ⟨hctl, hc⟩
  | packetsGotoWork _ _ hc | packetsBackWork _ _ hc =>
    subst hc
    exact Or.inl ⟨rfl, rfl, rfl, rfl, Or.inr rfl⟩
  | setFlag _ hc | framesGotoWork _ _ hc | createOutput _ _ hc | clearFlag _ hc | framesBackWork _ _ hc | join _ _ hc
  | freeSwr _ _ hc | destroy _ _ hc =>
    subst hc
    exact Or.inl ⟨rfl, rfl, rfl, rfl, Or.inl rfl⟩

/-- So does every step of another thread. -/
theorem others_cases {b : ChannelAct} (hb : ∀ ret, b ≠ .decode ret) (h : c.act b = some c') :
    c.Meddled c' ∨ c.ctl = .working2 ∧ c' = { c with decode := .enter, ctl := .decodeCreated } := by
  cases b with
  | decode ret => exact absurd rfl (hb ret)
  | output i =>
    obtain ⟨hkeeps, -⟩ := output_cases h
    exact Or.inl ⟨hkeeps.kind, hkeeps.packet, hkeeps.frame, output_frameAllocs h, Or.inl hkeeps.decode⟩
  | start => exact CtlStep.meddled (start_cases h).1
  | stop => exact CtlStep.meddled (stop_cases h)
  | wakeDecode =>
    simp only [act, Option.ite_none_right_eq_some, Option.some.injEq] at h
    obtain ⟨hd, rfl⟩ := h
    exact Or.inl ⟨rfl, rfl, rfl, rfl, Or.inr (by rw [hd]; rfl)⟩
  | wakeOutput | playReturn | setAudioChannel channel =>
    simp only [act, Option.ite_none_right_eq_some, Option.some.injEq] at h
    obtain ⟨-, rfl⟩ := h
    exact Or.inl ⟨rfl, rfl, rfl, rfl, Or.inl rfl⟩
  | push packet =>
    simp only [act, Option.some.injEq] at h
    subst h
    refine Or.inl ⟨rfl, rfl, rfl, rfl, ?_⟩
    unfold pushPacket
    dsimp only
    split
    · exact Or.inr rfl
    · exact Or.inl rfl

/-- No decode thread takes a step before it is created. -/
theorem decode_created {ret : Int} (h : c.act (.decode ret) = some c') : c.decode ≠ .notCreated := by
  intro hd
  simp only [act] at h
  cases hk : c.kind <;> simp [hk, AudioChannel.decode, VideoChannel.decode, decodeHead, hd] at h

/-- Nor is anything in its variables. -/
theorem variables_null (h : (Channel.lts kind).Reachable c) (hd : c.decode = .notCreated) : c.packet = none ∧ c.frame = none := by
  revert hd
  refine Lts.Reachable.invariant ?_ ?_ h
  · rintro c ⟨id, rfl⟩ _
    exact ⟨rfl, rfl⟩
  · intro c b c' hr hI hs hd
    have hact := (step_eq_some.mp hs).2
    by_cases hb : ∃ ret, b = .decode ret
    · -- the thread is there, and stays
      obtain ⟨ret, rfl⟩ := hb
      have hdecodes := (phased_of_reachable hr).decode.mp (decode_created hact)
      rw [← (decode_cases hact).1.ctl] at hdecodes
      exact absurd hd ((phased_of_reachable (hr.step hs)).decode.mpr hdecodes)
    · rcases others_cases (fun ret hret => hb ⟨ret, hret⟩) hact with hm | ⟨-, rfl⟩
      · rw [hm.packet, hm.frame]
        refine hI ?_
        rcases hm.decode with hsame | hsame
        · exact hsame.symm.trans hd
        · exact (DecodePc.signalled_eq_iff (by simp)).mp (hsame.symm.trans hd)
      · cases hd

/-- The decode thread of a channel is such a thread, from the moment it is created. -/
theorem decode_component (kind : Kind) :
    Lts.Component (Channel.lts kind) (decodeLts kind) fun c => if c.decode = .notCreated then none else some c := by
  refine ⟨?_, ?_⟩
  · rintro c ⟨id, rfl⟩ t ht
    cases ht
  · intro c b c' hr hs t ht
    obtain ⟨hd', ht⟩ := Option.ite_none_left_eq_some.mp ht
    cases ht
    have hact := (step_eq_some.mp hs).2
    by_cases hb : ∃ ret, b = .decode ret
    · obtain ⟨ret, rfl⟩ := hb
      exact Or.inr (Or.inr ⟨c, .decode ret, if_neg (decode_created hact), hact⟩)
    · rcases others_cases (fun ret hret => hb ⟨ret, hret⟩) hact with hm | ⟨hctl, rfl⟩
      · refine Or.inr (Or.inr ⟨c, .others, if_neg ?_, hm⟩)
        intro hd
        rcases hm.decode with hsame | hsame
        · exact hd' (hsame.trans hd)
        · rw [hd] at hsame
          exact hd' hsame
      · have hd : c.decode = .notCreated := by
          by_contra hne
          have hdecodes := (phased_of_reachable hr).decode.mp hne
          rw [hctl] at hdecodes
          cases hdecodes
        obtain ⟨hpacket, hframe⟩ := variables_null hr hd
        have hkind : c.kind = kind := kind_of_reachable hr
        exact Or.inr (Or.inl ⟨hkind, rfl, hpacket, hframe⟩)

/-- Whatever a channel has come to, its decode thread has a record that comes to the same. -/
theorem channel_recorded (h : (Channel.lts kind).Reachable c) (hd : c.decode ≠ .notCreated) :
    ∃ log, ((decodeLts kind).observe events).Reachable (c, log) := by
  have hthread : (decodeLts kind).Reachable c := (decode_component kind).reachable h c (if_neg hd)
  exact hthread.observed events

end Channel

end LibraLive

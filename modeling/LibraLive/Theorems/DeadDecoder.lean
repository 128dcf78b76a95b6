import LibraLive.Lemmas.PlayerPhase
import LibraLive.Lemmas.PlayerRuns

/-!
# The demuxer and a decoder that has died

`init_start` waits as long as a packets queue is long, for a decode thread to shorten it. A decode thread leaves its loop
when the channel is stopped, but also when a codec call fails (the source says "retry" there, and breaks): then nobody
shortens the queue, the demux thread waits for ever, and the other channel gets no packets either. Apart from these codec
results, a demux thread that waits waits for a decode thread that is in its loop.
-/

namespace LibraLive

/-- The thread was created and has not left its loop. -/
def DecodePc.alive (pc : DecodePc) : Bool := pc ≠ .notCreated ∧ pc.left = false

/-- If the demux thread of a player that plays and was not stopped is held back by a channel's packets queue, the channel's
decode thread has not left its loop. -/
def ThrottledByAlive (s : Player) : Prop :=
  s.isPlaying = true → s.ui = .idle → ∀ k, s.demux = .throttled k → ∃ c, s.channel k = some c ∧ c.decode.alive = true

/-! ## A run that breaks it -/

/-- The audio packets queue holds `n` packets, and its decode thread is at a place where no signal reaches it. -/
structure Stalled (pc : DecodePc) (n : Nat) (s : Player) : Prop where
  deaf : pc.signalled = pc
  isPlaying : s.isPlaying = true
  ui : s.ui = .idle
  fault : s.fault = none
  audio : ∃ c, s.audioChannel = some c ∧ c.packets.size = n ∧ c.packets.state = true ∧ c.id = 0 ∧ c.decode = pc ∧
    c.crash = none
  video : ∃ c, s.videoChannel = some c ∧ c.packets.size = 0 ∧ c.crash = none

namespace Stalled

variable {pc : DecodePc} {n : Nat} {s s' : Player} {streams : List AVMediaType} {P : Player → PlayerAct → Prop}

/-- It does not matter where the demux thread is. -/
theorem congr (hs : Stalled pc n s) (hp : s'.isPlaying = s.isPlaying) (hui : s'.ui = s.ui) (hf : s'.fault = s.fault)
    (ha : s'.audioChannel = s.audioChannel) (hv : s'.videoChannel = s.videoChannel) : Stalled pc n s' := by
  obtain ⟨h0, h1, h2, h3, h4, h5⟩ := hs
  exact ⟨h0, hp ▸ h1, hui ▸ h2, hf ▸ h3, ha ▸ h4, hv ▸ h5⟩

/-- A packet of the audio stream joins the audio queue. -/
theorem route (hs : Stalled pc n s) {packet : AVPacket} (hp : packet.stream_index = 0) :
    Stalled pc (n + 1) (s.route packet) := by
  obtain ⟨a, ha, hsize, hstate, hid, hd, hca⟩ := hs.audio
  have hroute : s.route packet = { s with audioChannel := some (a.pushPacket packet) } := by
    rw [Player.route, if_pos (by simp [ha, hid, hp]), ha]
    rfl
  have hpush : (a.packets.push packet).1.size = n + 1 := by
    rw [MessageQueue.push_of_working hstate, ← hsize]
    simp [MessageQueue.size]
  rw [hroute]
  refine ⟨hs.deaf, hs.isPlaying, hs.ui, hs.fault, ⟨a.pushPacket packet, rfl, hpush, ?_, hid, ?_, hca⟩, hs.video⟩
  · simp [Channel.pushPacket, hstate]
  · simp [Channel.pushPacket, hstate, hd, hs.deaf]

section
variable (hP : ∀ s ret stream_index flags, P s (.demux ret stream_index flags))
include hP

/-- A step of the demux thread, wherever it is. -/
theorem demux_step (hs : Stalled pc n s) (hr : ((Player.lts streams).restrict P).Reachable s)
    (h : s.initStart 0 0 0 = some s') : ((Player.lts streams).restrict P).Reachable s' := by
  obtain ⟨a, ha, -, -, -, -, hca⟩ := hs.audio
  obtain ⟨v, hv, -, hcv⟩ := hs.video
  have hcr : s.crashed = false := by simp [Player.crashed, hs.fault, ha, hv, hca, hcv]
  refine hr.step (a := .demux 0 0 0) ⟨hP s 0 0 0, ?_⟩
  change s.step (.demux 0 0 0) = some s'
  rw [Player.step, hcr, if_neg (by simp), if_neg (by simp [hs.ui])]
  exact h

/-- From the loop test the demux thread comes to the size test of the audio queue. -/
theorem size_test (hs : Stalled pc n s) (hr : ((Player.lts streams).restrict P).Reachable s)
    (hd : s.demux = .whileTest) : ((Player.lts streams).restrict P).Reachable
      { s with demux := if 100 < n then .throttled .audio else .videoSize } := by
  obtain ⟨a, ha, hsize, -⟩ := hs.audio
  have h1 : ((Player.lts streams).restrict P).Reachable { s with demux := .audioSize } :=
    hs.demux_step hP hr (by simp [Player.initStart, hd, hs.isPlaying])
  have hs1 : Stalled pc n { s with demux := .audioSize } := hs.congr rfl rfl rfl rfl rfl
  exact hs1.demux_step hP h1 (by simp [Player.initStart, ha, hsize])

/-- While the audio queue is short the demux thread reads one more audio packet. -/
theorem read (hs : Stalled pc n s) (hr : ((Player.lts streams).restrict P).Reachable s)
    (hd : s.demux = .whileTest) (hn : n ≤ 100) :
    ∃ s', ((Player.lts streams).restrict P).Reachable s' ∧ s'.demux = .whileTest ∧ Stalled pc (n + 1) s' := by
  obtain ⟨v, hv, hv0, -⟩ := hs.video
  have h2 := hs.size_test hP hr hd
  rw [if_neg (by omega)] at h2
  have hs2 : Stalled pc n { s with demux := .videoSize } := hs.congr rfl rfl rfl rfl rfl
  have h3 : ((Player.lts streams).restrict P).Reachable { s with demux := .readFrame } :=
    hs2.demux_step hP h2 (by simp [Player.initStart, hv, hv0])
  have hs3 : Stalled pc n { s with demux := .readFrame } := hs.congr rfl rfl rfl rfl rfl
  have h4 : ((Player.lts streams).restrict P).Reachable { s with
      reads := s.reads ++ [⟨s.packetAllocs, 0, 0⟩]
      packetAllocs := s.packetAllocs + 1
      demux := .route ⟨s.packetAllocs, 0, 0⟩ } := hs3.demux_step hP h3 rfl
  have hs4 : Stalled pc n { s with
      reads := s.reads ++ [⟨s.packetAllocs, 0, 0⟩]
      packetAllocs := s.packetAllocs + 1
      demux := .route ⟨s.packetAllocs, 0, 0⟩ } := hs.congr rfl rfl rfl rfl rfl
  exact ⟨_, hs4.demux_step hP h4 rfl, rfl, (hs4.route rfl).congr rfl rfl rfl rfl rfl⟩

/-- So the audio queue grows until it holds 101 packets. -/
theorem fill {s : Player} (hs : Stalled pc 0 s) (hr : ((Player.lts streams).restrict P).Reachable s)
    (hd : s.demux = .whileTest) (n : Nat) (hn : n ≤ 101) :
    ∃ s', ((Player.lts streams).restrict P).Reachable s' ∧ s'.demux = .whileTest ∧ Stalled pc n s' := by
  induction n with
  | zero => exact ⟨s, hr, hd, hs⟩
  | succ n ih =>
    obtain ⟨s₁, hr₁, hd₁, hs₁⟩ := ih (by omega)
    exact hs₁.read hP hr₁ hd₁ (by omega)

end

end Stalled

/-- The source has an audio and a video stream, `avcodec_send_packet` fails on the first audio packet, and 101 more audio
packets follow: the demux thread is held back by a queue whose decode thread has ended. -/
theorem throttled_by_dead_decoder : ¬ ∀ streams s, (Player.lts streams).Reachable s → ThrottledByAlive s := by
  intro hall
  have hrun : (Lts.replay Player.step (Player.prepared [.audio, .video]) (Player.startActs ++ Player.readActs 0 ++
      List.replicate 6 (.channel .audio (.decode 0)) ++ List.replicate 2 (.channel .audio (.decode AVERROR_EINVAL)))).isSome =
      true := rfl
  obtain ⟨s₀, h₀⟩ := Option.isSome_iff_exists.mp hrun
  have hr₀ : ((Player.lts [.audio, .video]).restrict fun _ _ => True).Reachable s₀ :=
    (Player.reachable_of_prepared h₀).restrict_true
  have hs₀ : Stalled .ended 0 s₀ := by
    cases h₀
    exact ⟨rfl, rfl, rfl, rfl, ⟨_, rfl, rfl, rfl, rfl, rfl, rfl⟩, ⟨_, rfl, rfl, rfl⟩⟩
  have hd₀ : s₀.demux = .whileTest := by
    cases h₀
    rfl
  obtain ⟨s, hr, hd, hs⟩ := hs₀.fill (fun _ _ _ _ => trivial) hr₀ hd₀ 101 (Nat.le_refl _)
  have hthrottled := (hs.size_test (fun _ _ _ _ => trivial) hr hd).of_restrict
  obtain ⟨a, ha, -, -, -, had, -⟩ := hs.audio
  obtain ⟨c, hc, halive⟩ := hall _ _ hthrottled hs.isPlaying hs.ui .audio rfl
  obtain rfl : a = c := Option.some.inj (ha.symm.trans hc)
  rw [had] at halive
  cases halive

/-! ## The runs that do not -/

/-- No step is a codec call with a result on which the decode loop ends: `avcodec_send_packet` succeeds, and
`avcodec_receive_frame` succeeds or fails in a way the loop has a `continue` for. -/
def KeepsDecoding (s : Player) (a : PlayerAct) : Prop :=
  ∀ k ret c, a = .channel k (.decode ret) → s.channel k = some c → breaksDecode c.kind c.decode ret = false

/-- The decode thread of a channel has left its loop only if the flag is clear. -/
def LeftWhenStopped (c : Channel) : Prop := c.decode.left = true → c.isPlaying = false

/-- A step of the decode thread whose result does not end the loop. -/
theorem LeftWhenStopped.decode_step {c c' : Channel} {ret : Int} (hc : LeftWhenStopped c)
    (hb : breaksDecode c.kind c.decode ret = false) (h : c.act (.decode ret) = some c') : LeftWhenStopped c' := by
  obtain ⟨hk, hs⟩ := decode_cases h
  intro hl
  rw [hk.isPlaying]
  cases hs with
  | quit _ hp => exact hp
  | leave hd => exact hc (by simp [hd])
  | sendFailed packet hd _ hr => simp [breaksDecode, hd, hr] at hb
  | noFrame packet _ _ hd' =>
    rw [hb, if_neg (by simp)] at hd'
    simp [hd'] at hl
  | test _ hd' | decode _ hd' => cases hpc : c'.decode <;> simp [hpc] at hd' hl
  | pop _ hc' =>
    subst hc'
    simp [Channel.decodePop] at hl
  | check _ _ hd' | miss _ _ hd' | take _ _ hd' | send _ _ _ _ hd' | push _ _ hd' => simp [hd'] at hl

/-- A signal does not make a thread leave its loop. -/
theorem DecodePc.left_signalled (pc : DecodePc) : pc.signalled.left = pc.left := by
  cases pc <;> rfl

/-- The statements of `start` and `stop` make no thread leave its loop; the flag is set before there is a thread. -/
theorem LeftWhenStopped.ctl_step {c c' : Channel} (hc : LeftWhenStopped c) (hph : Phased c) (h : CtlStep c c') :
    LeftWhenStopped c' := by
  cases h with
  | setFlag hctl hc' =>
    subst hc'
    intro hl
    have hne : c.decode ≠ .notCreated := by
      intro he
      simp [he] at hl
    have hdec := hph.decode.mp hne
    simp [hctl] at hdec
  | packetsGotoWork _ _ hc' | packetsBackWork _ _ hc' =>
    subst hc'
    intro hl
    exact hc ((DecodePc.left_signalled c.decode).symm.trans hl)
  | createDecode _ hc' =>
    subst hc'
    rintro ⟨⟩
  | clearFlag _ hc' =>
    subst hc'
    exact fun _ => rfl
  | framesGotoWork _ _ hc' | framesBackWork _ _ hc' | createOutput _ _ hc' | join _ _ hc' | freeSwr _ _ hc'
  | destroy _ _ hc' =>
    subst hc'
    exact hc

/-- Every step of a channel but a codec failure keeps its decode thread in the loop. -/
theorem LeftWhenStopped.step {c c' : Channel} {b : ChannelAct} (hc : LeftWhenStopped c) (hph : Phased c)
    (hb : ∀ ret, b = .decode ret → breaksDecode c.kind c.decode ret = false) (h : c.act b = some c') :
    LeftWhenStopped c' := by
  cases b with
  | decode ret => exact hc.decode_step (hb ret rfl) h
  | output i =>
    obtain ⟨hk, hs⟩ := output_cases h
    intro hl
    rw [hk.decode] at hl
    rcases hs.isPlaying with hp | ⟨-, hp⟩
    · rw [hp]
      exact hc hl
    · exact hp
  | start => exact hc.ctl_step hph (start_cases h).1
  | stop => exact hc.ctl_step hph (stop_cases h)
  | wakeDecode =>
    simp only [Channel.act, Option.ite_none_right_eq_some, Option.some.injEq] at h
    obtain ⟨-, rfl⟩ := h
    rintro ⟨⟩
  | wakeOutput | playReturn | setAudioChannel channel =>
    simp only [Channel.act, Option.ite_none_right_eq_some, Option.some.injEq] at h
    obtain ⟨-, rfl⟩ := h
    exact hc
  | push packet =>
    obtain rfl := Option.some.inj h
    intro hl
    refine hc ?_
    dsimp only [Channel.pushPacket] at hl
    split at hl
    · exact (DecodePc.left_signalled c.decode).symm.trans hl
    · exact hl

/-- In the runs without such codec results, a channel's decode thread leaves its loop only when the channel is stopped. -/
theorem leftWhenStopped_of_reachable {streams : List AVMediaType} {s : Player}
    (h : ((Player.lts streams).restrict KeepsDecoding).Reachable s) {k : Kind} {c : Channel}
    (hc : s.channel k = some c) : LeftWhenStopped c := by
  have hcomp := Player.component_restrict streams k (P := KeepsDecoding)
    (Q := fun c b => ∀ ret, b = .decode ret → breaksDecode c.kind c.decode ret = false) (by
      rintro s s' a c b hP hc hcall ret rfl
      exact hP k ret c hcall hc)
  refine Lts.Reachable.restrict_invariant ?_ ?_ (hcomp.reachable h c hc)
  · rintro c ⟨id, rfl⟩
    rintro ⟨⟩
  · intro c b c' hr hb hl hs
    exact hl.step (phased_of_reachable hr) hb (Channel.step_eq_some.mp hs).2

/-- A demux thread is held back by a channel that is there. -/
theorem throttled_channel {streams : List AVMediaType} {s : Player} (h : (Player.lts streams).Reachable s) (k : Kind) :
    s.demux = .throttled k → (s.channel k).isSome = true := by
  refine Lts.Reachable.invariant (I := fun s => s.demux = .throttled k → (s.channel k).isSome = true) ?_ ?_ h
  · rintro s rfl
    rintro ⟨⟩
  · intro s a s' hreach hs hstep hd
    have hph := playerPhased_of_reachable hreach
    obtain ⟨-, -, hstep⟩ := Player.step_cases hstep
    by_cases hold : s.demux = .throttled k
    · exact Player.channel_stays (hph.playJoined_of_loops (by simp [hold])) hstep (hs hold)
    · cases hstep with
      | demux h =>
        cases h with
        | throttle k' c _ hc =>
          cases hd
          exact Option.isSome_iff_exists.mpr ⟨c, (Player.channel_congr rfl rfl k).trans hc⟩
        | room k' => cases k' <;> cases hd
        | readFailed freed next _ hn => rcases hn with rfl | rfl <;> cases hd
        | eofEmpty test => cases test <;> cases hd
        | stopped k' => cases k' <;> cases hd
        | stopChannel k' => exact absurd (by simpa using hd) hold
        | nullChannel => exact absurd hd hold
        | _ => cases hd
      | prepare h =>
        cases h with
        | createPlay => cases hd
        | _ => exact absurd (by simpa using hd) hold
      | stopper h => cases h <;> exact absurd (by simpa using hd) hold
      | ui h => cases h <;> exact absurd hd hold
      | channel => exact absurd (by simpa using hd) hold

/-- In every run in which no codec result ends a decode loop, the demux thread is held back only by channels whose decode
thread has not left its loop. Only a dead decoder is excluded so: where the set-up of OpenSL has failed nobody takes the
frames, and the queue does not shrink although the decode thread is in its loop. -/
theorem throttled_by_alive {streams : List AVMediaType} {s : Player}
    (h : ((Player.lts streams).restrict KeepsDecoding).Reachable s) : ThrottledByAlive s := by
  intro _ _ k hd
  have hr := h.of_restrict
  obtain ⟨c, hc⟩ := Option.isSome_iff_exists.mp (throttled_channel hr k hd)
  have hph := phased_of_reachable ((Player.component streams k).reachable hr c hc)
  have hctl : c.ctl = .running := (playerPhased_of_reachable hr).running (by simp [hd]) hc
  have hplays : c.isPlaying = true := by
    rw [hph.playing, hctl]
    rfl
  have hcreated : c.decode ≠ .notCreated := hph.decode.mpr (by simp [hctl])
  have hleft : c.decode.left = false := by
    by_contra hl
    have hstopped := leftWhenStopped_of_reachable h hc (by simpa using hl)
    rw [hplays] at hstopped
    cases hstopped
  exact ⟨c, hc, by simp only [DecodePc.alive, hcreated, hleft, ne_eq, not_false_eq_true, and_self, decide_true]⟩

/-- A demux thread held back by 101 audio packets, before the audio decode thread has run at all. -/
theorem throttled_by_alive_at_start : ∃ s, ((Player.lts [.audio, .video]).restrict KeepsDecoding).Reachable s ∧
    s.isPlaying = true ∧ s.ui = .idle ∧ s.demux = .throttled .audio ∧ ThrottledByAlive s := by
  have hprepare : ∀ s ret, KeepsDecoding s (.prepare ret) := by simp [KeepsDecoding]
  have hdemux : ∀ s ret stream_index flags, KeepsDecoding s (.demux ret stream_index flags) := by simp [KeepsDecoding]
  have hrun : (Lts.replayIf Player.step (fun _ a => a = .prepare 0) (Player.prepared [.audio, .video])
      Player.startActs).isSome = true := rfl
  obtain ⟨s₀, h₀⟩ := Option.isSome_iff_exists.mp hrun
  have hr₀ : ((Player.lts [.audio, .video]).restrict KeepsDecoding).Reachable s₀ := by
    refine Lts.replayIf_reachable (fun _ _ _ => id) ?_ _ (Player.prepared_reachable (fun s ret _ => hprepare s ret)) h₀
    intro s a ha
    exact of_decide_eq_true ha ▸ hprepare s 0
  have hs₀ : Stalled .enter 0 s₀ := by
    cases h₀
    exact ⟨rfl, rfl, rfl, rfl, ⟨_, rfl, rfl, rfl, rfl, rfl, rfl⟩, ⟨_, rfl, rfl, rfl⟩⟩
  have hd₀ : s₀.demux = .whileTest := by
    cases h₀
    rfl
  obtain ⟨s, hr, hd, hs⟩ := hs₀.fill hdemux hr₀ hd₀ 101 (Nat.le_refl _)
  have hthrottled := hs.size_test hdemux hr hd
  exact ⟨_, hthrottled, hs.isPlaying, hs.ui, rfl, throttled_by_alive hthrottled⟩

end LibraLive

import LibraLive.Lemmas.ChannelPhase

/-!
# No consumer sleeps through `stop`

Each queue of a channel has one consumer. A consumer that is asleep in `pop` without a pending wake-up sleeps on an empty,
working queue (`Awake`): a push that is accepted, `gotoWork` and `backWork` signal, and the loop test of `pop` runs under the
mutex. After the `backWork` calls of `stop` neither queue works, so nobody is asleep, and a `pop` that comes later returns.
-/

namespace LibraLive

/-- A consumer asleep in `pop`, with no wake-up pending, sleeps on an empty working queue. -/
structure Awake (c : Channel) : Prop where
  decode : c.decode = .pop .asleep → c.packets.queue.items = [] ∧ c.packets.state = true
  output : c.output = .pop .asleep → c.frames.queue.items = [] ∧ c.frames.state = true

/-! ## A signalled consumer is not asleep -/

theorem PopPc.signalled_ne_asleep (pc : PopPc) : pc.signalled ≠ .asleep := by
  cases pc <;> simp [PopPc.signalled]

@[simp] theorem DecodePc.signalled_ne_asleep (pc : DecodePc) : pc.signalled ≠ .pop .asleep := by
  cases pc <;> simp [DecodePc.signalled, PopPc.signalled_ne_asleep]

@[simp] theorem OutputPc.signalled_ne_asleep (pc : OutputPc) : pc.signalled ≠ .pop .asleep := by
  cases pc <;> simp [OutputPc.signalled, PopPc.signalled_ne_asleep]

/-- A section of `pop` that ends in the wait saw an empty working queue, and left it so. -/
theorem MessageQueue.asleep_popSection {α : Type*} {q : MessageQueue α} (h : q.popSection.1 = .asleep) :
    q.popSection.2.1.queue.items = [] ∧ q.popSection.2.1.state = true := by
  rcases q.popSection_cases with ⟨he, hi, hs⟩ | ⟨he, -, -⟩ | ⟨v, rest, he, -⟩
  · rw [he]
    exact ⟨hi, hs⟩
  · rw [he] at h
    cases h
  · rw [he] at h
    cases h

/-! ## `Awake` is an invariant -/

/-- A decode thread goes to sleep in `pop` only. -/
theorem DecodeStep.asleep {c c' : Channel} {ret : Int} (h : DecodeStep c ret c') (hs : c'.decode = .pop .asleep) :
    c'.packets.queue.items = [] ∧ c'.packets.state = true := by
  cases h with
  | test _ h' => simp [hs] at h'
  | check _ _ h' => simp [hs] at h'
  | quit _ _ h' => simp [hs] at h'
  | pop _ h' =>
    subst h'
    simp only [Channel.decodePop, DecodePc.pop.injEq] at hs
    exact MessageQueue.asleep_popSection hs
  | noFrame _ _ _ h' =>
    rw [hs] at h'
    split at h' <;> cases h'
  | decode _ h' => simp [hs] at h'
  | _ => simp_all

/-- While the output thread sleeps, a step of the decode thread leaves its queue empty. -/
theorem DecodeStep.frames_asleep {c c' : Channel} {ret : Int} (h : DecodeStep c ret c') (hc : Awake c)
    (hs : c'.output = .pop .asleep) : c'.frames.queue.items = [] ∧ c'.frames.state = true := by
  cases h with
  | pop _ h' =>
    subst h'
    exact hc.output hs
  | push frame _ _ _ hf ho _ =>
    rw [ho] at hs
    simp only [Channel.pushFrame] at hs
    cases hst : c.frames.state with
    | true => simp [hst] at hs
    | false =>
      simp only [hst, Bool.false_eq_true, if_false] at hs
      exact absurd (hc.output hs).2 (by simp [hst])
  | _ =>
    rename_i hf ho _
    rw [hf]
    rw [ho] at hs
    exact hc.output hs

/-- An output thread goes to sleep in `pop` only. -/
theorem OutputStep.asleep {c c' : Channel} (h : OutputStep c c') (hs : c'.output = .pop .asleep) :
    c'.frames.queue.items = [] ∧ c'.frames.state = true := by
  cases h with
  | idle _ h' => simp [hs] at h'
  | pop _ h' =>
    subst h'
    simp only [Channel.outputPop, OutputPc.pop.injEq] at hs
    exact MessageQueue.asleep_popSection hs
  | take _ _ h' => simp [hs] at h'
  | finish _ h' => simp [hs] at h'
  | sync _ h' =>
    subst h'
    cases hs
  | crash _ h h' =>
    subst h'
    have ho : c.output = .pop .asleep := hs
    simp [ho] at h
  | _ => simp_all

/-- The statements of `start` and `stop` signal whoever sleeps on the queue they switch. -/
theorem Awake.ctl_step {c c' : Channel} (hc : Awake c) (h : CtlStep c c') : Awake c' := by
  cases h with
  | packetsGotoWork _ _ h' | packetsBackWork _ _ h' =>
    subst h'
    exact ⟨fun hs => absurd hs (DecodePc.signalled_ne_asleep _), hc.output⟩
  | framesGotoWork _ _ h' | framesBackWork _ _ h' =>
    subst h'
    exact ⟨hc.decode, fun hs => absurd hs (OutputPc.signalled_ne_asleep _)⟩
  | createDecode _ h' =>
    subst h'
    exact ⟨by simp, hc.output⟩
  | createOutput _ _ h' | destroy _ _ h' =>
    subst h'
    exact ⟨hc.decode, by simp⟩
  | setFlag _ h' | clearFlag _ h' | join _ _ h' | freeSwr _ _ h' =>
    subst h'
    exact ⟨hc.decode, hc.output⟩

/-- Every step of a channel keeps sleepers on empty working queues. -/
theorem Awake.step {c c' : Channel} {a : ChannelAct} (hc : Awake c) (h : c.act a = some c') : Awake c' := by
  cases a with
  | decode ret =>
    obtain ⟨-, hs⟩ := decode_cases h
    exact ⟨hs.asleep, hs.frames_asleep hc⟩
  | output i =>
    obtain ⟨hk, hs⟩ := output_cases h
    refine ⟨?_, hs.asleep⟩
    rw [hk.decode, hk.packets]
    exact hc.decode
  | start => exact hc.ctl_step (start_cases h).1
  | stop => exact hc.ctl_step (stop_cases h)
  | wakeDecode =>
    simp only [Channel.act, Option.ite_none_right_eq_some, Option.some.injEq] at h
    obtain ⟨-, rfl⟩ := h
    exact ⟨by simp, hc.output⟩
  | wakeOutput =>
    simp only [Channel.act, Option.ite_none_right_eq_some, Option.some.injEq] at h
    obtain ⟨-, rfl⟩ := h
    exact ⟨hc.decode, by simp⟩
  | playReturn | setAudioChannel channel =>
    simp only [Channel.act, Option.ite_none_right_eq_some, Option.some.injEq] at h
    obtain ⟨-, rfl⟩ := h
    exact ⟨hc.decode, hc.output⟩
  | push packet =>
    simp only [Channel.act, Option.some.injEq] at h
    subst h
    refine ⟨?_, hc.output⟩
    intro hs
    simp only [Channel.pushPacket] at hs
    -- an accepted push has signalled; a rejected one finds nobody asleep, since the queue does not work
    cases hst : c.packets.state with
    | true => simp [hst] at hs
    | false =>
      simp only [hst, Bool.false_eq_true, if_false] at hs
      exact absurd (hc.decode hs).2 (by simp [hst])

/-- In every state a run of a channel reaches, sleepers sleep on empty working queues. -/
theorem awake_of_reachable {kind : Kind} {c : Channel} (h : (Channel.lts kind).Reachable c) : Awake c := by
  refine Lts.Reachable.invariant ?_ ?_ h
  · rintro c ⟨id, rfl⟩
    exact ⟨by simp [Channel.new], by simp [Channel.new]⟩
  · intro c a c' _ hc hs
    exact hc.step (Channel.step_eq_some.mp hs).2

/-! ## After `stop` -/

/-- After its `backWork` calls neither queue of a stopped channel works, and its flag is clear. -/
theorem Phased.stopDone {c : Channel} (hc : Phased c) (h : c.ctl.stopDone = true) :
    c.isPlaying = false ∧ c.packets.state = false ∧ c.frames.state = false := by
  rw [hc.playing, hc.packets, hc.frames]
  cases hk : c.kind <;> cases hctl : c.ctl <;> simp_all

/-- A `pop` on a queue that does not work comes back from its next critical section. -/
theorem MessageQueue.popSection_of_stopped {α : Type*} {q : MessageQueue α} (h : q.state = false) :
    ∃ ret, q.popSection.1 = .returned ret := by
  rcases q.popSection_cases with ⟨-, -, hs⟩ | ⟨he, -, -⟩ | ⟨v, rest, he, -⟩
  · rw [h] at hs
    cases hs
  · exact ⟨false, by rw [he]⟩
  · exact ⟨true, by rw [he]⟩

/-- A decode thread about to lock in `packets.pop` runs one critical section of it. -/
theorem act_decode_pop {c : Channel} (h : c.decode = .pop .call ∨ c.decode = .pop .woken) (ret : Int) :
    c.act (.decode ret) = some c.decodePop := by
  cases hk : c.kind <;> rcases h with h | h <;>
    simp [Channel.act, hk, AudioChannel.decode, VideoChannel.decode, Channel.decodeHead, h]

/-- A decode thread back from `packets.pop` leaves its loop when the flag is clear. -/
theorem act_decode_returned {c : Channel} {r : Bool} (h : c.decode = .pop (.returned r)) (hp : c.isPlaying = false)
    (ret : Int) : c.act (.decode ret) = some { c with decode := .leave } := by
  cases hk : c.kind <;>
    simp [Channel.act, hk, AudioChannel.decode, VideoChannel.decode, Channel.decodeHead, h, hp]

/-- An output thread about to lock in `frames.pop` runs one critical section of it. -/
theorem act_output_pop {c : Channel} (h : c.output = .pop .call ∨ c.output = .pop .woken) (i : OutputInput) :
    c.act (.output i) = some c.outputPop := by
  cases hk : c.kind <;> rcases h with h | h <;>
    simp [Channel.act, hk, AudioChannel.getPcm, VideoChannel.render, h]

/-- An output thread back from `frames.pop` leaves when the flag is clear: `render` its loop, `getPcm` with no data, so that
its callback enqueues nothing and is not run again. -/
theorem act_output_returned {c : Channel} {r : Bool} (h : c.output = .pop (.returned r)) (hp : c.isPlaying = false)
    (i : OutputInput) : ∃ c', c.act (.output i) = some c' ∧
      (c.kind = .video → c'.output = .leave) ∧
      (c.kind = .audio → c'.output = .enqueue 0 ∧ ∀ j, ∃ c'', c'.act (.output j) = some c'' ∧ c''.output = .ended) := by
  cases hk : c.kind with
  | video => exact ⟨_, by simp [Channel.act, hk, VideoChannel.render, h, hp]; rfl, by simp, by simp⟩
  | audio =>
    refine ⟨_, by simp [Channel.act, hk, AudioChannel.getPcm, h, hp]; rfl, by simp, fun _ => ⟨rfl, fun j => ?_⟩⟩
    cases r <;> simp [Channel.act, Channel.releaseOutFrame, hk, AudioChannel.getPcm]

/-- Stopping a channel never hangs on a sleeping consumer. At any time a consumer asleep in `pop` without a pending wake-up
has an empty queue. Once `stop` has executed `isPlaying = 0` and both `backWork` calls, neither consumer is asleep so; one that
is at a critical section of `pop` returns from it, and one that has returned leaves its loop (an audio callback: returns
without a buffer, after which it is not run again). -/
theorem stop_wakes_consumers {kind : Kind} {c : Channel} (h : (Channel.lts kind).Reachable c) :
    ((c.decode = .pop .asleep → c.packets.queue.items = []) ∧ (c.output = .pop .asleep → c.frames.queue.items = [])) ∧
    (c.ctl.stopDone = true →
      c.decode ≠ .pop .asleep ∧ c.output ≠ .pop .asleep ∧
      (c.decode = .pop .call ∨ c.decode = .pop .woken → ∀ ret, ∃ c' r,
        c.act (.decode ret) = some c' ∧ c'.decode = .pop (.returned r)) ∧
      (∀ r, c.decode = .pop (.returned r) → ∀ ret, ∃ c', c.act (.decode ret) = some c' ∧ c'.decode = .leave) ∧
      (c.output = .pop .call ∨ c.output = .pop .woken → ∀ i, ∃ c' r,
        c.act (.output i) = some c' ∧ c'.output = .pop (.returned r)) ∧
      (∀ r, c.output = .pop (.returned r) → ∀ i, ∃ c', c.act (.output i) = some c' ∧
        (c.kind = .video → c'.output = .leave) ∧
        (c.kind = .audio → c'.output = .enqueue 0 ∧
          ∀ j, ∃ c'', c'.act (.output j) = some c'' ∧ c''.output = .ended))) := by
  have ha := awake_of_reachable h
  refine ⟨⟨fun hs => (ha.decode hs).1, fun hs => (ha.output hs).1⟩, fun hd => ?_⟩
  obtain ⟨hp, hps, hfs⟩ := (phased_of_reachable h).stopDone hd
  refine ⟨?_, ?_, ?_, ?_, ?_, ?_⟩
  · intro hs
    rw [(ha.decode hs).2] at hps
    cases hps
  · intro hs
    rw [(ha.output hs).2] at hfs
    cases hfs
  · intro hc ret
    obtain ⟨r, hr⟩ := MessageQueue.popSection_of_stopped hps
    exact ⟨c.decodePop, r, act_decode_pop hc ret, by simp [Channel.decodePop, hr]⟩
  · intro r hr ret
    exact ⟨_, act_decode_returned hr hp ret, rfl⟩
  · intro hc i
    obtain ⟨r, hr⟩ := MessageQueue.popSection_of_stopped hfs
    exact ⟨c.outputPop, r, act_output_pop hc i, by simp [Channel.outputPop, hr]⟩
  · intro r hr i
    exact act_output_returned hr hp i

/-- A video channel stopped while its decode thread slept on the empty packets queue: the `backWork` calls have woken it, and
it returns from `pop`. -/
theorem stop_wakes_sleeping_decode : ∃ c, (Channel.lts .video).Reachable c ∧ c.ctl = .back2 ∧ c.decode = .pop .woken ∧
    ∀ ret, ∃ c' r, c.act (.decode ret) = some c' ∧ c'.decode = .pop (.returned r) := by
  have hrun : (Lts.replay Channel.step (Channel.new .video 0) (List.replicate 5 ChannelAct.start ++
      List.replicate 5 (ChannelAct.decode 0) ++ List.replicate 3 ChannelAct.stop)).map (fun c => (c.ctl, c.decode)) =
      some (.back2, .pop .woken) := rfl
  obtain ⟨c, hc, hrun⟩ := Option.map_eq_some_iff.mp hrun
  obtain ⟨hctl, hd⟩ := Prod.mk.inj hrun
  have hr : (Channel.lts .video).Reachable c := Lts.replay_reachable (fun _ _ _ => id) _ (.init ⟨0, rfl⟩) hc
  obtain ⟨-, -, hpop, -⟩ := (stop_wakes_consumers hr).2 (by simp [hctl])
  exact ⟨c, hr, hctl, hd, hpop (Or.inr hd)⟩

end LibraLive

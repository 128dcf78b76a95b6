import LibraLive.Lemmas.OpenSlSteps

/-!
# The one PCM buffer and the chain of callbacks

`getPcm` always writes the same buffer, and each callback enqueues it for the next. There is one token for it (`Token`), so
no two threads are in `getPcm` at once and nothing is written while an enqueued buffer is unfinished. But the token is lost
when `swr_convert` yields no data: then the callback enqueues nothing, is not run again, and the frames queue is no longer
drained.
-/

namespace LibraLive

/-! ## The buffer is written by one thread, and not while it is played -/

/-- There is one token: a buffer left with OpenSL, or a callback that has not passed its `Enqueue`. -/
theorem Token.count_le_one {s : AudioOutput} {c : Channel} (h : Token s c) : s.queued + s.active.length ≤ 1 := by
  cases h with
  | notCreated _ h2 h3 h4 => simp [AudioOutput.active, AudioOutput.activations, h2, h3, h4, AudioPlayPc.activation]
  | opening _ h2 h3 h4 =>
    cases hp : s.audioPlay <;> simp [hp] at h2 <;>
      simp [AudioOutput.active, AudioOutput.activations, hp, h3, h4, AudioPlayPc.activation]
  | callback cb _ h2 _ _ h5 => simp [h2, h5]
  | buffer _ _ h3 h4 => simp [h3, h4]
  | gone _ _ h3 h4 => simp [h3, h4]

/-- The buffers enqueued and not finished and the callbacks that have not passed their `Enqueue` are at most one together. So
at most one thread is in `getPcm`, and when it converts into the buffer, no enqueued buffer is unfinished. -/
theorem pcmBuffer_exclusive {s : AudioOutput} (h : AudioOutput.lts.Reachable s) :
    s.queued + s.active.length ≤ 1 ∧ (s.activations.filter BqCallback.inGetPcm).length ≤ 1 ∧
      ∀ cb ∈ s.activations, cb.pc = .convert → s.queued = 0 := by
  obtain ⟨c, -, hs⟩ := standsFor_of_reachable h
  have hone := hs.token.count_le_one
  have hsub : (s.activations.filter BqCallback.inGetPcm).length ≤ s.active.length :=
    (List.monotone_filter_right s.activations fun _ => BqCallback.beforeEnqueue_of_inGetPcm).length_le
  refine ⟨hone, by omega, fun cb hcb hpc => ?_⟩
  have hmem : cb ∈ s.active := List.mem_filter.mpr ⟨hcb, by simp [BqCallback.beforeEnqueue, hpc]⟩
  have hpos := List.length_pos_of_mem hmem
  omega

/-- OpenSL runs the callback for the first buffer before the callback of `audio_play` has returned: two callbacks are under
way, one of them in `getPcm`, and no buffer is outstanding. -/
theorem pcmBuffer_exclusive_two_callbacks : ∃ s, AudioOutput.lts.Reachable s ∧ s.activations.length = 2 ∧
    (s.queued + s.active.length ≤ 1 ∧ (s.activations.filter BqCallback.inGetPcm).length ≤ 1 ∧
      ∀ cb ∈ s.activations, cb.pc = .convert → s.queued = 0) := by
  have hrun : (Lts.replay AudioOutput.step (AudioOutput.new 0) (AudioOutput.playActs ++
      List.replicate 5 (AudioOutput.Act.callback .audioPlay 1) ++ [AudioOutput.Act.bufferFinished])).map (·.activations.length) = some 2 := rfl
  obtain ⟨s, hs, hlen⟩ := Option.map_eq_some_iff.mp hrun
  have hr := AudioOutput.reachable_of_replay hs
  exact ⟨s, hr, hlen, pcmBuffer_exclusive hr⟩

/-! ## The chain of callbacks -/

/-- The condition on a step: whenever a callback converts while the channel plays, `swr_convert` yields data. -/
def ConvertsSome (s : AudioOutput) (a : AudioOutput.Act) : Prop :=
  ∀ t samples cb, a = .callback t samples → s.activation t = some cb → cb.pc = .convert →
    s.channel.isPlaying = true → 0 < pcmDataSize samples

/-- The chain is alive, and every callback at its `Enqueue` has data for it. -/
structure ChainAlive (s : AudioOutput) : Prop where
  sized : s.channel.isPlaying = true → ∀ cb ∈ s.activations, ∀ dataSize, cb.pc = .enqueue dataSize → 0 < dataSize
  alive : s.channel.isPlaying = true → s.activated = true → s.active ≠ [] ∨ 0 < s.queued

/-- While the channel plays, a callback gets to its `Enqueue` from `swr_convert`. -/
theorem BqCallback.getPcm_enqueue {c : Channel} {cb : BqCallback} {samples dataSize : Int} (hin : cb.inGetPcm = true)
    (hplays : c.isPlaying = true) (h : (cb.getPcm c samples).2.pc = .enqueue dataSize) :
    cb.pc = .convert ∧ dataSize = pcmDataSize samples := by
  cases BqCallback.getPcm_cases c samples hin with
  | convert frame hpc _ _ hstep =>
    rw [hstep] at h
    exact ⟨hpc, (CallbackPc.enqueue.inj h).symm⟩
  | pop pc _ hret hstep =>
    rw [hstep] at h
    rcases hret with ⟨-, rfl⟩ | ⟨ret, -, rfl⟩ <;> cases h
  | quits _ hp => simp [hp] at hplays
  | missed _ hp => simp [hp] at hplays
  | nullFrame _ _ hstep | freedSwr _ _ _ _ hstep =>
    rw [hstep] at h
    simp [BqCallback.inGetPcm, show cb.pc = _ from h] at hin
  | plays _ _ _ hstep | getDelay _ _ _ _ hstep =>
    rw [hstep] at h
    cases h

/-- A step that meets the condition keeps the chain alive. -/
theorem ChainAlive.step {s s' : AudioOutput} {a : AudioOutput.Act} (hr : AudioOutput.lts.Reachable s) (h : ChainAlive s)
    (hP : ConvertsSome s a) (hs : s.step a = some s') : ChainAlive s' := by
  cases AudioOutput.step_cases hr hs with
  | other hact hacd _ hq hplay _ =>
    have hactive : s'.active = s.active := by rw [AudioOutput.active, AudioOutput.active, hact]
    constructor
    · intro hp cb hcb
      rw [hact] at hcb
      rcases hplay hp with hp | hctl
      · exact h.sized hp cb hcb
      · simp [(AudioOutput.activations_of_constructed hr hctl).1] at hcb
    · intro hp ha
      rw [hacd] at ha
      rcases hplay hp with hp | hctl
      · rcases hq with hq | hctl
        · rw [hactive, hq]
          exact h.alive hp ha
        · rw [AudioOutput.isPlaying_eq hr, hctl] at hp
          cases hp
      · rw [(AudioOutput.activations_of_constructed hr hctl).2] at ha
        cases ha
  | called l r hact hact' hc =>
    constructor
    · intro hp cb hcb dataSize hpc
      rw [hc] at hp
      rw [hact', List.mem_append, List.mem_cons] at hcb
      rcases hcb with hcb | rfl | hcb
      · exact h.sized hp cb (by simp [hact, hcb]) dataSize hpc
      · cases hpc
      · exact h.sized hp cb (by simp [hact, hcb]) dataSize hpc
    · intro _ _
      left
      simp [AudioOutput.active, hact', BqCallback.called, BqCallback.beforeEnqueue]
  | getPcm t samples cb ha hcb hin hs' =>
    obtain ⟨hplay, -, hb'⟩ := BqCallback.getPcm_keeps s.channel samples hin
    subst hs'
    constructor
    · intro hp b hb dataSize hpc
      have hp : s.channel.isPlaying = true := hplay ▸ hp
      rcases AudioOutput.mem_setActivation hcb hb with hb | rfl
      · exact h.sized hp b hb dataSize hpc
      · obtain ⟨hcv, rfl⟩ := BqCallback.getPcm_enqueue hin hp hpc
        exact hP t samples cb ha hcb hcv hp
    · intro _ _
      left
      have hset := (AudioOutput.active_of_activation hr hcb (BqCallback.beforeEnqueue_of_inGetPcm hin)).2
        (cb.getPcm s.channel samples).2
      rw [List.filter_cons_of_pos hb'] at hset
      intro hnil
      exact absurd (hset.symm.trans hnil) (by simp)
  | enqueue t dataSize cb hcb hpc hs' =>
    have hb : cb.beforeEnqueue = true := by simp [BqCallback.beforeEnqueue, hpc]
    obtain ⟨hq, -⟩ := AudioOutput.active_of_activation hr hcb hb
    have hplay : s'.channel = s.channel := by rw [hs']; cases t <;> rfl
    constructor
    · intro hp b hmem d hd
      rw [hplay] at hp
      rw [hs'] at hmem
      rcases AudioOutput.mem_setActivation hcb hmem with hmem | rfl
      · exact h.sized hp b hmem d hd
      · cases hd
    · intro hp _
      rw [hplay] at hp
      right
      have hd := h.sized hp cb (AudioOutput.mem_activations hcb) dataSize hpc
      simp [hs', hq, hd, bufferQueueCapacity]
  | returns t cb hcb hpc hs' =>
    have hb : cb.beforeEnqueue = false := by simp [BqCallback.beforeEnqueue, hpc]
    have hkeep : s'.channel = s.channel ∧ s'.queued = s.queued ∧ s'.activated = s.activated := by
      rw [hs']
      cases t <;> exact ⟨rfl, rfl, rfl⟩
    obtain ⟨hc, hq, ha⟩ := hkeep
    constructor
    · intro hp b hmem
      rw [hc] at hp
      rw [hs'] at hmem
      exact h.sized hp b (AudioOutput.mem_returnFrom hcb hmem)
    · rw [hc, ha, hq, hs', AudioOutput.active_returnFrom hcb hb]
      exact h.alive

/-- If every conversion of a run that happens while the channel plays yields data, then from the first callback until
`isPlaying` becomes 0 there is a callback that has not passed its `Enqueue`, or a buffer left with OpenSL. -/
theorem chain_alive {s : AudioOutput} (h : (AudioOutput.lts.restrict ConvertsSome).Reachable s)
    (hplays : s.channel.isPlaying = true) (hactivated : s.activated = true) :
    (∃ cb ∈ s.activations, cb.beforeEnqueue = true) ∨ 0 < s.queued := by
  have halive : ChainAlive s := by
    refine Lts.Reachable.restrict_invariant ?_ (fun s a s' hr hP hI hs => ChainAlive.step hr hI hP hs) h
    rintro s ⟨id, rfl⟩
    exact ⟨by simp [AudioOutput.new, Channel.new], by simp [AudioOutput.new]⟩
  rcases halive.alive hplays hactivated with hact | hq
  · obtain ⟨cb, hcb⟩ := List.exists_mem_of_ne_nil _ hact
    exact Or.inl ⟨cb, List.mem_filter.mp hcb⟩
  · exact Or.inr hq

/-- The condition is decided on the step. -/
def convertsSome (s : AudioOutput) : AudioOutput.Act → Bool
  | .callback t samples =>
    match s.activation t with
    | some cb => cb.pc ≠ .convert || !s.channel.isPlaying || 0 < pcmDataSize samples
    | none => true
  | _ => true

theorem convertsSome_sound (s : AudioOutput) (a : AudioOutput.Act) (h : convertsSome s a = true) : ConvertsSome s a := by
  rintro t samples cb rfl hcb hpc hp
  simpa [convertsSome, hcb, hpc, hp] using h

/-- After one frame that yields one sample, the buffer is with OpenSL. -/
theorem chain_alive_one_frame : ∃ s, (AudioOutput.lts.restrict ConvertsSome).Reachable s ∧
    s.channel.isPlaying = true ∧ s.activated = true ∧
      ((∃ cb ∈ s.activations, cb.beforeEnqueue = true) ∨ 0 < s.queued) := by
  have hrun : (Lts.replayIf AudioOutput.step convertsSome (AudioOutput.new 0) (AudioOutput.playActs ++
      AudioOutput.callbackActs .audioPlay 1)).map (fun s => (s.channel.isPlaying, s.activated)) = some (true, true) := by
    decide +kernel
  obtain ⟨s, hs, hrun⟩ := Option.map_eq_some_iff.mp hrun
  obtain ⟨hplays, hactivated⟩ := Prod.mk.inj hrun
  have hr := Lts.replayIf_reachable (L := AudioOutput.lts) (fun _ _ _ => id) convertsSome_sound _ (.init ⟨0, rfl⟩) hs
  exact ⟨s, hr, hplays, hactivated, chain_alive hr hplays hactivated⟩

/-- One frame for which `swr_convert` yields nothing: the callback has returned without a buffer, and while the channel plays
on nobody will run it again. -/
theorem chain_dead : ∃ s, AudioOutput.lts.Reachable s ∧ s.channel.isPlaying = true ∧ s.activated = true ∧
    s.activations = [] ∧ s.queued = 0 := by
  have hrun : (Lts.replay AudioOutput.step (AudioOutput.new 0) (AudioOutput.playActs ++
      AudioOutput.callbackActs .audioPlay 0)).map (fun s => (s.channel.isPlaying, s.activated, s.activations, s.queued)) =
      some (true, true, [], 0) := by decide +kernel
  obtain ⟨s, hs, hrun⟩ := Option.map_eq_some_iff.mp hrun
  simp only [Prod.mk.injEq] at hrun
  exact ⟨s, AudioOutput.reachable_of_replay hs, hrun⟩

end LibraLive

import LibraLive.Lemmas.AudioFrames
import LibraLive.Lemmas.OpenSlSteps

/-!
# The frame that `getPcm` uses

`getPcm` does not test what `frames.pop` returned when the flag is set. It need not: `start` sets the flag and switches the
queues on before it creates the threads, and `stop` clears the flag before it switches the queues off, so a `pop` that comes
back empty-handed finds the flag clear (`FramesOwned.missed`). The frame it has is one that `decode` pushed and nobody
released, and every frame taken off the queue is released once.
-/

namespace LibraLive

/-- A callback that has passed its `Enqueue` has no frame. -/
theorem AudioOutput.frame_of_returned {s : AudioOutput} (h : AudioOutput.lts.Reachable s) :
    ∀ cb ∈ s.activations, cb.pc = .returned → cb.frame = none := by
  refine Lts.Reachable.invariant ?_ ?_ h
  · rintro s ⟨id, rfl⟩ cb hcb
    cases hcb
  · intro s a s' hr ih hs
    cases AudioOutput.step_cases hr hs with
    | other hact => rw [hact]; exact ih
    | called l r hact hact' _ =>
      simp only [hact, hact', List.forall_mem_append, List.forall_mem_cons] at ih ⊢
      exact ⟨ih.1, fun _ => rfl, ih.2⟩
    | getPcm t samples cb _ hcb hin hs' =>
      obtain ⟨-, -, hb'⟩ := BqCallback.getPcm_keeps s.channel samples hin
      subst hs'
      intro b hb hpc
      rcases AudioOutput.mem_setActivation hcb hb with hb | rfl
      · exact ih b hb hpc
      · simp [BqCallback.beforeEnqueue, hpc] at hb'
    | enqueue t dataSize cb hcb hpc hs' =>
      subst hs'
      intro b hb hret
      rcases AudioOutput.mem_setActivation hcb hb with hb | rfl
      · exact ih b hb hret
      · -- at its `Enqueue` the channel has no frame in hand
        obtain ⟨c, hc, hst⟩ := standsFor_of_reachable hr
        obtain ⟨-, hat, hf, -⟩ := hst.token.of_mem (AudioOutput.mem_activations hcb)
          (by simp [BqCallback.beforeEnqueue, hpc])
        rw [hpc] at hat
        have hat : c.output = .enqueue dataSize := hat
        exact hf.symm.trans ((framesOwned_of_reachable hc).outFrame_eq_none (by simp [hat]))
    | returns t cb hcb _ hs' =>
      subst hs'
      exact fun b hb => ih b (AudioOutput.mem_returnFrom hcb hb)

/-- The callbacks that hold a frame have not passed their `Enqueue`. -/
theorem AudioOutput.holders_eq {s : AudioOutput} (h : AudioOutput.lts.Reachable s) (frame : AVFrame) :
    s.activations.filter (fun cb => cb.frame = some frame) = s.active.filter (fun cb => cb.frame = some frame) := by
  rw [AudioOutput.active, List.filter_filter]
  refine List.filter_congr fun cb hcb => ?_
  by_cases hret : cb.pc = .returned
  · simp [AudioOutput.frame_of_returned h cb hcb hret]
  · simp [BqCallback.beforeEnqueue, hret]

/-- The frame of a callback that resamples is the channel's. -/
theorem AudioOutput.frame_of_resampling {s : AudioOutput} {c : Channel} (hc : (Channel.lts .audio).Reachable c)
    (hs : StandsFor c s) {cb : BqCallback} (hcb : cb ∈ s.activations) (hres : cb.resampling = true) :
    ∃ frame, cb.frame = some frame ∧ c.outFrame = some frame := by
  have hb : cb.beforeEnqueue = true := by
    unfold BqCallback.resampling at hres
    cases hpc : cb.pc <;> simp [hpc, BqCallback.beforeEnqueue] at hres ⊢
  obtain ⟨-, hat, hf, -⟩ := hs.token.of_mem hcb hb
  have hconvert := BqCallback.standsAt_resampling hres hat
  obtain ⟨frame, hframe⟩ := Option.ne_none_iff_exists'.mp ((framesOwned_of_reachable hc).got (by simp [hconvert]))
  exact ⟨frame, hf.symm.trans hframe, hframe⟩

/-- Whenever `getPcm` passes its `isPlaying` check, its `pop` returned 1. The frame it then uses was pushed by `decode` and is
not released. And every frame that was popped has been released once, or one callback has it in its hand. -/
theorem getPcm_has_frame {s : AudioOutput} (h : AudioOutput.lts.Reachable s) :
    (∀ cb ∈ s.activations, ∀ ret, cb.pc = .popped ret → s.channel.isPlaying = true → ret = true) ∧
      (∀ cb ∈ s.activations, cb.resampling = true → ∃ frame, cb.frame = some frame ∧
        frame ∈ s.channel.frames.queue.accepted ∧ frame ∉ s.channel.freedFrames) ∧
      (∀ frame ∈ s.channel.frames.queue.taken, s.channel.freedFrames.count frame +
        (s.activations.filter fun cb => cb.frame = some frame).length = 1) := by
  obtain ⟨c, hc, hs⟩ := standsFor_of_reachable h
  have howned := framesOwned_of_reachable hc
  refine ⟨?_, ?_, ?_⟩
  · intro cb hcb ret hpc hp
    obtain ⟨-, hat, -, -⟩ := hs.token.of_mem hcb (by simp [BqCallback.beforeEnqueue, hpc])
    rw [hpc] at hat
    cases ret with
    | true => rfl
    | false =>
      rw [hs.channel] at hp
      exact absurd hp (by simp [Channel.withoutOutput, howned.missed hat])
  · intro cb hcb hres
    obtain ⟨frame, hcbframe, hframe⟩ := AudioOutput.frame_of_resampling hc hs hcb hres
    refine ⟨frame, hcbframe, ?_, ?_⟩
    · rw [hs.channel]
      exact c.frames.queue.taken_prefix.subset (howned.fromQueue frame hframe)
    · rw [hs.channel]
      exact howned.not_freed hframe
  · intro frame hmem
    rw [hs.channel] at hmem ⊢
    have honce := howned.released_once hmem
    have hcount : (s.activations.filter fun cb => cb.frame = some frame).length =
        if c.outFrame = some frame then 1 else 0 := by
      rw [AudioOutput.holders_eq h]
      rcases hs.token.active_eq with ⟨cb, hact, -, hf, -⟩ | ⟨hact, hout⟩
      · rw [hact, hf, List.filter_singleton]
        by_cases hframe : cb.frame = some frame <;> simp [hframe]
      · have hnone := howned.outFrame_eq_none (by rcases hout with hout | hout | hout | hout <;> simp [hout])
        simp [hact, hnone]
    rw [hcount]
    exact honce

/-- The callback of `audio_play` at `swr_convert` with the first frame. -/
theorem getPcm_has_frame_first : ∃ s, AudioOutput.lts.Reachable s ∧ s.activations = [⟨.convert, some ⟨0, some ⟨0, 0, 0⟩⟩⟩] ∧
    ((∀ cb ∈ s.activations, ∀ ret, cb.pc = .popped ret → s.channel.isPlaying = true → ret = true) ∧
      (∀ cb ∈ s.activations, cb.resampling = true → ∃ frame, cb.frame = some frame ∧
        frame ∈ s.channel.frames.queue.accepted ∧ frame ∉ s.channel.freedFrames) ∧
      (∀ frame ∈ s.channel.frames.queue.taken, s.channel.freedFrames.count frame +
        (s.activations.filter fun cb => cb.frame = some frame).length = 1)) := by
  have hrun : (Lts.replay AudioOutput.step (AudioOutput.new 0) (AudioOutput.playActs ++
      List.replicate 3 (.callback .audioPlay 1))).map (·.activations) =
      some [⟨.convert, some ⟨0, some ⟨0, 0, 0⟩⟩⟩] := rfl
  obtain ⟨s, hs, hact⟩ := Option.map_eq_some_iff.mp hrun
  have hr := AudioOutput.reachable_of_replay hs
  exact ⟨s, hr, hact, getPcm_has_frame hr⟩

end LibraLive

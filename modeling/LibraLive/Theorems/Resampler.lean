import LibraLive.Theorems.GetPcm

/-!
# The resampler and its last use

`stop` joins the decode thread and `audio_play`, frees the resampler, and only then destroys the OpenSL player, which is what
waits for a callback on OpenSL's thread. A callback that passed its `isPlaying` check before `stop` cleared the flag may
still be at `swr_get_delay` or `swr_convert` when `swr_free` runs.
-/

namespace LibraLive

/-! ## When the resampler is gone -/

/-- The resampler of an audio channel is freed by `stop`, between the last join and `Destroy`. -/
theorem Channel.swr_of_reachable {kind : Kind} {c : Channel} (h : (Channel.lts kind).Reachable c)
    (hs : c.swrContext = false) : c.ctl = .swrFreed ∨ c.ctl = .stopped := by
  revert hs
  refine Lts.Reachable.invariant ?_ ?_ h
  · rintro c ⟨id, rfl⟩ hs
    cases hs
  · intro c a c' _ ih hstep hs
    obtain ⟨-, hact⟩ := Channel.step_eq_some.mp hstep
    cases a with
    | decode ret =>
      obtain ⟨hk, -⟩ := decode_cases hact
      rw [hk.ctl]
      exact ih (hk.swrContext ▸ hs)
    | output i =>
      obtain ⟨hk, -⟩ := output_cases hact
      rw [hk.ctl]
      exact ih (hk.swrContext ▸ hs)
    | start | stop =>
      have hctl : CtlStep c c' := by first | exact (start_cases hact).1 | exact stop_cases hact
      cases hctl with
      | freeSwr _ _ hc => exact Or.inl (by rw [hc])
      | destroy _ _ hc => exact Or.inr (by rw [hc])
      | join next hn hc =>
        subst hc
        rcases hn with ⟨hn, -, -⟩ | ⟨hn, -, -⟩ | ⟨hn, -, -⟩ <;> have ih := ih hs <;> simp [hn] at ih
      | packetsGotoWork _ hn hc | framesGotoWork _ hn hc | packetsBackWork _ hn hc | framesBackWork _ hn hc =>
        subst hc
        have ih := ih hs
        rcases hn with ⟨-, hn, -⟩ | ⟨-, hn, -⟩ <;> simp [hn] at ih
      | setFlag hn hc | createDecode hn hc | createOutput _ hn hc | clearFlag hn hc =>
        subst hc
        have ih := ih hs
        simp [hn] at ih
    | push packet =>
      cases hact
      exact ih hs
    | wakeDecode | wakeOutput | playReturn | setAudioChannel channel =>
      simp only [Channel.act, Option.ite_none_right_eq_some, Option.some.injEq] at hact
      obtain ⟨-, rfl⟩ := hact
      exact ih hs

/-- Once it is freed, the flag is clear. -/
theorem AudioOutput.isPlaying_of_freed {s : AudioOutput} (hr : AudioOutput.lts.Reachable s)
    (hs : s.channel.swrContext = false) : s.channel.isPlaying = false := by
  rw [AudioOutput.isPlaying_eq hr]
  obtain ⟨c, hc, hf⟩ := standsFor_of_reachable hr
  rw [hf.channel] at hs ⊢
  have hctl : c.withoutOutput.ctl = c.ctl := rfl
  rcases Channel.swr_of_reachable hc hs with h | h <;> rw [hctl, h] <;> rfl

/-! ## A use after `swr_free` -/

/-- A callback on OpenSL's thread has passed its check; `stop` runs up to and including `swr_free`, and the callback goes on. -/
def AudioOutput.lateUseActs : List AudioOutput.Act :=
  playActs ++ Act.push ⟨1, 0, 0⟩ :: List.replicate 8 (Act.decode 0) ++ callbackActs .audioPlay 1 ++
    Act.bufferFinished :: List.replicate 2 (Act.callback (.openSl 0) 1) ++ List.replicate 3 Act.stop ++
    List.replicate 2 (Act.decode 0) ++ List.replicate 3 Act.stop ++ [Act.callback (.openSl 0) 1]

/-- `swr_get_delay` is called with the resampler that `stop` has freed. -/
theorem resampler_used_after_free : ∃ s, AudioOutput.lts.Reachable s ∧ s.channel.crash = some .freedSwrContext := by
  have hrun : (Lts.replay AudioOutput.step (AudioOutput.new 0) AudioOutput.lateUseActs).map (·.channel.crash) =
      some (some .freedSwrContext) := by decide +kernel
  obtain ⟨s, hs, hrun⟩ := Option.map_eq_some_iff.mp hrun
  exact ⟨s, AudioOutput.reachable_of_replay hs, hrun⟩

/-! ## When it does not happen -/

/-- The condition on a step: `swr_free` does not run while a callback is between its `isPlaying` check and the end of
`swr_convert`. -/
def FreesUnused (s : AudioOutput) (a : AudioOutput.Act) : Prop :=
  a = .stop → s.channel.ctl = .outputJoined → ∀ cb ∈ s.activations, cb.resampling = false

/-- No callback is about to use a freed resampler, and none has. -/
structure ResamplerHeld (s : AudioOutput) : Prop where
  held : s.channel.swrContext = false → ∀ cb ∈ s.activations, cb.resampling = false
  unused : s.channel.crash ≠ some .freedSwrContext

/-- With the flag clear no callback gets to the resampler. -/
theorem BqCallback.getPcm_resampling {c : Channel} {cb : BqCallback} (samples : Int) (hin : cb.inGetPcm = true)
    (hplays : c.isPlaying = false) (hres : cb.resampling = false) : (cb.getPcm c samples).2.resampling = false := by
  cases BqCallback.getPcm_cases c samples hin with
  | pop pc _ hret hstep =>
    rw [hstep]
    rcases hret with ⟨-, rfl⟩ | ⟨ret, -, rfl⟩ <;> rfl
  | plays _ _ hp => simp [hp] at hplays
  | quits _ _ hstep | missed _ _ hstep | convert _ _ _ _ hstep =>
    rw [hstep]
    rfl
  | nullFrame h | freedSwr _ h => simp [h] at hres
  | getDelay _ hpc => simp [BqCallback.resampling, hpc] at hres

/-- A step that meets the condition keeps it so. -/
theorem ResamplerHeld.step {s s' : AudioOutput} {a : AudioOutput.Act} (hr : AudioOutput.lts.Reachable s)
    (h : ResamplerHeld s) (hP : FreesUnused s a) (hs : s.step a = some s') : ResamplerHeld s' := by
  cases AudioOutput.step_cases hr hs with
  | other hact _ hcrash _ _ hswr =>
    refine ⟨fun hf => ?_, by rw [hcrash]; exact h.unused⟩
    rw [hact]
    rcases hswr with hswr | ⟨rfl, hctl⟩
    · exact h.held (hswr ▸ hf)
    · exact hP rfl hctl
  | called l r hact hact' hc =>
    refine ⟨fun hf => ?_, by rw [hc]; exact h.unused⟩
    have hheld := h.held (by rw [← hc]; exact hf)
    simp only [hact, hact', List.forall_mem_append, List.forall_mem_cons] at hheld ⊢
    exact ⟨hheld.1, rfl, hheld.2⟩
  | getPcm t samples cb _ hcb hin hs' =>
    obtain ⟨-, hswr, -⟩ := BqCallback.getPcm_keeps s.channel samples hin
    have hmem := AudioOutput.mem_activations hcb
    subst hs'
    constructor
    · intro hf b hb
      have hf : s.channel.swrContext = false := hswr ▸ hf
      rcases AudioOutput.mem_setActivation hcb hb with hb | rfl
      · exact h.held hf b hb
      · exact BqCallback.getPcm_resampling samples hin (AudioOutput.isPlaying_of_freed hr hf) (h.held hf cb hmem)
    · -- only a callback at the resampler can use it
      show (cb.getPcm s.channel samples).1.crash ≠ some .freedSwrContext
      cases BqCallback.getPcm_cases s.channel samples hin with
      | nullFrame _ _ hstep => rw [hstep]; simp
      | freedSwr _ hres _ hf => rw [h.held hf cb hmem] at hres; cases hres
      | _ =>
        rename_i hstep
        rw [hstep]
        exact h.unused
  | enqueue t dataSize cb hcb _ hs' =>
    have hc : s'.channel = s.channel := by rw [hs']; cases t <;> rfl
    refine ⟨fun hf b hb => ?_, by rw [hc]; exact h.unused⟩
    rw [hc] at hf
    rw [hs'] at hb
    rcases AudioOutput.mem_setActivation hcb hb with hb | rfl
    · exact h.held hf b hb
    · rfl
  | returns t cb hcb _ hs' =>
    have hc : s'.channel = s.channel := by rw [hs']; cases t <;> rfl
    refine ⟨fun hf b hb => ?_, by rw [hc]; exact h.unused⟩
    rw [hc] at hf
    rw [hs'] at hb
    exact h.held hf b (AudioOutput.mem_returnFrom hcb hb)

/-- In a run in which `swr_free` never runs while a callback is between its `isPlaying` check and the end of `swr_convert`,
the resampler is never used after it was freed, and no callback is about to. -/
theorem resampler_outlives_uses {s : AudioOutput} (h : (AudioOutput.lts.restrict FreesUnused).Reachable s) :
    s.channel.crash ≠ some .freedSwrContext ∧
      (s.channel.swrContext = false → ∀ cb ∈ s.activations, cb.resampling = false) := by
  have hheld : ResamplerHeld s := by
    refine Lts.Reachable.restrict_invariant ?_ (fun s a s' hr hP hI hs => ResamplerHeld.step hr hI hP hs) h
    rintro s ⟨id, rfl⟩
    exact ⟨by simp [AudioOutput.new, Channel.new], by simp [AudioOutput.new, Channel.new]⟩
  exact ⟨hheld.unused, hheld.held⟩

/-- The condition is decided on the step. -/
def freesUnused (s : AudioOutput) (a : AudioOutput.Act) : Bool :=
  a ≠ .stop || s.channel.ctl ≠ .outputJoined || s.activations.all fun cb => !cb.resampling

theorem freesUnused_sound (s : AudioOutput) (a : AudioOutput.Act) (h : freesUnused s a = true) : FreesUnused s a := by
  intro ha hctl
  simpa [freesUnused, ha, hctl] using h

/-- `stop` frees the resampler while a buffer is with OpenSL, whose callback then finds the flag clear. -/
theorem resampler_outlives_uses_buffer_outstanding : ∃ s, (AudioOutput.lts.restrict FreesUnused).Reachable s ∧
    s.channel.swrContext = false ∧ s.activations = [⟨.enqueue 0, none⟩] ∧
    (s.channel.crash ≠ some .freedSwrContext ∧
      (s.channel.swrContext = false → ∀ cb ∈ s.activations, cb.resampling = false)) := by
  have hrun : (Lts.replayIf AudioOutput.step freesUnused (AudioOutput.new 0) (AudioOutput.playActs ++
      AudioOutput.callbackActs .audioPlay 1 ++ List.replicate 3 AudioOutput.Act.stop ++
      List.replicate 2 (AudioOutput.Act.decode 0) ++ List.replicate 3 AudioOutput.Act.stop ++
      AudioOutput.Act.bufferFinished :: List.replicate 2 (AudioOutput.Act.callback (.openSl 0) 1))).map
      (fun s => (s.channel.swrContext, s.activations)) = some (false, [⟨.enqueue 0, none⟩]) := by decide +kernel
  obtain ⟨s, hs, hrun⟩ := Option.map_eq_some_iff.mp hrun
  obtain ⟨hswr, hact⟩ := Prod.mk.inj hrun
  have hr := Lts.replayIf_reachable (L := AudioOutput.lts) (fun _ _ _ => id) freesUnused_sound _ (.init ⟨0, rfl⟩) hs
  exact ⟨s, hr, hswr, hact, resampler_outlives_uses hr⟩

/-- The condition leaves nothing out: where it fails, the callback's next step uses the freed resampler. -/
theorem resampler_used_of_late_callback {s : AudioOutput} (h : AudioOutput.lts.Reachable s) (hcrash : s.channel.crash = none)
    (hctl : s.channel.ctl = .outputJoined) {t : AudioOutput.Thread} {cb : BqCallback} (hcb : s.activation t = some cb)
    (hres : cb.resampling = true) (samples : Int) : ∃ s₁ s₂, s.step .stop = some s₁ ∧
      s₁.step (.callback t samples) = some s₂ ∧ s₂.channel.crash = some .freedSwrContext := by
  obtain ⟨frame, hframe, -⟩ := (getPcm_has_frame h).2.1 cb (AudioOutput.mem_activations hcb) hres
  obtain ⟨c, hc, hst⟩ := standsFor_of_reachable h
  have hk : s.channel.kind = .audio := by
    have hkc := Channel.kind_of_reachable hc
    rw [hst.channel]
    exact hkc
  let s₁ : AudioOutput := { s with channel := { s.channel with swrContext := false, ctl := .swrFreed } }
  have hstop : s.step .stop = some s₁ := by
    refine AudioOutput.step_eq_some.mpr ⟨hcrash, ?_⟩
    simp [AudioOutput.act, AudioOutput.stop, hctl, Channel.stop, hk, s₁]
  have hact : s₁.activation t = some cb := by cases t <;> exact hcb
  have hcall : s₁.bqPlayerCallback t samples = some { s₁.setActivation t cb with
      channel := { s₁.channel with crash := some .freedSwrContext } } := by
    unfold BqCallback.resampling at hres
    cases hpc : cb.pc <;> simp [hpc] at hres <;>
      simp [AudioOutput.bqPlayerCallback, hact, hpc, BqCallback.getPcm, BqCallback.use, hframe, s₁]
  exact ⟨s₁, _, hstop, AudioOutput.step_eq_some.mpr ⟨hcrash, hcall⟩, rfl⟩

end LibraLive

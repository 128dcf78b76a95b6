import LibraLive.Lemmas.OpenSlChannel

/-!
# What one step of the audio output does

`AudioStep` lists the steps of `AudioOutput` by what they do to the callbacks, to the buffers enqueued, to the flag and to the
resampler; `audio_cases` shows that there are no others.
-/

namespace LibraLive

/-- The steps of the audio output. -/
inductive AudioStep (s : AudioOutput) (a : AudioOutput.Act) (s' : AudioOutput) : Prop where
  | other : s'.activations = s.activations → s'.activated = s.activated → s'.channel.crash = s.channel.crash →
      (s'.queued = s.queued ∨ s.channel.ctl = .swrFreed) →
      (s'.channel.isPlaying = true → s.channel.isPlaying = true ∨ s.channel.ctl = .constructed) →
      (s'.channel.swrContext = s.channel.swrContext ∨ a = .stop ∧ s.channel.ctl = .outputJoined) → AudioStep s a s'
  | called (l r : List BqCallback) : s.activations = l ++ r → s'.activations = l ++ BqCallback.called :: r →
      s'.channel = s.channel → AudioStep s a s'
  | getPcm (t : AudioOutput.Thread) (samples : Int) (cb : BqCallback) : a = .callback t samples →
      s.activation t = some cb → cb.inGetPcm = true →
      s' = { s.setActivation t (cb.getPcm s.channel samples).2 with channel := (cb.getPcm s.channel samples).1 } →
      AudioStep s a s'
  | enqueue (t : AudioOutput.Thread) (dataSize : Int) (cb : BqCallback) : s.activation t = some cb →
      cb.pc = .enqueue dataSize → s' = { s.setActivation t { cb with pc := .returned } with
        queued := if 0 < dataSize ∧ s.queued < bufferQueueCapacity then s.queued + 1 else s.queued } → AudioStep s a s'
  | returns (t : AudioOutput.Thread) (cb : BqCallback) : s.activation t = some cb → cb.pc = .returned →
      s' = s.returnFrom t → AudioStep s a s'

/-- A step of the decode thread or a push is no step of the output. -/
theorem audioStep_of_channel {s : AudioOutput} {a : AudioOutput.Act} {x : Channel} (hcrash : x.crash = s.channel.crash)
    (hplay : x.isPlaying = s.channel.isPlaying) (hswr : x.swrContext = s.channel.swrContext) :
    AudioStep s a { s with channel := x } :=
  .other rfl rfl hcrash (Or.inl rfl) (fun h => Or.inl (hplay ▸ h)) (Or.inl hswr)

/-- A statement of `start` or `stop` sets the flag only at the beginning, and frees the resampler only when both threads are
joined. -/
theorem audioStep_of_ctl {s : AudioOutput} {a : AudioOutput.Act} {x : Channel} (h : CtlStep s.channel x)
    (hcrash : x.crash = s.channel.crash) (hstop : s.channel.ctl = .outputJoined → a = .stop) :
    AudioStep s a { s with channel := x } := by
  refine .other rfl rfl hcrash (Or.inl rfl) ?_ ?_
  · intro hp
    cases h with
    | setFlag hctl => exact Or.inr hctl
    | clearFlag _ hx => simp [hx] at hp
    | _ =>
      subst_vars
      exact Or.inl hp
  · cases h with
    | freeSwr hctl => exact Or.inr ⟨hstop hctl, hctl⟩
    | _ =>
      subst_vars
      exact Or.inl rfl

/-- A statement of `start` or `stop` does not crash. -/
theorem CtlStep.crash {c c' : Channel} (h : CtlStep c c') : c'.crash = c.crash := by
  cases h <;> subst_vars <;> rfl

/-- The audio output takes only the listed steps. -/
theorem audio_cases {s s' : AudioOutput} {a : AudioOutput.Act} (hstart : s.channel.ctl = .decodeCreated →
    s.audioPlay = .notCreated) (h : s.act a = some s') : AudioStep s a s' := by
  cases a with
  | decode ret =>
    obtain ⟨x, hx, rfl⟩ := Option.map_eq_some_iff.mp h
    obtain ⟨hk, -⟩ := decode_cases hx
    exact audioStep_of_channel hk.crash hk.isPlaying hk.swrContext
  | wakeDecode =>
    obtain ⟨x, hx, rfl⟩ := Option.map_eq_some_iff.mp h
    simp only [Channel.act, Option.ite_none_right_eq_some, Option.some.injEq] at hx
    obtain ⟨-, rfl⟩ := hx
    exact audioStep_of_channel rfl rfl rfl
  | push packet =>
    simp only [AudioOutput.act, Channel.act, Option.map_some, Option.some.injEq] at h
    subst h
    exact audioStep_of_channel rfl rfl rfl
  | initStart slResult =>
    simp only [AudioOutput.act, AudioOutput.initStart] at h
    split at h
    case h_1 call hp =>
      cases h
      refine .other ?_ rfl rfl (Or.inl rfl) Or.inl (Or.inl rfl)
      cases slResult <;> cases call <;> simp [AudioOutput.activations, hp, SlCall.next, AudioPlayPc.activation]
    case h_2 hp =>
      cases h
      exact .called [] s.callbacks (by simp [AudioOutput.activations, hp, AudioPlayPc.activation]) rfl rfl
    all_goals cases h
  | callback t samples =>
    obtain ⟨cb, hcb, ⟨hin, hs⟩ | ⟨dataSize, hpc, hs⟩ | ⟨hpc, hs⟩⟩ := AudioOutput.callback_cases h
    · exact .getPcm t samples cb rfl hcb hin hs
    · exact .enqueue t dataSize cb hcb hpc hs
    · exact .returns t cb hcb hpc hs
  | bufferFinished =>
    simp only [AudioOutput.act, AudioOutput.bufferFinished, Option.ite_none_right_eq_some, Option.some.injEq] at h
    obtain ⟨-, rfl⟩ := h
    exact .called s.activations [] (by simp) (by simp [AudioOutput.activations]) rfl
  | start =>
    simp only [AudioOutput.act] at h
    by_cases hctl : s.channel.ctl = .decodeCreated
    · simp only [AudioOutput.start, hctl, Option.some.injEq] at h
      subst h
      refine .other ?_ rfl rfl (Or.inl rfl) Or.inl (Or.inl rfl)
      simp [AudioOutput.activations, hstart hctl, AudioPlayPc.activation]
    · rw [AudioOutput.start_eq hctl] at h
      obtain ⟨x, hx, rfl⟩ := Option.map_eq_some_iff.mp h
      obtain ⟨hstep, -⟩ := start_cases hx
      refine audioStep_of_ctl hstep hstep.crash (fun hj => ?_)
      simp [Channel.start, hj] at hx
  | stop =>
    simp only [AudioOutput.act] at h
    by_cases hdj : s.channel.ctl = .decodeJoined
    · simp only [AudioOutput.stop, hdj, Option.ite_none_right_eq_some, Option.some.injEq] at h
      obtain ⟨-, rfl⟩ := h
      exact audioStep_of_channel rfl rfl rfl
    · by_cases hsf : s.channel.ctl = .swrFreed
      · simp only [AudioOutput.stop, hsf, Option.ite_none_right_eq_some, Option.some.injEq] at h
        obtain ⟨-, rfl⟩ := h
        exact .other rfl rfl rfl (Or.inr hsf) Or.inl (Or.inl rfl)
      · rw [AudioOutput.stop_eq hdj hsf] at h
        obtain ⟨x, hx, rfl⟩ := Option.map_eq_some_iff.mp h
        exact audioStep_of_ctl (stop_cases hx) (stop_cases hx).crash fun _ => rfl

namespace AudioOutput

/-- In every run the audio output takes only the listed steps. -/
theorem step_cases {s s' : AudioOutput} {a : Act} (hr : lts.Reachable s) (h : s.step a = some s') : AudioStep s a s' := by
  obtain ⟨c, hc, hs⟩ := standsFor_of_reachable hr
  refine audio_cases (fun hctl => ?_) (step_eq_some.mp h).2
  exact (hs.notCreated hc (by simp [hctl])).1

/-- Before the last statement of `start` nothing runs the callback. -/
theorem activations_of_constructed {s : AudioOutput} (hr : lts.Reachable s) (hctl : s.channel.ctl = .constructed) :
    s.activations = [] ∧ s.activated = false := by
  obtain ⟨c, hc, hs⟩ := standsFor_of_reachable hr
  obtain ⟨h1, h2, -, h4⟩ := hs.notCreated hc (by simp [hctl])
  exact ⟨by simp [activations, h1, h2, AudioPlayPc.activation], h4⟩

/-- From the first statement of `stop` to the end the flag is clear. -/
theorem isPlaying_eq {s : AudioOutput} (hr : lts.Reachable s) : s.channel.isPlaying = s.channel.ctl.isPlaying := by
  obtain ⟨c, hc, hs⟩ := standsFor_of_reachable hr
  rw [hs.channel]
  exact (phased_of_reachable hc).playing

/-- A callback that has not passed its `Enqueue` is the only such one, and no buffer is left with OpenSL; as it goes on, it
stays so. -/
theorem active_of_activation {s : AudioOutput} {t : Thread} {cb : BqCallback} (hr : lts.Reachable s)
    (hcb : s.activation t = some cb) (hb : cb.beforeEnqueue = true) : s.queued = 0 ∧
      ∀ cb', (s.setActivation t cb').active = [cb'].filter BqCallback.beforeEnqueue := by
  obtain ⟨c, -, hs⟩ := standsFor_of_reachable hr
  obtain ⟨hact, -, -, hq⟩ := hs.token.of_mem (mem_activations hcb) hb
  exact ⟨hq, (active_setActivation hact hcb hb).2⟩

/-- A thread that goes on in its callback leaves the other callbacks where they are. -/
theorem mem_setActivation {s : AudioOutput} {t : Thread} {cb cb' b : BqCallback} (hcb : s.activation t = some cb)
    (h : b ∈ (s.setActivation t cb').activations) : b ∈ s.activations ∨ b = cb' := by
  obtain ⟨l, r, hs, hset, -⟩ := activation_split hcb
  rw [hset] at h
  rw [hs]
  simp only [List.mem_append, List.mem_cons] at h ⊢
  tauto

/-- A thread that returns leaves the other callbacks where they are. -/
theorem mem_returnFrom {s : AudioOutput} {t : Thread} {cb b : BqCallback} (hcb : s.activation t = some cb)
    (h : b ∈ (s.returnFrom t).activations) : b ∈ s.activations := by
  obtain ⟨l, r, hs, -, hret⟩ := activation_split hcb
  rw [hret] at h
  rw [hs]
  simp only [List.mem_append, List.mem_cons] at h ⊢
  tauto

end AudioOutput

/-- No step of `getPcm` writes the flag or the resampler, and none gets past `Enqueue`. -/
theorem BqCallback.getPcm_keeps (c : Channel) {cb : BqCallback} (samples : Int) (hin : cb.inGetPcm = true) :
    (cb.getPcm c samples).1.isPlaying = c.isPlaying ∧ (cb.getPcm c samples).1.swrContext = c.swrContext ∧
      (cb.getPcm c samples).2.beforeEnqueue = true := by
  have hb := BqCallback.beforeEnqueue_of_inGetPcm hin
  cases BqCallback.getPcm_cases c samples hin with
  | pop pc _ hret hstep =>
    rw [hstep]
    rcases hret with ⟨-, rfl⟩ | ⟨ret, -, rfl⟩ <;> exact ⟨rfl, rfl, rfl⟩
  | nullFrame _ _ hstep =>
    rw [hstep]
    exact ⟨rfl, rfl, hb⟩
  | freedSwr _ _ _ _ hstep =>
    rw [hstep]
    exact ⟨rfl, rfl, hb⟩
  | _ =>
    rename_i hstep
    rw [hstep]
    exact ⟨rfl, rfl, rfl⟩

/-! ## Runs -/

namespace AudioOutput

/-- `start`, and `init_start` up to the callback: then a packet is pushed and decoded. -/
def playActs : List Act :=
  List.replicate 5 .start ++ List.replicate 6 (.initStart true) ++ .push ⟨0, 0, 0⟩ :: List.replicate 9 (.decode 0)

/-- One run of the callback on a thread, over in six steps when there is a frame. -/
def callbackActs (t : Thread) (samples : Int) : List Act := List.replicate 6 (.callback t samples)

/-- A replay from the constructor on is a run. -/
theorem reachable_of_replay {acts : List Act} {s : AudioOutput} (h : Lts.replay step (new 0) acts = some s) :
    lts.Reachable s :=
  Lts.replay_reachable (fun _ _ _ => id) acts (.init ⟨0, rfl⟩) h

end AudioOutput

end LibraLive

import LibraLive.Channel

/-!
# What one statement of `start` or `stop` does

The two classes switch their queues in different orders; `CtlStep` lists the statements of both, with the phases each one
leads from and to.
-/

namespace LibraLive

/-- The statements of `start` and `stop`. -/
inductive CtlStep (c c' : Channel) : Prop where
  | setFlag : c.ctl = .constructed → c' = { c with isPlaying := true, ctl := .playing } → CtlStep c c'
  | packetsGotoWork (next : CtlPc) : (c.kind = .audio ∧ c.ctl = .playing ∧ next = .working1) ∨
      (c.kind = .video ∧ c.ctl = .working1 ∧ next = .working2) → c' = { c.packetsGotoWork with ctl := next } → CtlStep c c'
  | framesGotoWork (next : CtlPc) : (c.kind = .video ∧ c.ctl = .playing ∧ next = .working1) ∨
      (c.kind = .audio ∧ c.ctl = .working1 ∧ next = .working2) → c' = { c.framesGotoWork with ctl := next } → CtlStep c c'
  | createDecode : c.ctl = .working2 → c' = { c with decode := .enter, ctl := .decodeCreated } → CtlStep c c'
  | createOutput (play : PlayPc) : c.ctl = .decodeCreated →
      c' = { c with output := .enter, play := play, ctl := .running } → CtlStep c c'
  | clearFlag : c.ctl = .running → c' = { c with isPlaying := false, ctl := .cleared } → CtlStep c c'
  | packetsBackWork (next : CtlPc) : (c.kind = .audio ∧ c.ctl = .cleared ∧ next = .back1) ∨
      (c.kind = .video ∧ c.ctl = .back1 ∧ next = .back2) → c' = { c.packetsBackWork with ctl := next } → CtlStep c c'
  | framesBackWork (next : CtlPc) : (c.kind = .video ∧ c.ctl = .cleared ∧ next = .back1) ∨
      (c.kind = .audio ∧ c.ctl = .back1 ∧ next = .back2) → c' = { c.framesBackWork with ctl := next } → CtlStep c c'
  | join (next : CtlPc) : (c.ctl = .back2 ∧ c.decode = .ended ∧ next = .decodeJoined) ∨
      (c.ctl = .decodeJoined ∧ c.outputReturned = true ∧ next = .outputJoined) ∨
      (c.ctl = .outputJoined ∧ c.kind = .video ∧ next = .stopped) → c' = { c with ctl := next } → CtlStep c c'
  | freeSwr : c.ctl = .outputJoined → c.kind = .audio → c' = { c with swrContext := false, ctl := .swrFreed } → CtlStep c c'
  | destroy : c.ctl = .swrFreed → c.callbackIdle = true → c' = { c with output := .ended, ctl := .stopped } → CtlStep c c'

/-- A step of `start` is one of its statements. -/
theorem start_cases {c c' : Channel} (h : c.act .start = some c') : CtlStep c c' ∧ c.ctl ≠ .running := by
  simp only [Channel.act, Channel.start] at h
  split at h
  case h_1 hctl =>
    cases h
    exact ⟨.setFlag hctl rfl, by simp [hctl]⟩
  case h_2 hctl =>
    cases h
    refine ⟨?_, by simp [hctl]⟩
    cases hk : c.kind with
    | audio => exact .packetsGotoWork .working1 (by simp [hk, hctl]) (by simp [Channel.gotoWork, hk])
    | video => exact .framesGotoWork .working1 (by simp [hk, hctl]) (by simp [Channel.gotoWork, hk])
  case h_3 hctl =>
    cases h
    refine ⟨?_, by simp [hctl]⟩
    cases hk : c.kind with
    | audio => exact .framesGotoWork .working2 (by simp [hk, hctl]) (by simp [Channel.gotoWork, hk])
    | video => exact .packetsGotoWork .working2 (by simp [hk, hctl]) (by simp [Channel.gotoWork, hk])
  case h_4 hctl =>
    cases h
    exact ⟨.createDecode hctl rfl, by simp [hctl]⟩
  case h_5 hctl =>
    cases h
    exact ⟨.createOutput _ hctl rfl, by simp [hctl]⟩
  case h_6 => cases h

/-- A step of `stop` is one of its statements. -/
theorem stop_cases {c c' : Channel} (h : c.act .stop = some c') : CtlStep c c' := by
  simp only [Channel.act, Channel.stop] at h
  split at h
  case h_1 hctl =>
    cases h
    exact .clearFlag hctl rfl
  case h_2 hctl =>
    cases h
    cases hk : c.kind with
    | audio => exact .packetsBackWork .back1 (by simp [hk, hctl]) (by simp [Channel.backWork, hk])
    | video => exact .framesBackWork .back1 (by simp [hk, hctl]) (by simp [Channel.backWork, hk])
  case h_3 hctl =>
    cases h
    cases hk : c.kind with
    | audio => exact .framesBackWork .back2 (by simp [hk, hctl]) (by simp [Channel.backWork, hk])
    | video => exact .packetsBackWork .back2 (by simp [hk, hctl]) (by simp [Channel.backWork, hk])
  case h_4 hctl =>
    split at h <;> cases h
    exact .join .decodeJoined (Or.inl ⟨hctl, by assumption, rfl⟩) rfl
  case h_5 hctl =>
    split at h <;> cases h
    exact .join .outputJoined (Or.inr (Or.inl ⟨hctl, by assumption, rfl⟩)) rfl
  case h_6 hctl =>
    split at h <;> cases h
    · rename_i hk
      exact .join .stopped (Or.inr (Or.inr ⟨hctl, hk, rfl⟩)) rfl
    · rename_i hk
      exact .freeSwr hctl hk rfl
  case h_7 hctl =>
    split at h <;> cases h
    exact .destroy hctl (by assumption) rfl
  case h_8 => cases h

end LibraLive

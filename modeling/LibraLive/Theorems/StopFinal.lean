import LibraLive.Lemmas.PlayerPhase
import LibraLive.Lemmas.PlayerRuns

/-!
# A stop request and a `start` under way

`NiubiPlayer::stop` clears the flag on the UI thread; `NiubiPlayer::start` sets it on the prepare thread, inside the
`onPrepare` callback, and looks at nothing first. A `stop` that falls between the callback and the body of `start` is undone:
the channels and the demux thread start after it, and `init_stop` waits for a demux thread that was never told to end. A
`stop` that falls at no such moment is final.
-/

namespace LibraLive

/-- `stop` has executed its first statement. -/
def UiPc.stopCalled : UiPc → Bool
  | .cleared | .helperZero | .stopped => true
  | .idle | .released => false

attribute [simp] UiPc.stopCalled

/-- A step that starts nothing: the flag stays clear, no channel gets its flag set or a thread created, and no demux thread is
created. -/
structure StartsNothing (s s' : Player) : Prop where
  isPlaying : s'.isPlaying = false
  demux : s.demux = .notCreated → s'.demux = .notCreated
  channel : ∀ k c', s'.channel k = some c' → c'.isPlaying = true ∨ c'.decode ≠ .notCreated ∨ c'.output ≠ .notCreated →
    ∃ c, s.channel k = some c ∧ (c'.isPlaying = true → c.isPlaying = true) ∧
      (c'.decode ≠ .notCreated → c.decode ≠ .notCreated) ∧ (c'.output ≠ .notCreated → c.output ≠ .notCreated)

/-- Once `stop` has cleared the flag, it is clear and every step starts nothing. -/
def StopFinal (s : Player) : Prop :=
  s.ui.stopCalled = true → s.isPlaying = false ∧ ∀ a s', s.step a = some s' → StartsNothing s s'

/-- `stop` clears the flag after the prepare thread has called `onPrepare` and before `start` sets it: the player goes on. -/
theorem stop_undone_by_start : ¬ ∀ streams s, (Player.lts streams).Reachable s → StopFinal s := by
  intro hall
  have hrun : ((Lts.replay Player.step (Player.prepared [.audio, .video])
      (List.replicate 2 (.prepare 0) ++ [.stop])).map fun s => (s.ui, (s.step (.prepare 0)).map Player.isPlaying)) =
      some (.cleared, some true) := rfl
  obtain ⟨s, hs, hrun⟩ := Option.map_eq_some_iff.mp hrun
  obtain ⟨hui, hplays⟩ := Prod.mk.inj hrun
  obtain ⟨s', hs', hplays⟩ := Option.map_eq_some_iff.mp hplays
  obtain ⟨-, hfinal⟩ := hall _ _ (Player.reachable_of_prepared hs) (by simp [hui])
  have hclear := (hfinal (.prepare 0) s' hs').isPlaying
  rw [hplays] at hclear
  cases hclear

/-- `stop` does not begin while the prepare thread is in `start`, and the prepare thread does not call `onPrepare` between the
first and the second statement of `stop`. -/
def StopApart (s : Player) (a : PlayerAct) : Prop :=
  (a = .stop → s.ui = .idle → ∀ pc, s.prepare ≠ .start pc) ∧
  (∀ ret, a = .prepare ret → s.prepare = .onPrepare → s.ui ≠ .cleared)

/-- What a final `stop` rests on: the flag is clear, the prepare thread is not in `start`, and it cannot get there, since the
helper pointer is null from the second statement on. -/
structure Quiet (s : Player) : Prop where
  stopped : s.ui.stopCalled = true → s.isPlaying = false ∧ ∀ pc, s.prepare ≠ .start pc
  helper : s.ui.stopCalled = true → s.ui ≠ .cleared → s.callHelper = false

namespace Quiet

open Player

variable {s s' : Player}

/-- Outside `start`, a step of the prepare thread sets no flag and creates no demux thread; it enters `start` only by
`onPrepare`, through a helper that is there. -/
theorem prepare_cases (h : PrepareStep s s') (hpc : ∀ pc, s.prepare ≠ .start pc) :
    s'.isPlaying = s.isPlaying ∧ s'.demux = s.demux ∧
      ((∀ pc, s'.prepare ≠ .start pc) ∨ s.prepare = .onPrepare ∧ s.callHelper = true) := by
  cases h with
  | scan next _ hnext =>
    refine ⟨rfl, rfl, Or.inl ?_⟩
    rcases hnext with ⟨hn, -⟩ | ⟨code, rfl⟩
    · rintro pc rfl
      cases hn
    · simp
  | report code next _ hnext =>
    refine ⟨rfl, rfl, Or.inl ?_⟩
    rcases hnext with ⟨-, rfl⟩ | ⟨-, rfl⟩ <;> simp
  | onPrepare hhelper hp => exact ⟨rfl, rfl, Or.inr ⟨hp, hhelper⟩⟩
  | makeChannel => exact ⟨by simp, by simp, Or.inl (by simp)⟩
  | nullHelper | deletedHelper => exact ⟨rfl, rfl, Or.inl hpc⟩
  | scanned | skip | accept | reported | detach => exact ⟨rfl, rfl, Or.inl (by simp)⟩
  | setPlaying hp | noVideo hp | createPlay hp | started _ hp | setAudioChannel _ _ hp | startChannel _ _ _ hp =>
    exact absurd hp (hpc _)

/-- No thread but the prepare thread sets the flag or creates the demux thread. -/
theorem isPlaying_step {a : PlayerAct} (h : PlayerStep s a s') (hp : ¬ PrepareStep s s') (hflag : s.isPlaying = false) :
    s'.isPlaying = false := by
  cases h with
  | prepare h => exact absurd h hp
  | demux h => cases h <;> simp [hflag]
  | stopper h => cases h <;> simp [hflag]
  | ui h => cases h <;> simp [hflag]
  | channel => simp [hflag]

/-- Nobody makes the helper pointer point again. -/
theorem callHelper_step {a : PlayerAct} (h : PlayerStep s a s') (hhelper : s.callHelper = false) :
    s'.callHelper = false := by
  cases h with
  | prepare h => cases h <;> simp [hhelper]
  | demux h => cases h <;> simp [hhelper]
  | stopper h => cases h <;> simp [hhelper]
  | ui h => cases h <;> simp [hhelper]
  | channel => simp [hhelper]

/-- After `stop` has begun the prepare thread is not in `start`. -/
theorem stopped_step (hs : Quiet s) {a : PlayerAct} (hP : StopApart s a) (h : PlayerStep s a s')
    (hui' : s'.ui.stopCalled = true) : s'.isPlaying = false ∧ ∀ pc, s'.prepare ≠ .start pc := by
  cases h with
  | @prepare ret _ h =>
    rw [(PlayerPhased.prepare_keeps h).2.1] at hui'
    obtain ⟨hflag, hpc⟩ := hs.stopped hui'
    obtain ⟨hplays, -, hnext⟩ := prepare_cases h hpc
    refine ⟨hplays.trans hflag, ?_⟩
    rcases hnext with hnext | ⟨hp, hhelper⟩
    · exact hnext
    · -- the callback is not called: between the two statements by the condition, after them for want of a helper
      by_cases hc : s.ui = .cleared
      · exact absurd hc (hP.2 ret rfl hp)
      · rw [hs.helper hui' hc] at hhelper
        cases hhelper
  | demux h =>
    obtain ⟨-, hui, hprep, -⟩ := PlayerPhased.demux_keeps h
    rw [hui] at hui'
    obtain ⟨hflag, hpc⟩ := hs.stopped hui'
    rw [hprep]
    exact ⟨by cases h <;> simp [hflag], hpc⟩
  | stopper h =>
    have hui : s'.ui = s.ui := by cases h <;> simp
    have hprep : s'.prepare = s.prepare := by cases h <;> simp
    rw [hui] at hui'
    obtain ⟨hflag, hpc⟩ := hs.stopped hui'
    rw [hprep]
    exact ⟨by cases h <;> simp [hflag], hpc⟩
  | ui h =>
    cases h with
    | clear hui => exact ⟨rfl, hP.1 rfl hui⟩
    | zeroHelper hui => exact hs.stopped (by simp [hui])
    | createStop hui => exact hs.stopped (by simp [hui])
    | destroy => cases hui'
  | channel => simpa using hs.stopped (by simpa using hui')

/-- Only the UI thread moves itself. -/
theorem ui_same {a : PlayerAct} (h : PlayerStep s a s') (hui : ¬ UiStep s a s') : s'.ui = s.ui := by
  cases h with
  | prepare h => exact (PlayerPhased.prepare_keeps h).2.1
  | demux h => exact (PlayerPhased.demux_keeps h).2.1
  | stopper h => cases h <;> simp
  | ui h => exact absurd h hui
  | channel => simp

/-- Every step that meets the condition keeps a begun `stop` final. -/
theorem step (hs : Quiet s) {a : PlayerAct} (hP : StopApart s a) (h : PlayerStep s a s') : Quiet s' := by
  refine ⟨hs.stopped_step hP h, ?_⟩
  intro hui' hne
  by_cases hui : UiStep s a s'
  · cases hui with
    | clear => exact absurd rfl hne
    | zeroHelper => rfl
    | createStop hpc => exact hs.helper (by simp [hpc]) (by simp [hpc])
    | destroy => cases hui'
  · rw [ui_same h hui] at hui' hne
    exact callHelper_step h (hs.helper hui' hne)

/-- A step of a channel that is no statement of `start` sets no flag and creates no thread. -/
theorem channel_starts_nothing {c c' : Channel} {b : ChannelAct} (hc : Phased c) (hb : b ≠ .start)
    (h : c.act b = some c') : (c'.isPlaying = true → c.isPlaying = true) ∧
      (c'.decode ≠ .notCreated → c.decode ≠ .notCreated) ∧ (c'.output ≠ .notCreated → c.output ≠ .notCreated) := by
  have hc' : Phased c' := hc.step h
  rw [hc'.playing, hc'.decode, hc'.output, hc.playing, hc.decode, hc.output]
  by_cases hstop : b = .stop
  · subst hstop
    obtain ⟨hst, -, hflag⟩ := Channel.act_stop_ctl h
    rw [hflag]
    refine ⟨by simp, fun _ => ?_, fun _ => ?_⟩ <;> cases hctl : c.ctl <;> simp [hctl] at hst ⊢
  · rw [Channel.act_ctl ⟨hb, hstop⟩ h]
    exact ⟨id, id, id⟩

/-- While the prepare thread is not in `start`, a step starts nothing. -/
theorem startsNothing (hph : PlayerPhased s) (hch : ∀ k c, s.channel k = some c → Phased c) (hflag : s.isPlaying = false)
    (hpc : ∀ pc, s.prepare ≠ .start pc) {a : PlayerAct} (h : PlayerStep s a s') : StartsNothing s s' := by
  refine ⟨?_, ?_, ?_⟩
  · by_cases hp : PrepareStep s s'
    · exact (prepare_cases hp hpc).1.trans hflag
    · exact isPlaying_step h hp hflag
  · intro hd
    cases h with
    | prepare h => exact (prepare_cases h hpc).2.1.trans hd
    | demux h => exact absurd hd (hph.demux_joined h).1
    | stopper h => cases h <;> simpa using hd
    | ui h => cases h <;> exact hd
    | channel => simpa using hd
  · intro k c' hc' hstarted
    rcases channel_change h hc' with hc | ⟨i, -, -, rfl⟩ | ⟨c, b, hc, hact, hcall⟩
    · exact ⟨c', hc, id, id, id⟩
    · rcases hstarted with h | h | h
      · cases h
      · exact absurd rfl h
      · exact absurd rfl h
    · refine ⟨c, hc, channel_starts_nothing (hch k c hc) ?_ hact⟩
      rintro rfl
      exact hpc _ hcall

end Quiet

/-- In every run in which no `stop` begins while the prepare thread is in `start` and `onPrepare` is not called between the
first two statements of `stop`, a stop request is final. -/
theorem stop_final {streams : List AVMediaType} {s : Player} (h : ((Player.lts streams).restrict StopApart).Reachable s) :
    StopFinal s := by
  have hquiet : Quiet s := by
    refine Lts.Reachable.restrict_invariant ?_ ?_ h
    · rintro s rfl
      exact ⟨by simp [Player.new], by simp [Player.new]⟩
    · intro s a s' _ hP hs hstep
      obtain ⟨-, -, hstep⟩ := Player.step_cases hstep
      exact hs.step hP hstep
  intro hui
  obtain ⟨hflag, hpc⟩ := hquiet.stopped hui
  refine ⟨hflag, ?_⟩
  intro a s' hstep
  obtain ⟨-, -, hstep⟩ := Player.step_cases hstep
  have hr := h.of_restrict
  refine Quiet.startsNothing (playerPhased_of_reachable hr) ?_ hflag hpc hstep
  intro k c hc
  exact phased_of_reachable ((Player.component streams k).reachable hr c hc)

/-- A `stop` called while the streams are being looked at, before the verdict of the scan. -/
theorem stop_final_in_scan : ∃ s, ((Player.lts [.audio, .video]).restrict StopApart).Reachable s ∧
    s.ui.stopCalled = true ∧ StopFinal s := by
  have hp : ((Player.lts [.audio, .video]).restrict StopApart).Reachable (Player.prepared [.audio, .video]) := by
    refine Player.prepared_reachable ?_
    intro s ret hui
    refine ⟨by simp, ?_⟩
    intro ret' _ _ hc
    rw [hui] at hc
    cases hc
  have hapart : StopApart (Player.prepared [.audio, .video]) .stop := by
    refine ⟨?_, by simp⟩
    intro _ _ pc hpc
    cases hpc
  have hr : ((Player.lts [.audio, .video]).restrict StopApart).Reachable
      { Player.prepared [.audio, .video] with isPlaying := false, ui := .cleared } := hp.step (a := .stop) ⟨hapart, rfl⟩
  exact ⟨_, hr, rfl, stop_final hr⟩

end LibraLive

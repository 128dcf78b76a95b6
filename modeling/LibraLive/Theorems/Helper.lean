import LibraLive.Lemmas.PlayerPhase
import LibraLive.Lemmas.PlayerRuns

/-!
# Who deletes the `JavaCallHelper`

`init_stop` and the destructor both delete what `callHelper` points to and set it to null, so whichever comes first would
delete the helper and the other nothing. But `stop` itself sets the pointer to null before it creates the stop thread: after
it, neither finds anything to delete. Every life in which `stop` is called leaks the helper (`helper_leaked`).
-/

namespace LibraLive

/-- The life of a player to the end of `stop` and the destructor is over. -/
def Player.lifeOver (s : Player) : Prop := s.ui = .released ∧ s.stopper = .ended

/-- The helper pointer was not used while null, the helper was not used after it was deleted, and when the life of the player
is over it has been deleted once. -/
structure HelperOwned (s : Player) : Prop where
  notNull : s.fault ≠ some .nullHelper
  notDeleted : s.fault ≠ some .deletedHelper
  deletedOnce : s.lifeOver → s.helperDeletes = 1

/-- A source cannot be opened: the error is reported, `stop` and the destructor are called, and the helper is never deleted. -/
theorem helper_leaked_after_error : ¬ ∀ streams s, (Player.lts streams).Reachable s → HelperOwned s := by
  intro hall
  have hrun : (Lts.replay Player.step (Player.new []) (PlayerAct.prepare AVERROR_EINVAL :: List.replicate 2 (PlayerAct.prepare 0) ++
      List.replicate 3 PlayerAct.stop ++ List.replicate 6 PlayerAct.stopper ++ [PlayerAct.destroy])).map
      (fun s => (s.ui, s.stopper, s.helperDeletes)) = some (.released, .ended, 0) := rfl
  obtain ⟨s, hs, hrun⟩ := Option.map_eq_some_iff.mp hrun
  obtain ⟨hui, hrun⟩ := Prod.mk.inj hrun
  obtain ⟨hstopper, hdeletes⟩ := Prod.mk.inj hrun
  have hr : (Player.lts []).Reachable s := Lts.replay_reachable (fun _ _ _ => id) _ (.init rfl) hs
  have honce := (hall _ _ hr).deletedOnce ⟨hui, hstopper⟩
  rw [hdeletes] at honce
  cases honce

/-- Nothing has deleted the helper before the destructor, and after the second statement of `stop` nothing points to it. -/
structure HelperKept (s : Player) : Prop where
  before : s.ui ≠ .released → s.helperDeletes = 0
  after : s.ui = .helperZero ∨ s.stopper ≠ .notCreated → s.callHelper = false ∧ s.helperDeletes = 0

namespace HelperKept

open Player

variable {s s' : Player}

/-- Only the UI and the stop thread touch the pointer or delete the helper. -/
theorem of_same (hs : HelperKept s) (hui : s'.ui = s.ui) (hstopper : s'.stopper = s.stopper)
    (hhelper : s'.callHelper = s.callHelper) (hdeletes : s'.helperDeletes = s.helperDeletes) : HelperKept s' := by
  refine ⟨?_, ?_⟩
  · rw [hui, hdeletes]
    exact hs.before
  · rw [hui, hstopper, hhelper, hdeletes]
    exact hs.after

/-- The stop thread finds a null pointer when it comes to delete the helper. -/
theorem stopper_step (hs : HelperKept s) (h : StopperStep s s') : HelperKept s' := by
  have hne : s.stopper ≠ .notCreated := by
    cases h with
    | deleteChannel k hpc => cases k <;> simp [hpc, Kind.deletePc]
    | joinPrepare hpc | joinPlay hpc | deleteHelper hpc | closeFormat hpc => simp [hpc]
  obtain ⟨hnull, hzero⟩ := hs.after (Or.inr hne)
  have hnull' : s'.callHelper = false := by cases h <;> simp [hnull]
  have hzero' : s'.helperDeletes = 0 := by cases h <;> simp [hnull, hzero]
  exact ⟨fun _ => hzero', fun _ => ⟨hnull', hzero'⟩⟩

/-- So does the destructor, if `stop` was called. -/
theorem ui_step (hs : HelperKept s) {a : PlayerAct} (h : UiStep s a s') : HelperKept s' := by
  cases h with
  | clear hui =>
    have hzero := hs.before (by simp [hui])
    refine ⟨fun _ => hzero, ?_⟩
    rintro (hz | hcreated)
    · cases hz
    · exact hs.after (Or.inr hcreated)
  | zeroHelper hui =>
    have hzero := hs.before (by simp [hui])
    exact ⟨fun _ => hzero, fun _ => ⟨rfl, hzero⟩⟩
  | createStop hui =>
    have hafter := hs.after (Or.inl hui)
    exact ⟨fun _ => hafter.2, fun _ => hafter⟩
  | destroy hui =>
    refine ⟨fun hne => absurd rfl hne, ?_⟩
    rintro (hz | hcreated)
    · cases hz
    · obtain ⟨hnull, hzero⟩ := hs.after (Or.inr hcreated)
      exact ⟨rfl, by simp [hnull, hzero]⟩

/-- Every step keeps it so. -/
theorem step (hs : HelperKept s) {a : PlayerAct} (h : PlayerStep s a s') : HelperKept s' := by
  cases h with
  | prepare h =>
    obtain ⟨hstopper, hui, -⟩ := PlayerPhased.prepare_keeps h
    exact hs.of_same hui hstopper (by cases h <;> simp) (by cases h <;> simp)
  | demux h =>
    obtain ⟨hstopper, hui, -⟩ := PlayerPhased.demux_keeps h
    exact hs.of_same hui hstopper (by cases h <;> simp) (by cases h <;> simp)
  | stopper h => exact hs.stopper_step h
  | ui h => exact hs.ui_step h
  | channel => exact hs.of_same (by simp) (by simp) (by simp) (by simp)

end HelperKept

/-- Once `stop` has executed its second statement, nothing points to the helper and nothing has deleted it. -/
theorem helper_kept {streams : List AVMediaType} {s : Player} (h : (Player.lts streams).Reachable s) : HelperKept s := by
  refine Lts.Reachable.invariant ?_ ?_ h
  · rintro s rfl
    exact ⟨fun _ => rfl, fun hafter => absurd hafter (by simp [Player.new])⟩
  · intro s a s' _ hs hstep
    obtain ⟨-, -, hstep⟩ := Player.step_cases hstep
    exact hs.step hstep

/-- In no run, whatever the FFmpeg calls return and however the threads interleave, has the helper been deleted once when the
life of the player, with its `stop` and its destructor, is over: it has never been deleted. -/
theorem helper_leaked {streams : List AVMediaType} {s : Player} (h : (Player.lts streams).Reachable s)
    (hover : s.lifeOver) : s.helperDeletes = 0 ∧ ¬ HelperOwned s := by
  obtain ⟨-, hended⟩ := id hover
  obtain ⟨-, hzero⟩ := (helper_kept h).after (Or.inr (by simp [hended]))
  refine ⟨hzero, ?_⟩
  intro howned
  have honce := howned.deletedOnce hover
  rw [hzero] at honce
  cases honce

/-- The life of a player after the scan whose source has no packets: `start`, the end of the file, the two channels that
stop, then `stop` and the destructor. -/
def playedActs : List PlayerAct :=
  Player.startActs ++ List.replicate 3 (PlayerAct.demux 0 0 0) ++ [PlayerAct.demux AVERROR_EOF 0 0] ++
  List.replicate 8 (PlayerAct.demux 0 0 0) ++ List.replicate 3 (PlayerAct.channel .video (.decode 0)) ++
  List.replicate 3 (PlayerAct.channel .video (.output ⟨.eq, 0, true⟩)) ++ List.replicate 7 (PlayerAct.demux 0 0 0) ++
  List.replicate 3 (PlayerAct.channel .audio (.decode 0)) ++
  List.replicate 4 (PlayerAct.channel .audio (.output ⟨.eq, 0, true⟩)) ++
  [PlayerAct.channel .audio .playReturn] ++ List.replicate 5 (PlayerAct.demux 0 0 0) ++
  List.replicate 3 PlayerAct.stop ++ List.replicate 6 PlayerAct.stopper ++ [PlayerAct.destroy]

/-- A source played to its end. -/
theorem helper_leaked_after_playing : ∃ s, (Player.lts [.audio, .video]).Reachable s ∧ s.lifeOver ∧
    s.helperDeletes = 0 ∧ ¬ HelperOwned s := by
  have hrun : (Lts.replay Player.step (Player.prepared [.audio, .video]) playedActs).map
      (fun s => (s.ui, s.stopper)) = some (.released, .ended) := by decide +kernel
  obtain ⟨s, hs, hrun⟩ := Option.map_eq_some_iff.mp hrun
  obtain ⟨hui, hstopper⟩ := Prod.mk.inj hrun
  have hr := Player.reachable_of_prepared hs
  exact ⟨s, hr, ⟨hui, hstopper⟩, helper_leaked hr ⟨hui, hstopper⟩⟩

end LibraLive

import Mathlib.Data.List.Induction
import LibraLive.Window

/-!
# One window for all players

There is one window in the process, so an object's output is not its own: the window is the one that any object installed
last, `native_release` of any object drops it, and every player draws into it. From its `surfaceChanged` on the window is the
object's as long as no other one sets a surface, none is released and no lock fails.
-/

namespace LibraLive

/-- Players would not touch each other's output: a release drops no window of another object that is not released,
and a frame is drawn into the rendering object's own window. -/
structure OutputSeparate (ops : List WindowOp) : Prop where
  release : ∀ before after object window, ops = before ++ .call object .release :: after →
    (Screen.run before).window = some window → window.object ≠ object → .call window.object .release ∉ before →
    ((Screen.run before).step (.call object .release)).window = some window
  draw : ∀ object window, (object, window) ∈ (Screen.run ops).drawn → window.object = object

/-- It fails when the activity of object 0 is destroyed after that of object 1 has come to the foreground. -/
theorem output_not_separate : ¬ ∀ ops, OutputSeparate ops := by
  intro hall
  have hrelease := (hall [.call 0 .prepare, .surfaceChanged 0, .call 1 .prepare, .surfaceChanged 1, .call 0 .stop,
    .call 0 .release]).release [.call 0 .prepare, .surfaceChanged 0, .call 1 .prepare, .surfaceChanged 1, .call 0 .stop]
    [] 0 ⟨1, 1⟩ rfl rfl (by decide) (by decide)
  cases hrelease

namespace WindowOp

/-- The operation neither installs a window nor drops one. -/
def keeps : WindowOp → Bool
  | .call _ method => method ≠ .release
  | .surfaceChanged _ => false
  | .renderFrame _ lock => lock = 0

/-- The operation leaves an object the window: it drops none, and installs none of another object. -/
def spares (object : Nat) : WindowOp → Bool
  | .call _ method => method ≠ .release
  | .surfaceChanged other => other = object
  | .renderFrame _ lock => lock = 0

/-- The operation is a `surfaceChanged`. -/
def sets : WindowOp → Bool
  | .surfaceChanged _ => true
  | _ => false

end WindowOp

/-- The window that was installed last, by any object, and not dropped since; its serial counts the ones before. -/
def Installed (ops : List WindowOp) (window : ANativeWindow) : Prop :=
  ∃ before after, ops = before ++ .surfaceChanged window.object :: after ∧ window.serial = before.countP WindowOp.sets ∧
    ∀ op ∈ after, op.keeps = true

/-! ## The window after a run -/

/-- Nothing is installed before the first operation. -/
theorem not_installed_nil (window : ANativeWindow) : ¬ Installed [] window := by
  rintro ⟨before, after, h, -, -⟩
  simp at h

/-- What is installed after one more operation. -/
theorem installed_snoc (ops : List WindowOp) (op : WindowOp) (window : ANativeWindow) :
    Installed (ops ++ [op]) window ↔
      (op = .surfaceChanged window.object ∧ window.serial = ops.countP WindowOp.sets) ∨
      (op.keeps = true ∧ Installed ops window) := by
  constructor
  · rintro ⟨before, after, hops, hserial, hkeeps⟩
    rcases Lts.snoc_cases hops with ⟨rfl, hop, -⟩ | ⟨rest, rfl, rfl⟩
    · exact Or.inl ⟨hop.symm, hserial⟩
    · exact Or.inr ⟨hkeeps op (by simp), before, rest, rfl, hserial, fun o ho => hkeeps o (by simp [ho])⟩
  · rintro (⟨rfl, hserial⟩ | ⟨hop, before, after, rfl, hserial, hkeeps⟩)
    · exact ⟨ops, [], rfl, hserial, by simp⟩
    · refine ⟨before, after ++ [op], by simp, hserial, fun o ho => ?_⟩
      rcases List.mem_append.mp ho with ho | ho
      · exact hkeeps o ho
      · rwa [List.mem_singleton.mp ho]

namespace Screen

/-- Every `native_setSurface` acquires one window. -/
theorem acquired_length (ops : List WindowOp) : (run ops).acquired.length = ops.countP WindowOp.sets := by
  induction ops using List.reverseRecOn with
  | nil => rfl
  | append_singleton ops op ih =>
    rw [run_snoc, List.countP_append, ← ih]
    unfold step
    split
    · simp [releaseWindow, WindowOp.sets]
    · simp [WindowOp.sets]
    · simp [setSurface, WindowOp.sets]
    · unfold renderFrameCallBack releaseWindow
      split
      · simp [WindowOp.sets]
      · split <;> simp [WindowOp.sets]

/-- What an operation does to the window. -/
theorem step_window (s : Screen) (op : WindowOp) (window : ANativeWindow) :
    (s.step op).window = some window ↔
      (op = .surfaceChanged window.object ∧ window.serial = s.acquired.length) ∨
      (op.keeps = true ∧ s.window = some window) := by
  unfold step
  split
  · simp [releaseWindow, WindowOp.keeps]
  · simp_all [WindowOp.keeps]
  · obtain ⟨object, serial⟩ := window
    simp [setSurface, WindowOp.keeps, eq_comm]
  · unfold renderFrameCallBack releaseWindow
    split
    · simp_all
    · split <;> simp_all [WindowOp.keeps]

/-- The window after a run is the one that is installed. -/
theorem window_iff (ops : List WindowOp) (window : ANativeWindow) :
    (run ops).window = some window ↔ Installed ops window := by
  induction ops using List.reverseRecOn with
  | nil => simp [new, not_installed_nil]
  | append_singleton ops op ih => rw [run_snoc, step_window, installed_snoc, acquired_length, ih]

/-- What an operation draws. -/
theorem step_drawn (s : Screen) (op : WindowOp) :
    (s.step op).drawn = s.drawn ∨
      ∃ object window, op = .renderFrame object 0 ∧ s.window = some window ∧
        (s.step op).drawn = s.drawn ++ [(object, window)] := by
  unfold step
  split
  · exact Or.inl rfl
  · exact Or.inl rfl
  · exact Or.inl rfl
  · rename_i object lock
    unfold renderFrameCallBack
    split
    · exact Or.inl rfl
    · rename_i window hwindow
      split
      · exact Or.inl rfl
      · rename_i hlock
        exact Or.inr ⟨object, window, by rw [not_not.mp hlock], hwindow, rfl⟩

/-- Every frame that was drawn went into the window that was installed then. -/
theorem drawn_installed (ops : List WindowOp) (object : Nat) (window : ANativeWindow)
    (hdrawn : (object, window) ∈ (run ops).drawn) :
    ∃ before after, ops = before ++ .renderFrame object 0 :: after ∧ Installed before window := by
  induction ops using List.reverseRecOn with
  | nil => cases hdrawn
  | append_singleton ops op ih =>
    rw [run_snoc] at hdrawn
    rcases step_drawn (run ops) op with hsame | ⟨o, w, rfl, hwindow, hmore⟩
    · obtain ⟨before, after, rfl, hinstalled⟩ := ih (hsame ▸ hdrawn)
      exact ⟨before, after ++ [op], by simp, hinstalled⟩
    · rw [hmore, List.mem_append, List.mem_singleton, Prod.mk.injEq] at hdrawn
      rcases hdrawn with hdrawn | ⟨rfl, rfl⟩
      · obtain ⟨before, after, rfl, hinstalled⟩ := ih hdrawn
        exact ⟨before, after ++ [.renderFrame o 0], by simp, hinstalled⟩
      · exact ⟨ops, [], rfl, (window_iff ops window).mp hwindow⟩

/-- What was drawn stays on the record. -/
theorem drawn_kept (before after : List WindowOp) : (run before).drawn <+: (run (before ++ after)).drawn := by
  induction after using List.reverseRecOn with
  | nil => simp
  | append_singleton after op ih =>
    rw [← List.append_assoc, run_snoc]
    rcases step_drawn (run (before ++ after)) op with hsame | ⟨_, _, _, _, hmore⟩
    · rwa [hsame]
    · rw [hmore]
      exact ih.trans (List.prefix_append _ _)

/-- A frame whose lock succeeds while a window is installed is drawn into it. -/
theorem drawn_of_installed (before after : List WindowOp) (object : Nat) (window : ANativeWindow)
    (hinstalled : Installed before window) : (object, window) ∈ (run (before ++ .renderFrame object 0 :: after)).drawn := by
  have hwindow : (run before).window = some window := (window_iff before window).mpr hinstalled
  have hdrawn : (object, window) ∈ (run (before ++ [.renderFrame object 0])).drawn := by
    simp [step, renderFrameCallBack, hwindow]
  have hkept := drawn_kept (before ++ [.renderFrame object 0]) after
  rw [List.append_assoc] at hkept
  exact hkept.subset hdrawn

/-- An operation that spares an object leaves it the window, and draws into that one only. -/
theorem step_spares (s : Screen) (op : WindowOp) (object : Nat) (hspares : op.spares object = true)
    (hwindow : ∃ window, s.window = some window ∧ window.object = object) :
    (∃ window, (s.step op).window = some window ∧ window.object = object) ∧
      ∃ frames, (s.step op).drawn = s.drawn ++ frames ∧ ∀ frame ∈ frames, frame.2.object = object := by
  obtain ⟨window, hwindow, howner⟩ := hwindow
  constructor
  · cases op with
    | call _ method => exact ⟨window, (step_window s _ window).mpr (Or.inr ⟨hspares, hwindow⟩), howner⟩
    | surfaceChanged other =>
      have hother : other = object := by simpa [WindowOp.spares] using hspares
      exact ⟨⟨other, s.acquired.length⟩, (step_window s _ _).mpr (Or.inl ⟨rfl, rfl⟩), hother⟩
    | renderFrame _ lock => exact ⟨window, (step_window s _ window).mpr (Or.inr ⟨hspares, hwindow⟩), howner⟩
  · rcases step_drawn s op with hsame | ⟨player, w, -, hw, hmore⟩
    · exact ⟨[], by rw [hsame, List.append_nil], by simp⟩
    · rw [hwindow, Option.some.injEq] at hw
      exact ⟨[(player, w)], hmore, by simp [← hw, howner]⟩

/-- From its `surfaceChanged` on an object has the window, and everything is drawn into it, while the operations spare it. -/
theorem spared_run (before after : List WindowOp) (object : Nat) (hspares : ∀ op ∈ after, op.spares object = true) :
    (∃ window, (run (before ++ .surfaceChanged object :: after)).window = some window ∧ window.object = object) ∧
      ∃ frames, (run (before ++ .surfaceChanged object :: after)).drawn = (run before).drawn ++ frames ∧
        ∀ frame ∈ frames, frame.2.object = object := by
  induction after using List.reverseRecOn with
  | nil =>
    rw [run_snoc]
    exact ⟨⟨⟨object, _⟩, rfl, rfl⟩, [], (List.append_nil _).symm, by simp⟩
  | append_singleton after op ih =>
    obtain ⟨hwindow, frames, hframes, howner⟩ := ih fun o ho => hspares o (by simp [ho])
    obtain ⟨hwindow', more, hmore, howner'⟩ := step_spares _ op object (hspares op (by simp)) hwindow
    rw [← List.cons_append, ← List.append_assoc, run_snoc]
    refine ⟨hwindow', frames ++ more, by rw [hmore, hframes, List.append_assoc], fun frame hframe => ?_⟩
    exact (List.mem_append.mp hframe).elim (howner frame) (howner' frame)

end Screen

/-! ## What the players share -/

/-- What holds of the output instead: the window is the installed one and `native_release` of any object drops it; frames are
drawn into the window installed then; an object that the operations since its `surfaceChanged` spare has the window, and all
that was drawn since is in it. -/
structure OutputShared (ops : List WindowOp) : Prop where
  current : ∀ window, (Screen.run ops).window = some window ↔ Installed ops window
  release : ∀ object, ((Screen.run ops).step (.call object .release)).window = none
  draw : ∀ object window, (object, window) ∈ (Screen.run ops).drawn ↔
    ∃ before after, ops = before ++ .renderFrame object 0 :: after ∧ Installed before window
  spared : ∀ before after object, ops = before ++ .surfaceChanged object :: after →
    (∀ op ∈ after, op.spares object = true) →
      (∃ window, (Screen.run ops).window = some window ∧ window.object = object) ∧
        ∃ frames, (Screen.run ops).drawn = (Screen.run before).drawn ++ frames ∧ ∀ frame ∈ frames, frame.2.object = object

/-- After every sequence of operations on any number of objects. -/
theorem output_shared (ops : List WindowOp) : OutputShared ops where
  current := Screen.window_iff ops
  release _ := rfl
  draw object window := by
    constructor
    · exact Screen.drawn_installed ops object window
    · rintro ⟨before, after, rfl, hinstalled⟩
      exact Screen.drawn_of_installed before after object window hinstalled
  spared := by
    rintro before after object rfl hspares
    exact Screen.spared_run before after object hspares

end LibraLive

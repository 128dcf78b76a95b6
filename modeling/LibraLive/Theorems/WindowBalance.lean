import LibraLive.Lts
import LibraLive.WindowThreads

/-!
# The reference to the window is balanced

The mutex makes each function one operation of `Screen`: whoever has it finds the global data as a run of whole operations left
them, and leaves them so (`Midway`, `operations`). In a critical section the window is held from `ANativeWindow_fromSurface` to
`ANativeWindow_release`, and cleared right after that, so what is passed to a function is always held.
-/

namespace LibraLive

/-! ## Inside a function -/

/-- The operation of `Screen` that a function is. -/
def WindowFunction.op : WindowFunction → WindowOp
  | .native_setSurface object => .surfaceChanged object
  | .native_release object => .call object .release
  | .renderFrameCallBack object lock => .renderFrame object lock

/-- The function drops a window that it finds. -/
def WindowFunction.drops : WindowFunction → Bool
  | .native_setSurface _ | .native_release _ => true
  | .renderFrameCallBack _ lock => lock ≠ 0

/-- The global data in the middle of a function that found `t`. -/
inductive Midway (t : Screen) : WindowFunction → WindowPc → Screen → Prop where
  | testWindow (f : WindowFunction) : Midway t f .testWindow t
  | releaseWindow (f : WindowFunction) : t.window ≠ none → f.drops = true → Midway t f .releaseWindow t
  | clearWindow (f : WindowFunction) : t.window ≠ none → f.drops = true →
      Midway t f .clearWindow { t with released := t.released ++ t.window.toList }
  | fromSurface (object : Nat) : Midway t (.native_setSurface object) .fromSurface t.releaseWindow
  | getSize (object : Nat) : Midway t (.native_setSurface object) .getSize (t.setSurface object)
  | setGeometry (object : Nat) (lock : Int) : t.window ≠ none → Midway t (.renderFrameCallBack object lock) .setGeometry t
  | lockWindow (object : Nat) (lock : Int) : t.window ≠ none → Midway t (.renderFrameCallBack object lock) .lockWindow t
  | draw (object : Nat) : t.window ≠ none → Midway t (.renderFrameCallBack object 0) .draw t
  | unlock (f : WindowFunction) : Midway t f .unlock (t.step f.op)

variable {t s s' : Screen} {f : WindowFunction} {pc pc' : WindowPc}

theorem Screen.releaseWindow_of_none (h : t.window = none) : t.releaseWindow = t := by
  obtain ⟨window, acquired, released, drawn⟩ := t
  cases h
  simp [Screen.releaseWindow]

/-- What a function that drops the window leaves, when it does nothing else. -/
theorem WindowFunction.step_of_drops (h : f.drops = true) (hne : t.window ≠ none) :
    Midway t f f.afterClear t.releaseWindow := by
  cases f with
  | native_setSurface object => exact .fromSurface object
  | native_release object => exact .unlock (.native_release object)
  | renderFrameCallBack object lock =>
    obtain ⟨window, hwindow⟩ := Option.ne_none_iff_exists'.mp hne
    have hstep : t.step (WindowFunction.renderFrameCallBack object lock).op = t.releaseWindow := by
      simp only [WindowFunction.drops, ne_eq, decide_not, Bool.not_eq_eq_eq_not, Bool.not_true, decide_eq_false_iff_not] at h
      simp [WindowFunction.op, Screen.step, Screen.renderFrameCallBack, hwindow, h]
    exact hstep ▸ .unlock (.renderFrameCallBack object lock)

/-- A statement leads from one point of the function to another. -/
theorem Midway.statement (h : Midway t f pc s) (hs : f.statement s pc = some (pc', s')) : Midway t f pc' s' := by
  cases h with
  | testWindow =>
    cases hs
    unfold WindowFunction.afterTest
    cases hw : t.window with
    | none =>
      cases f with
      | native_setSurface object => simpa [Screen.releaseWindow_of_none hw] using Midway.fromSurface (t := t) object
      | native_release object =>
        have hstep : t.step (WindowFunction.native_release object).op = t := Screen.releaseWindow_of_none hw
        simpa [hstep] using Midway.unlock (t := t) (.native_release object)
      | renderFrameCallBack object lock =>
        have hstep : t.step (WindowFunction.renderFrameCallBack object lock).op = t := by
          simp [WindowFunction.op, Screen.step, Screen.renderFrameCallBack, hw]
        simpa [hstep] using Midway.unlock (t := t) (.renderFrameCallBack object lock)
    | some window =>
      cases f with
      | native_setSurface object => exact .releaseWindow _ (by simp [hw]) rfl
      | native_release object => exact .releaseWindow _ (by simp [hw]) rfl
      | renderFrameCallBack object lock => exact .setGeometry object lock (by simp [hw])
  | releaseWindow _ hne hdrops =>
    cases hs
    exact .clearWindow f hne hdrops
  | clearWindow _ hne hdrops =>
    cases hs
    exact WindowFunction.step_of_drops hdrops hne
  | fromSurface object =>
    cases hs
    exact .getSize object
  | getSize object =>
    cases hs
    exact .unlock (.native_setSurface object)
  | setGeometry object lock hne =>
    cases hs
    exact .lockWindow object lock hne
  | lockWindow object lock hne =>
    cases hs
    by_cases hlock : lock = 0
    · subst hlock
      exact .draw object hne
    · rw [if_pos hlock]
      exact .releaseWindow _ hne (by simp [WindowFunction.drops, hlock])
  | draw object hne =>
    cases hs
    obtain ⟨window, hwindow⟩ := Option.ne_none_iff_exists'.mp hne
    have hstep : t.step (WindowFunction.renderFrameCallBack object 0).op =
        { t with drawn := t.drawn ++ t.window.toList.map (object, ·) } := by
      simp [WindowFunction.op, Screen.step, Screen.renderFrameCallBack, hwindow]
    exact hstep ▸ .unlock (.renderFrameCallBack object 0)
  | unlock => cases hs

theorem Midway.screen_of_unlock (h : Midway t f .unlock s) : s = t.step f.op := by
  cases h
  rfl

/-- The reference the process holds: what is in `window`, but not while it is about to be cleared. -/
def heldAt (pc : WindowPc) (s : Screen) : List ANativeWindow := if pc = .clearWindow then [] else s.window.toList

theorem heldAt_of_ne (h : pc ≠ .clearWindow) : heldAt pc s = s.window.toList := if_neg h

theorem WindowFunction.afterTest_ne (window : Option ANativeWindow) : f.afterTest window ≠ .clearWindow := by
  unfold WindowFunction.afterTest
  cases f <;> dsimp only <;> split <;> simp

theorem WindowFunction.afterClear_ne : f.afterClear ≠ .clearWindow := by
  cases f <;> simp [WindowFunction.afterClear]

/-- A statement uses what is held, and leaves what is held then. -/
theorem Midway.owns (h : Midway t f pc s) (hs : f.statement s pc = some (pc', s')) :
    Ownership.run (heldAt pc s) (WindowCall.events s ⟨f, pc⟩) = some (heldAt pc' s') := by
  cases h with
  | testWindow =>
    cases hs
    rw [heldAt_of_ne (WindowFunction.afterTest_ne _)]
    rfl
  | releaseWindow _ hne _ =>
    cases hs
    obtain ⟨window, hwindow⟩ := Option.ne_none_iff_exists'.mp hne
    simp [heldAt, WindowCall.events, hwindow, Ownership.step]
  | clearWindow =>
    cases hs
    rw [heldAt_of_ne WindowFunction.afterClear_ne]
    rfl
  | fromSurface object =>
    cases hs
    rfl
  | getSize object =>
    cases hs
    simp [heldAt, WindowCall.events, Screen.setSurface, Ownership.step]
  | setGeometry _ _ hne | draw _ hne =>
    cases hs
    obtain ⟨window, hwindow⟩ := Option.ne_none_iff_exists'.mp hne
    simp [heldAt, WindowCall.events, hwindow, Ownership.step]
  | lockWindow _ lock hne =>
    cases hs
    obtain ⟨window, hwindow⟩ := Option.ne_none_iff_exists'.mp hne
    have hnext : (if lock ≠ 0 then WindowPc.releaseWindow else .draw) ≠ .clearWindow := by split <;> simp
    rw [heldAt_of_ne hnext]
    simp [heldAt, WindowCall.events, hwindow, Ownership.step]
  | unlock => cases hs

/-- A statement acquires one reference, under the next serial, or none. -/
theorem Midway.acquires (h : Midway t f pc s) (hs : f.statement s pc = some (pc', s')) :
    (∃ object, Ownership.acquisitions (WindowCall.events s ⟨f, pc⟩) = [⟨object, s.acquired.length⟩] ∧
        s'.acquired.length = s.acquired.length + 1) ∨
      Ownership.acquisitions (WindowCall.events s ⟨f, pc⟩) = [] ∧ s'.acquired = s.acquired := by
  cases h with
  | fromSurface object =>
    cases hs
    exact Or.inl ⟨object, rfl, by simp⟩
  | releaseWindow _ hne _ | setGeometry _ _ hne | lockWindow _ _ hne | draw _ hne =>
    cases hs
    obtain ⟨window, hwindow⟩ := Option.ne_none_iff_exists'.mp hne
    exact Or.inr ⟨by simp [WindowCall.events, Ownership.acquisitions, hwindow], rfl⟩
  | testWindow | clearWindow | getSize =>
    cases hs
    exact Or.inr ⟨rfl, rfl⟩
  | unlock => cases hs

/-- The statements that a call may still execute before it unlocks. -/
def WindowPc.toUnlock : WindowPc → Nat
  | .testWindow => 7
  | .setGeometry => 6
  | .lockWindow => 5
  | .releaseWindow => 4
  | .clearWindow => 3
  | .fromSurface => 2
  | .getSize | .draw => 1
  | .unlock | .lock | .returned => 0

theorem WindowPc.toUnlock_lt (pc : WindowPc) : pc.toUnlock < 8 := by
  cases pc <;> simp [WindowPc.toUnlock]

/-- Nothing stops a function before it unlocks. -/
theorem Midway.continues (h : Midway t f pc s) (hne : pc ≠ .unlock) :
    ∃ next, f.statement s pc = some next ∧ next.1.toUnlock < pc.toUnlock := by
  cases h with
  | testWindow =>
    refine ⟨_, rfl, ?_⟩
    unfold WindowFunction.afterTest
    cases f <;> dsimp only <;> split <;> simp [WindowPc.toUnlock]
  | clearWindow =>
    refine ⟨_, rfl, ?_⟩
    cases f <;> simp [WindowFunction.afterClear, WindowPc.toUnlock]
  | lockWindow _ lock _ =>
    refine ⟨_, rfl, ?_⟩
    dsimp only
    split <;> simp [WindowPc.toUnlock]
  | releaseWindow | fromSurface | getSize | setGeometry | draw => exact ⟨_, rfl, by simp [WindowPc.toUnlock]⟩
  | unlock => exact absurd rfl hne

/-- Statements other than `pthread_mutex_lock` are executed with the mutex. -/
theorem WindowFunction.inside_of_statement (h : f.statement s pc = some (pc', s')) : pc.inside = true ∧ pc'.inside = true := by
  cases pc with
  | lock | unlock | returned => cases h
  | testWindow =>
    cases h
    refine ⟨rfl, ?_⟩
    unfold WindowFunction.afterTest
    cases f <;> dsimp only <;> split <;> rfl
  | clearWindow =>
    cases h
    cases f <;> exact ⟨rfl, rfl⟩
  | releaseWindow | getSize | setGeometry =>
    cases h
    exact ⟨rfl, rfl⟩
  | fromSurface | draw =>
    cases f <;> cases h
    exact ⟨rfl, rfl⟩
  | lockWindow =>
    cases f <;> cases h
    refine ⟨rfl, ?_⟩
    split <;> rfl

namespace WindowThreads

variable {w w' : WindowThreads} {a : Act} {log : List (OwnEvent ANativeWindow)} {held : List ANativeWindow} {i j : Nat}
  {c c' : WindowCall}

/-! ## A step -/

/-- What a step is: a call begins, takes the mutex, executes a statement with it, or gives it back and returns. -/
inductive Move (w : WindowThreads) : Act → WindowThreads → Prop where
  | call (f : WindowFunction) : Move w (.call f) { w with calls := w.calls ++ [⟨f, .lock⟩] }
  | lock (i : Nat) (c : WindowCall) : w.calls[i]? = some c → c.pc = .lock → w.mutex = none →
      Move w (.run i) { w.goto i c .testWindow with mutex := some i }
  | unlock (i : Nat) (c : WindowCall) : w.calls[i]? = some c → c.pc = .unlock →
      Move w (.run i) { w.goto i c .returned with mutex := none }
  | statement (i : Nat) (c : WindowCall) (pc' : WindowPc) (s' : Screen) : w.calls[i]? = some c →
      c.function.statement w.screen c.pc = some (pc', s') → Move w (.run i) { w.goto i c pc' with screen := s' }

theorem step_moves (h : w.step a = some w') : Move w a w' := by
  cases a with
  | call f =>
    cases h
    exact .call f
  | run i =>
    simp only [step] at h
    split at h
    case h_1 => cases h
    case h_2 c hc =>
      split at h
      case h_1 hpc =>
        obtain ⟨hmutex, h⟩ := Option.ite_none_right_eq_some.mp h
        cases h
        exact .lock i c hc hpc (Option.isNone_iff_eq_none.mp hmutex)
      case h_2 hpc =>
        cases h
        exact .unlock i c hc hpc
      case h_3 =>
        obtain ⟨⟨pc', s'⟩, hs, rfl⟩ := Option.map_eq_some_iff.mp h
        exact .statement i c pc' s' hc hs

theorem goto_self (hc : w.calls[i]? = some c) (pc : WindowPc) : (w.goto i c pc).calls[i]? = some { c with pc := pc } := by
  obtain ⟨hlt, -⟩ := List.getElem?_eq_some_iff.mp hc
  exact List.getElem?_set_self hlt

theorem goto_other (hne : i ≠ j) (c : WindowCall) (pc : WindowPc) : (w.goto i c pc).calls[j]? = w.calls[j]? :=
  List.getElem?_set_ne hne

/-! ## A run -/

/-- What is held while the last whole operation left `t`: nobody has the mutex, or the call that has it is in the middle. -/
inductive Holding (w : WindowThreads) (t : Screen) : List ANativeWindow → Prop where
  | nobody : w.mutex = none → w.screen = t → Holding w t t.window.toList
  | call (i : Nat) (c : WindowCall) : w.mutex = some i → w.calls[i]? = some c → Midway t c.function c.pc w.screen →
      Holding w t (heldAt c.pc w.screen)

/-- The mutex keeps the operations apart, and what was done with references led to what is held. -/
structure Guarded (r : WindowThreads × List (OwnEvent ANativeWindow)) : Prop where
  inside : ∀ i c, r.1.calls[i]? = some c → (c.pc.inside = true ↔ r.1.mutex = some i)
  holding : ∃ ops held, Holding r.1 (Screen.run ops) held ∧ Ownership.run [] r.2 = some held
  serials : (Ownership.acquisitions r.2).map ANativeWindow.serial = List.range r.1.screen.acquired.length

/-- The mutex is a call's. -/
theorem Holding.exists_call (h : Holding w t held) (hmutex : w.mutex = some i) :
    ∃ c, w.calls[i]? = some c ∧ Midway t c.function c.pc w.screen ∧ held = heldAt c.pc w.screen := by
  cases h with
  | nobody hnone =>
    rw [hnone] at hmutex
    cases hmutex
  | call j c hj hc hm =>
    rw [hj] at hmutex
    cases hmutex
    exact ⟨c, hc, hm, rfl⟩

/-- A call that goes on has the mutex where it should, and the others have it as before. -/
theorem inside_goto {pc : WindowPc} {mutex : Option Nat} (h : Guarded (w, log)) (hc : w.calls[i]? = some c)
    (hself : pc.inside = true ↔ mutex = some i) (hothers : ∀ j, i ≠ j → (w.mutex = some j ↔ mutex = some j)) :
    ∀ j c', (w.goto i c pc).calls[j]? = some c' → (c'.pc.inside = true ↔ mutex = some j) := by
  intro j c' hc'
  by_cases hij : i = j
  · subst hij
    rw [goto_self hc] at hc'
    cases hc'
    exact hself
  · rw [goto_other hij] at hc'
    exact (h.inside j c' hc').trans (hothers j hij)

/-- A function is called. -/
theorem Guarded.call (h : Guarded (w, log)) (f : WindowFunction) :
    Guarded ({ w with calls := w.calls ++ [⟨f, .lock⟩] }, log) := by
  obtain ⟨ops, held, hholding, hrun⟩ := h.holding
  constructor
  case inside =>
    intro i c hc
    rcases Nat.lt_trichotomy i w.calls.length with hlt | heq | hgt
    · exact h.inside i c (by rwa [List.getElem?_append_left hlt] at hc)
    · subst heq
      rw [List.getElem?_append_right (Nat.le_refl _)] at hc
      simp only [Nat.sub_self, List.getElem?_cons_zero, Option.some.injEq] at hc
      subst hc
      constructor
      · intro hin
        cases hin
      · -- the mutex is an earlier call's
        intro hmutex
        obtain ⟨c, hc, -⟩ := hholding.exists_call hmutex
        rw [List.getElem?_eq_none (Nat.le_refl _)] at hc
        cases hc
    · rw [List.getElem?_eq_none (by simp; omega)] at hc
      cases hc
  case holding =>
    refine ⟨ops, held, ?_, hrun⟩
    cases hholding with
    | nobody hmutex hscreen => exact .nobody hmutex hscreen
    | call i c hmutex hc hm =>
      obtain ⟨hlt, -⟩ := List.getElem?_eq_some_iff.mp hc
      exact .call i c hmutex (by rw [List.getElem?_append_left hlt]; exact hc) hm
  case serials => exact h.serials

/-- A call that has not got the mutex takes it. -/
theorem Guarded.lock (h : Guarded (w, log)) (hc : w.calls[i]? = some c) (hmutex : w.mutex = none) :
    Guarded ({ w.goto i c .testWindow with mutex := some i }, log) := by
  obtain ⟨ops, held, hholding, hrun⟩ := h.holding
  constructor
  case inside => exact inside_goto h hc (by simp [WindowPc.inside]) fun j hij => by simp [hmutex, hij]
  case holding =>
    refine ⟨ops, held, ?_, hrun⟩
    cases hholding with
    | nobody _ hscreen =>
      have hscreen : w.screen = Screen.run ops := hscreen
      rw [← hscreen]
      exact .call i { c with pc := .testWindow } rfl (goto_self hc _) (.testWindow c.function)
    | call j _ hj =>
      rw [hmutex] at hj
      cases hj
  case serials => exact h.serials

/-- The call that has the mutex gives it back: its operation is complete. -/
theorem Guarded.unlock (h : Guarded (w, log)) (hc : w.calls[i]? = some c) (hpc : c.pc = .unlock) :
    Guarded ({ w.goto i c .returned with mutex := none }, log) := by
  obtain ⟨ops, held, hholding, hrun⟩ := h.holding
  have hmutex : w.mutex = some i := (h.inside i c hc).mp (by rw [hpc]; rfl)
  constructor
  case inside => exact inside_goto h hc (by simp [WindowPc.inside]) fun j hij => by simp [hmutex, hij]
  case holding =>
    obtain ⟨c₁, hc₁, hm, rfl⟩ := hholding.exists_call hmutex
    rw [hc] at hc₁
    cases hc₁
    rw [hpc] at hm hrun
    have hscreen : w.screen = Screen.run (ops ++ [c.function.op]) := by rw [Screen.run_snoc, hm.screen_of_unlock]
    exact ⟨_, _, .nobody rfl hscreen, by rw [hrun, heldAt_of_ne (by simp), hscreen]⟩
  case serials => exact h.serials

/-- The call that has the mutex executes a statement. -/
theorem Guarded.statement (h : Guarded (w, log)) (hc : w.calls[i]? = some c)
    (hs : c.function.statement w.screen c.pc = some (pc', s')) :
    Guarded ({ w.goto i c pc' with screen := s' }, log ++ c.events w.screen) := by
  obtain ⟨ops, held, hholding, hrun⟩ := h.holding
  obtain ⟨hin, hin'⟩ := WindowFunction.inside_of_statement hs
  have hmutex : w.mutex = some i := (h.inside i c hc).mp hin
  obtain ⟨c₁, hc₁, hm, rfl⟩ := hholding.exists_call hmutex
  rw [hc] at hc₁
  cases hc₁
  constructor
  case inside => exact inside_goto h hc ⟨fun _ => hmutex, fun _ => hin'⟩ fun _ _ => Iff.rfl
  case holding =>
    refine ⟨ops, heldAt pc' s', .call i { c with pc := pc' } hmutex (goto_self hc pc') (hm.statement hs), ?_⟩
    rw [Ownership.run_append]
    exact Option.bind_eq_some_iff.mpr ⟨_, hrun, hm.owns hs⟩
  case serials =>
    dsimp only
    rw [Ownership.acquisitions_append, List.map_append, h.serials]
    rcases hm.acquires hs with ⟨object, hacquired, hlength⟩ | ⟨hacquired, hsame⟩
    · rw [hacquired, hlength, List.range_succ]
      rfl
    · rw [hacquired, hsame, List.map_nil, List.append_nil]

theorem guarded_step (h : Guarded (w, log)) (hs : w.step a = some w') : Guarded (w', log ++ w.events a) := by
  cases step_moves hs with
  | call f => simpa [events] using h.call f
  | lock i c hc hpc hmutex => simpa [events, hc, WindowCall.events, hpc] using h.lock hc hmutex
  | unlock i c hc hpc => simpa [events, hc, WindowCall.events, hpc] using h.unlock hc hpc
  | statement i c pc' s' hc hf => simpa [events, hc] using h.statement hc hf

theorem guarded_reachable {r : WindowThreads × List (OwnEvent ANativeWindow)} (h : (lts.record events).Reachable r) :
    Guarded r := by
  refine Lts.Reachable.invariant ?_ ?_ h
  · rintro ⟨w, log⟩ ⟨hw, hlog⟩
    have hw : w = new := hw
    have hlog : log = [] := hlog
    subst hw hlog
    exact
      { inside := fun i c hc => by cases hc
        holding := ⟨[], [], .nobody rfl rfl, rfl⟩
        serials := rfl }
  · rintro ⟨w, log⟩ a ⟨w', log'⟩ _ ih ⟨hstep, hlog⟩
    have hlog : log' = log ++ w.events a := hlog
    subst hlog
    exact guarded_step ih hstep

/-- The call that has the mutex is in the middle of its operation. -/
theorem exists_midway (h : lts.Reachable w) (hmutex : w.mutex = some i) :
    ∃ ops c, w.calls[i]? = some c ∧ Midway (Screen.run ops) c.function c.pc w.screen := by
  obtain ⟨log, hr⟩ := h.recorded events
  obtain ⟨ops, held, hholding, -⟩ := (guarded_reachable hr).holding
  obtain ⟨c, hc, hm, -⟩ := hholding.exists_call hmutex
  exact ⟨ops, c, hc, hm⟩

/-- Outside of the critical sections the global data is what whole operations made of it, one after the other. -/
theorem operations (h : lts.Reachable w) (hmutex : w.mutex = none) : ∃ ops, w.screen = Screen.run ops := by
  obtain ⟨log, hr⟩ := h.recorded events
  obtain ⟨ops, held, hholding, -⟩ := (guarded_reachable hr).holding
  cases hholding with
  | nobody _ hscreen => exact ⟨ops, hscreen⟩
  | call i _ hi =>
    have hi : w.mutex = some i := hi
    rw [hmutex] at hi
    cases hi

/-! ## The mutex -/

theorem step_statement {next : WindowPc × Screen} (hc : w.calls[i]? = some c)
    (hs : c.function.statement w.screen c.pc = some next) :
    w.step (.run i) = some { w.goto i c next.1 with screen := next.2 } := by
  obtain ⟨f, pc⟩ := c
  simp only [step, hc]
  cases pc with
  | lock | unlock | returned => cases hs
  | _ => exact congrArg (Option.map _) hs

/-- Whoever has the mutex can go on and give it back, whatever the other threads do not do. -/
theorem mutex_freed (h : lts.Reachable w) : lts.Can (fun w' => w'.mutex = none) w := by
  refine Lts.can_of_measure (I := fun w n => lts.Reachable w ∧
    ∀ i c, w.mutex = some i → w.calls[i]? = some c → c.pc.toUnlock < n) ?_ (n := 8) ⟨h, fun _ c _ _ => c.pc.toUnlock_lt⟩
  rintro w n ⟨hr, hn⟩
  cases hmutex : w.mutex with
  | none => exact Or.inl rfl
  | some i =>
    right
    obtain ⟨ops, c, hc, hm⟩ := exists_midway hr hmutex
    have hlt := hn i c hmutex hc
    by_cases hpc : c.pc = .unlock
    · have hstep : lts.step w (.run i) { w.goto i c .returned with mutex := none } := by simp [lts, step, hc, hpc]
      exact ⟨_, _, 0, hstep, ⟨hr.step hstep, fun j _ hj => by cases hj⟩, Nat.zero_lt_of_lt hlt⟩
    · obtain ⟨next, hs, hless⟩ := hm.continues hpc
      have hstep : lts.step w (.run i) { w.goto i c next.1 with screen := next.2 } := step_statement hc hs
      refine ⟨_, _, c.pc.toUnlock, hstep, ⟨hr.step hstep, ?_⟩, hlt⟩
      intro j c' hj hc'
      have hj : w.mutex = some j := hj
      rw [hmutex] at hj
      cases hj
      rw [show _ = _ from goto_self hc next.1] at hc'
      cases hc'
      exact hless

/-! ## The balance -/

/-- The reference is balanced, as far as a run has come: while no call is between `pthread_mutex_lock` and
`pthread_mutex_unlock`, what was acquired and not released is in `window`; nothing is done with a reference that was given up;
the mutex is with no call that has returned, and can always be given back. -/
structure WindowBalanced (r : WindowThreads × List (OwnEvent ANativeWindow)) : Prop where
  balance : (∀ c ∈ r.1.calls, c.pc.inside = false) →
    r.2.countP OwnEvent.acquires = r.2.countP OwnEvent.gives + if r.1.screen.window.isSome then 1 else 0
  givenUp : ∀ before window after, r.2 = before ++ .free window :: after → ∀ e ∈ after, e.object ≠ window
  returned : ∀ i c, r.1.calls[i]? = some c → c.pc = .returned → r.1.mutex ≠ some i
  freed : lts.Can (fun w => w.mutex = none) r.1

/-- In every run of any calls of these functions by any threads the reference is balanced. -/
theorem window_balanced {r : WindowThreads × List (OwnEvent ANativeWindow)} (h : (lts.record events).Reachable r) :
    WindowBalanced r := by
  have hguarded := guarded_reachable h
  obtain ⟨ops, held, hholding, hrun⟩ := hguarded.holding
  constructor
  case balance =>
    intro houtside
    have hlength := Ownership.length_run hrun
    cases hholding with
    | nobody _ hscreen =>
      rw [← hscreen] at hlength
      cases hwindow : r.1.screen.window with
      | none => simpa [hwindow] using hlength
      | some window => simpa [hwindow, Nat.add_comm] using hlength
    | call i c hmutex hc =>
      have hin := (hguarded.inside i c hc).mpr hmutex
      rw [houtside c (List.mem_of_getElem? hc)] at hin
      cases hin
  case givenUp =>
    intro before window after heq e hmem
    rw [heq] at hrun
    refine Ownership.not_again hrun ?_ rfl hmem
    rw [← heq]
    exact List.Nodup.of_map _ (hguarded.serials ▸ List.nodup_range)
  case returned =>
    intro i c hc hpc hmutex
    have hin := (hguarded.inside i c hc).mpr hmutex
    rw [hpc] at hin
    cases hin
  case freed => exact mutex_freed h.of_record

/-- A surface is set and drawn to; then the window cannot be locked any more, and `native_release`, which waits for the mutex,
finds none. -/
theorem window_balanced_example : ∃ r, (lts.record events).Reachable r ∧
    r.2 = .acquire ⟨0, 0⟩ :: List.replicate 6 (.use ⟨0, 0⟩) ++ [.free ⟨0, 0⟩] ∧ WindowBalanced r := by
  have hrun : (Lts.replay (Lts.recordStep step events) (new, [])
      (.call (.native_setSurface 0) :: .call (.renderFrameCallBack 0 0) :: List.replicate 5 (.run 0) ++
        List.replicate 6 (.run 1) ++ .call (.renderFrameCallBack 0 (-1)) :: .call (.native_release 0) ::
        List.replicate 7 (.run 2) ++ List.replicate 3 (.run 3))).map Prod.snd =
      some (.acquire ⟨0, 0⟩ :: List.replicate 6 (.use ⟨0, 0⟩) ++ [.free ⟨0, 0⟩]) := rfl
  obtain ⟨r, hr, hlog⟩ := Option.map_eq_some_iff.mp hrun
  have hnew : (lts.record events).Reachable (new, []) := .init ⟨rfl, rfl⟩
  have hreachable : (lts.record events).Reachable r :=
    Lts.replay_reachable (Lts.recordStep_step fun _ _ _ h => h) _ hnew hr
  exact ⟨r, hreachable, hlog, window_balanced hreachable⟩

end WindowThreads

end LibraLive

import Mathlib.Data.List.Count
import LibraLive.EglSurface
import LibraLive.Ownership

/-!
# A surface is tracked

An `OffscreenSurface` keeps the surface that EGL gave it, and releases it once. A `WindowSurface` does not keep it.
-/

namespace LibraLive

namespace EglCall

variable {S W : Type*}

/-- The surface that was made. -/
def created : EglCall S W → List S
  | .eglCreateWindowSurface _ _ _ surface => surface.toList
  | .eglCreatePbufferSurface _ _ _ _ surface => surface.toList
  | _ => []

/-- The surface that was passed to `releaseSurface`. -/
def released : EglCall S W → List S
  | .eglDestroySurface _ surface => surface.toList
  | _ => []

/-- The surfaces that `makeCurrent` and `swapBuffers` pass to EGL. -/
def actedOn : EglCall S W → List (Option S)
  | .eglMakeCurrent _ draw read _ => [draw, read]
  | .eglSwapBuffers _ surface => [surface]
  | _ => []

/-- What it means for the surfaces that there are. -/
def owned (call : EglCall S W) : List (OwnEvent S) :=
  call.created.map .acquire ++ (call.actedOn.flatMap Option.toList).map .use ++ call.released.map .free

end EglCall

namespace EglConstruction

variable {S W : Type*}

/-- There is a window, where one is needed, and EGL makes the surface. -/
def legal : EglConstruction S W → Bool
  | .windowSurface _ window _ answer => window.isSome && answer.isSome
  | .offscreenSurface _ _ _ answer => answer.isSome

def isOffscreen : EglConstruction S W → Bool
  | .windowSurface .. => false
  | .offscreenSurface .. => true

end EglConstruction

namespace EglRun

open EglCall

variable {S W : Type*} [DecidableEq S]

/-- The surfaces that were made and not released, the last one first. There is no result where a surface was used or
released that was not one of them. -/
def outstanding (calls : List (EglCall S W)) : Option (List S) := Ownership.run [] (calls.flatMap owned)

/-- No assertion has failed, and `mEglSurface` is the surface that was made and not released, if there is one;
`makeCurrent` and `swapBuffers` were about it; and where nothing was made after a release, everything that was made was
released as often. -/
structure Tracked (r : EglRun S W) : Prop where
  object : ∃ o, r.object = some o ∧ outstanding r.calls = some o.base.mEglSurface.toList
  acts : ∀ pre call post, r.calls = pre ++ call :: post → ∀ surface ∈ call.actedOn, outstanding pre = some surface.toList
  once : ∀ pre display surface post, r.calls = pre ++ .eglDestroySurface display surface :: post →
    post.flatMap created = [] → ∀ x, (r.calls.flatMap created).count x = (r.calls.flatMap released).count x

/-! ## The record of the calls -/

theorem outstanding_snoc (calls : List (EglCall S W)) (call : EglCall S W) :
    outstanding (calls ++ [call]) = (outstanding calls).bind (Ownership.run · call.owned) := by
  rw [outstanding, List.flatMap_append, Ownership.run_append, List.flatMap_singleton]
  rfl

/-- A surface is acquired when it is made, freed when it is released, and never passed on. -/
theorem count_call (call : EglCall S W) (x : S) : call.owned.count (.acquire x) = call.created.count x ∧
    call.owned.count (.free x) = call.released.count x ∧ call.owned.count (.pass x) = 0 := by
  have hacquire : (call.created.map OwnEvent.acquire).count (.acquire x) = call.created.count x :=
    List.count_map_of_injective _ _ (fun _ _ h => OwnEvent.acquire.inj h) x
  have hfree : (call.released.map OwnEvent.free).count (.free x) = call.released.count x :=
    List.count_map_of_injective _ _ (fun _ _ h => OwnEvent.free.inj h) x
  have hother : ∀ (make : S → OwnEvent S) (xs : List S) (e : OwnEvent S), (∀ y, make y ≠ e) →
      (xs.map make).count e = 0 := by
    intro make xs e hne
    rw [List.count_eq_zero, List.mem_map]
    rintro ⟨y, -, hy⟩
    exact hne y hy
  unfold owned
  simp only [List.count_append, hacquire, hfree]
  refine ⟨?_, ?_, ?_⟩ <;> simp [hother]

theorem count_owned (calls : List (EglCall S W)) (x : S) :
    (calls.flatMap owned).count (.acquire x) = (calls.flatMap created).count x ∧
    (calls.flatMap owned).count (.free x) = (calls.flatMap released).count x ∧
    (calls.flatMap owned).count (.pass x) = 0 := by
  induction calls with
  | nil => exact ⟨rfl, rfl, rfl⟩
  | cons call calls ih =>
    obtain ⟨hacquire, hfree, hpass⟩ := ih
    obtain ⟨hacquire', hfree', hpass'⟩ := count_call call x
    simp only [List.flatMap_cons, List.count_append]
    exact ⟨by rw [hacquire, hacquire'], by rw [hfree, hfree'], by rw [hpass, hpass']⟩

/-- What was made is there or was released. -/
theorem count_outstanding {calls : List (EglCall S W)} {held : List S} (h : outstanding calls = some held) (x : S) :
    (calls.flatMap created).count x = held.count x + (calls.flatMap released).count x := by
  have hcount := Ownership.count_run h x
  obtain ⟨hacquire, hfree, hpass⟩ := count_owned calls x
  rw [hacquire, hfree, hpass, List.count_nil] at hcount
  omega

/-! ## An `OffscreenSurface` -/

/-- What an operation of an `OffscreenSurface` calls, and what it leaves. -/
inductive OffscreenStep (s : OffscreenSurface S) : EglCall S W → OffscreenSurface S → Prop where
  | makeCurrent (display context : Nat) : OffscreenStep s (.eglMakeCurrent display s.mEglSurface s.mEglSurface context) s
  | swapBuffers (display : Nat) : OffscreenStep s (.eglSwapBuffers display s.mEglSurface) s
  | release (display : Nat) : OffscreenStep s (.eglDestroySurface display s.mEglSurface) ⟨⟨s.mEglCore, none, -1, -1⟩⟩

variable {ndebug : Bool} {r r' : EglRun S W} {op : EglOp S} {s s' : OffscreenSurface S} {call : EglCall S W}

omit [DecidableEq S] in
theorem step_offscreen (hs : r.object = some (.offscreen s)) (h : r.step ndebug op = some r') :
    ∃ call s', r' = ⟨some (.offscreen s'), r.calls ++ [call]⟩ ∧ OffscreenStep s call s' := by
  unfold step at h
  rw [hs] at h
  cases op with
  | makeCurrent answer =>
    cases h
    exact ⟨_, _, rfl, .makeCurrent _ _⟩
  | swapBuffers answer =>
    cases h
    exact ⟨_, _, rfl, .swapBuffers _⟩
  | release =>
    cases h
    exact ⟨_, _, rfl, .release _⟩
  | recreate eglCore answer => cases h

/-- The surface that there is stays what `mEglSurface` says. -/
theorem OffscreenStep.run (h : OffscreenStep s call s') :
    Ownership.run s.mEglSurface.toList call.owned = some s'.mEglSurface.toList := by
  cases h with
  | makeCurrent | swapBuffers | release =>
    cases hsurface : s.mEglSurface <;> simp [owned, created, actedOn, released, Ownership.step]

omit [DecidableEq S] in
theorem OffscreenStep.acts (h : OffscreenStep s call s') : ∀ surface ∈ call.actedOn, surface = s.mEglSurface := by
  cases h <;> simp [actedOn]

omit [DecidableEq S] in
/-- Nothing is made, and after a release there is nothing. -/
theorem OffscreenStep.released (h : OffscreenStep s call s') : call.created = [] ∧
    (s.mEglSurface = none ∨ (∃ display surface, call = .eglDestroySurface display surface) → s'.mEglSurface = none) := by
  cases h with
  | makeCurrent | swapBuffers => simp [created]
  | release => exact ⟨rfl, fun _ => rfl⟩

/-- What holds of an `OffscreenSurface` and the calls so far. -/
structure Keeps (r : EglRun S W) (s : OffscreenSurface S) : Prop where
  object : r.object = some (.offscreen s)
  outstanding : outstanding r.calls = some s.mEglSurface.toList
  acts : ∀ pre call post, r.calls = pre ++ call :: post →
    ∀ surface ∈ call.actedOn, EglRun.outstanding pre = some surface.toList
  released : ∀ pre display surface post, r.calls = pre ++ .eglDestroySurface display surface :: post → s.mEglSurface = none

theorem Keeps.step (h : Keeps r s) (hstep : r.step ndebug op = some r') : ∃ s', Keeps r' s' := by
  obtain ⟨call, s', rfl, hcall⟩ := step_offscreen h.object hstep
  refine ⟨s', rfl, ?_, ?_, ?_⟩
  · dsimp only
    rw [outstanding_snoc, h.outstanding, Option.bind_some, hcall.run]
  · intro pre c post hsplit surface hmem
    rcases Lts.snoc_cases hsplit with ⟨rfl, rfl, -⟩ | ⟨rest, -, hrest⟩
    · rw [hcall.acts surface hmem, h.outstanding]
    · exact h.acts pre c rest hrest surface hmem
  · intro pre display surface post hsplit
    rcases Lts.snoc_cases hsplit with ⟨-, hlast, -⟩ | ⟨rest, -, hrest⟩
    · exact hcall.released.2 (Or.inr ⟨display, surface, hlast.symm⟩)
    · exact hcall.released.2 (Or.inl (h.released pre display surface rest hrest))

/-- A surface that the invariant holds of is tracked. -/
theorem Keeps.tracked (h : Keeps r s) : Tracked r := by
  refine ⟨⟨_, h.object, h.outstanding⟩, h.acts, fun pre display surface post hsplit _ x => ?_⟩
  have hcount := count_outstanding h.outstanding x
  rw [h.released pre display surface post hsplit, Option.toList_none, List.count_nil, Nat.zero_add] at hcount
  exact hcount

/-! ## A `WindowSurface` -/

/-- What holds of a `WindowSurface` and the calls so far: an assertion has failed, or it has no surface, though one was
made and none was released. -/
inductive Loses : EglRun S W → Prop where
  | aborted (calls : List (EglCall S W)) : Loses ⟨none, calls⟩
  | dropped (s : WindowSurface S W) (calls : List (EglCall S W)) : s.mEglSurface = none → calls.flatMap created ≠ [] →
      calls.flatMap released = [] → Loses ⟨some (.window s), calls⟩

omit [DecidableEq S] in
/-- `createWindowSurface` does not keep what it makes. -/
theorem createWindowSurface_drops {base base' : EglSurfaceBase S} {window : Option W} {answer : Option S}
    {calls : List (EglCall S W)} (h : base.createWindowSurface ndebug window answer = some (base', calls)) :
    base' = base ∧ calls.flatMap EglCall.released = [] := by
  obtain ⟨-, -, heq⟩ := Option.map_eq_some_iff.mp h
  split_ifs at heq <;> cases heq
  · exact ⟨rfl, rfl⟩
  · cases window <;> exact ⟨rfl, rfl⟩

omit [DecidableEq S] in
theorem recreate_drops {s s' : WindowSurface S W} {eglCore : EglCore} {answer : Option S} {calls : List (EglCall S W)}
    (h : s.recreate ndebug eglCore answer = some (s', calls)) :
    s'.mEglSurface = s.mEglSurface ∧ calls.flatMap EglCall.released = [] := by
  obtain ⟨-, -, h⟩ := Option.bind_eq_some_iff.mp h
  split_ifs at h
  · cases h
    exact ⟨rfl, rfl⟩
  · obtain ⟨⟨base, made⟩, hbase, heq⟩ := Option.map_eq_some_iff.mp h
    obtain ⟨rfl, hreleased⟩ := createWindowSurface_drops hbase
    cases heq
    exact ⟨rfl, hreleased⟩

omit [DecidableEq S] in
theorem release_drops {s : WindowSurface S W} (hs : s.mEglSurface = none) :
    s.release.1.mEglSurface = none ∧ s.release.2.flatMap EglCall.released = [] := by
  unfold WindowSurface.release
  cases s.mSurface <;> simp [EglSurfaceBase.releaseEglSurface, EglCore.releaseSurface, EglCall.released, hs]

omit [DecidableEq S] in
theorem Loses.step (h : Loses r) (hstep : r.step ndebug op = some r') : Loses r' := by
  cases h with
  | aborted => cases hstep
  | dropped s calls hs hcreated hreleased =>
    have hmore : ∀ s' more, s'.mEglSurface = none → more.flatMap EglCall.released = [] →
        Loses (⟨some (.window s'), calls ++ more⟩ : EglRun S W) := by
      intro s' more hs' hmore
      refine .dropped s' _ hs' ?_ ?_
      · rw [List.flatMap_append]
        exact List.append_ne_nil_of_left_ne_nil hcreated _
      · rw [List.flatMap_append, hreleased, hmore, List.nil_append]
    cases op with
    | makeCurrent answer =>
      cases hstep
      exact hmore s _ hs rfl
    | swapBuffers answer =>
      cases hstep
      exact hmore s _ hs rfl
    | release =>
      cases hstep
      exact hmore _ _ (release_drops hs).1 (release_drops hs).2
    | recreate eglCore answer =>
      cases hrecreate : s.recreate ndebug eglCore answer with
      | none =>
        simp only [EglRun.step, EglObject.has, EglObject.call, hrecreate] at hstep
        cases hstep
        exact .aborted _
      | some result =>
        simp only [EglRun.step, EglObject.has, EglObject.call, hrecreate] at hstep
        cases hstep
        obtain ⟨hs', hmade⟩ := recreate_drops hrecreate
        exact hmore _ _ (hs'.trans hs) hmade

/-- A surface was made that is neither tracked nor released. -/
theorem Loses.not_tracked (h : Loses r) : ¬ Tracked r := by
  intro htracked
  obtain ⟨o, ho, houtstanding⟩ := htracked.object
  cases h with
  | aborted => cases ho
  | dropped s calls hs hcreated hreleased =>
    cases ho
    obtain ⟨x, hx⟩ := List.exists_mem_of_ne_nil _ hcreated
    have hcount := count_outstanding houtstanding x
    have hpos := List.count_pos_iff.mpr hx
    dsimp only at hcount
    rw [EglObject.base, hs, hreleased, Option.toList_none, List.count_nil] at hcount
    omega

/-! ## Every run -/

variable {c : EglConstruction S W}

omit [DecidableEq S] in
theorem start_offscreen (ndebug : Bool) (eglCore : EglCore) (width height : Int32) (answer : Option S) :
    start ndebug (.offscreenSurface eglCore width height answer : EglConstruction S W) =
      ⟨some (.offscreen ⟨⟨eglCore, answer, -1, -1⟩⟩),
        [.eglCreatePbufferSurface eglCore.mEGLDisplay eglCore.mEGLConfig width height answer]⟩ := by
  cases ndebug <;> rfl

omit [DecidableEq S] in
/-- The assertion of `createWindowSurface` fails for every window. -/
theorem start_window_asserts (eglCore : EglCore) (window : W) (releaseSurface : Option Bool) (answer : Option S) :
    start false (.windowSurface eglCore (some window) releaseSurface answer) = ⟨none, []⟩ := by
  cases releaseSurface <;> rfl

omit [DecidableEq S] in
/-- Without assertions a surface is made, and `mEglSurface` stays as it was. -/
theorem start_window (eglCore : EglCore) (window : W) (releaseSurface : Option Bool) (answer : Option S) :
    start true (.windowSurface eglCore (some window) releaseSurface answer) =
      ⟨some (.window ⟨⟨eglCore, none, -1, -1⟩, some window, releaseSurface.getD false⟩),
        [.eglCreateWindowSurface eglCore.mEGLDisplay eglCore.mEGLConfig window answer]⟩ := by
  cases releaseSurface <;> rfl

theorem keeps_start (hlegal : c.legal = true) (hc : c.isOffscreen = true) : ∃ s, Keeps (start ndebug c) s := by
  cases c with
  | windowSurface => cases hc
  | offscreenSurface eglCore width height answer =>
    obtain ⟨surface, rfl⟩ := Option.isSome_iff_exists.mp hlegal
    refine ⟨⟨⟨eglCore, some surface, -1, -1⟩⟩, ?_⟩
    rw [start_offscreen]
    -- the only call so far is the one that made the surface
    refine ⟨rfl, by simp [outstanding, owned, created, actedOn, released, Ownership.step], ?_, ?_⟩
    · intro pre call post hsplit x hx
      obtain ⟨-, rfl, -⟩ | ⟨rest, -, hrest⟩ := @Lts.snoc_cases _ [] _ _ _ _ hsplit
      · cases hx
      · exact absurd hrest.symm (by simp)
    · intro pre display x post hsplit
      obtain ⟨-, hcall, -⟩ | ⟨rest, -, hrest⟩ := @Lts.snoc_cases _ [] _ _ _ _ hsplit
      · cases hcall
      · exact absurd hrest.symm (by simp)

omit [DecidableEq S] in
theorem loses_start (hlegal : c.legal = true) (hc : c.isOffscreen = false) : Loses (start ndebug c) := by
  cases c with
  | offscreenSurface => cases hc
  | windowSurface eglCore window releaseSurface answer =>
    obtain ⟨hwindow, hanswer⟩ := Bool.and_eq_true_iff.mp hlegal
    obtain ⟨window, rfl⟩ := Option.isSome_iff_exists.mp hwindow
    obtain ⟨surface, rfl⟩ := Option.isSome_iff_exists.mp hanswer
    cases ndebug with
    | false =>
      rw [start_window_asserts]
      exact .aborted _
    | true =>
      rw [start_window]
      exact .dropped _ _ rfl (List.cons_ne_nil _ _) rfl

/-- In every state of every run, the surface is tracked exactly if the object is an `OffscreenSurface`. -/
theorem tracked_iff (hlegal : c.legal = true) (h : (lts ndebug c).Reachable r) : Tracked r ↔ c.isOffscreen = true := by
  cases hc : c.isOffscreen with
  | true =>
    have hkeeps : ∃ s, Keeps r s := by
      refine Lts.Reachable.invariant ?_ ?_ h
      · rintro r rfl
        exact keeps_start hlegal hc
      · rintro r op r' - ⟨s, hs⟩ hstep
        exact hs.step hstep
    obtain ⟨s, hs⟩ := hkeeps
    exact iff_of_true hs.tracked rfl
  | false =>
    have hloses : Loses r := by
      refine Lts.Reachable.invariant ?_ ?_ h
      · rintro r rfl
        exact loses_start hlegal hc
      · exact fun r op r' _ hr hstep => hr.step hstep
    exact iff_of_false hloses.not_tracked Bool.false_ne_true

/-- An `OffscreenSurface` is used and released. -/
theorem tracked_example : ∃ r : EglRun Nat Nat, (lts false (.offscreenSurface ⟨1, 2, 3⟩ 4 4 (some 7))).Reachable r ∧
    r.calls = [.eglCreatePbufferSurface 1 3 4 4 (some 7), .eglMakeCurrent 1 (some 7) (some 7) 2, .eglSwapBuffers 1 (some 7),
      .eglDestroySurface 1 (some 7)] ∧ Tracked r := by
  have hrun : (Lts.replay (step false) (start false (.offscreenSurface ⟨1, 2, 3⟩ 4 4 (some 7)))
      [.makeCurrent true, .swapBuffers true, .release]).map (fun r : EglRun Nat Nat => r.calls) =
      some [.eglCreatePbufferSurface 1 3 4 4 (some 7), .eglMakeCurrent 1 (some 7) (some 7) 2, .eglSwapBuffers 1 (some 7),
        .eglDestroySurface 1 (some 7)] := by decide
  obtain ⟨r, hr, hcalls⟩ := Option.map_eq_some_iff.mp hrun
  have hreach := Lts.replay_reachable (L := lts false _) (fun _ _ _ h => h) _ (Lts.Reachable.init rfl) hr
  exact ⟨r, hreach, hcalls, (tracked_iff rfl hreach).mpr rfl⟩

/-- The constructor of a `WindowSurface` fails its assertion. Without assertions, EGL makes a surface for it, but it makes
no surface current and releases none. -/
theorem window_untracked :
    (∃ r : EglRun Nat Nat, (lts false (.windowSurface ⟨1, 2, 3⟩ (some 5) none (some 7))).Reachable r ∧ r.object = none ∧
      ¬ Tracked r) ∧
    ∃ r : EglRun Nat Nat, (lts true (.windowSurface ⟨1, 2, 3⟩ (some 5) none (some 7))).Reachable r ∧
      r.calls = [.eglCreateWindowSurface 1 3 5 (some 7), .eglMakeCurrent 1 none none 2, .eglDestroySurface 1 none,
        .ANativeWindow_release 5] ∧ ¬ Tracked r := by
  have hrun : Lts.replay (step true) (start true (.windowSurface ⟨1, 2, 3⟩ (some 5) none (some 7)))
      [.makeCurrent true, .release] = some (⟨some (.window ⟨⟨⟨1, 2, 3⟩, none, -1, -1⟩, none, false⟩),
        [.eglCreateWindowSurface 1 3 5 (some 7), .eglMakeCurrent 1 none none 2, .eglDestroySurface 1 none,
          .ANativeWindow_release 5]⟩ : EglRun Nat Nat) := by decide
  have hreach := Lts.replay_reachable (L := lts true _) (fun _ _ _ h => h) _ (Lts.Reachable.init rfl) hrun
  exact ⟨⟨_, .init rfl, rfl, (Loses.aborted _).not_tracked⟩, _, hreach, rfl,
    (Loses.dropped _ _ rfl (by decide) rfl).not_tracked⟩

end EglRun

end LibraLive

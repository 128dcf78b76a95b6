import LibraLive.Activity
import LibraLive.Theorems.Lifetime

/-!
# Handles the activity loses

`onResume` prepares a player each time, `onStop` stops and `onDestroy` releases the one whose handle is stored then. The
callbacks do not alternate one to one: an activity that comes back to the foreground prepares a second player and overwrites
the handle of the first, which nobody can release any more.
-/

namespace LibraLive

/-- `native_stop` was called with the handle, and after it `native_release`. -/
def StoppedThenReleased (events : List NativeEvent) (handle : Nat) : Prop :=
  [.stopped handle, .released handle].Sublist events

/-- `native_prepare` returned the handle, and `native_stop` was not called with it. -/
def Unstopped (events : List NativeEvent) (handle : Nat) : Prop := .returned handle ∈ events ∧ .stopped handle ∉ events

/-- Every handle was stopped and then released before it was overwritten and before the activity was destroyed, and at most
one was not stopped at any time. -/
structure NotOrphaned (events : List NativeEvent) : Prop where
  overwritten : ∀ before after handle, events = before ++ .overwritten handle :: after → StoppedThenReleased before handle
  destroyed : ∀ before after, events = before ++ .destroyed :: after → ∀ handle, .returned handle ∈ before →
    StoppedThenReleased before handle
  unstopped : ∀ before, before <+: events → ∀ handle handle', Unstopped before handle → Unstopped before handle' →
    handle = handle'

/-- How often the activity came to the foreground. -/
def resumes (callbacks : List ActivityCallback) : Nat := callbacks.count .onResume

/-- An activity is stopped and comes back: the handle of its first player is overwritten, and that player was not released. -/
theorem player_orphaned : ¬ ∀ callbacks stage, Lifecycle callbacks stage → NotOrphaned (Activity.run callbacks).events := by
  intro hall
  have hlife : Lifecycle ([] ++ [ActivityCallback.onCreate] ++ [ActivityCallback.onResume] ++ [ActivityCallback.onPause] ++
      [ActivityCallback.onStop] ++ [ActivityCallback.onResume]) .resumed :=
    .snoc (.snoc (.snoc (.snoc (.snoc .nil rfl) rfl) rfl) rfl) rfl
  have horphan := (hall _ _ hlife).overwritten [.returned 0, .stopped 0, .returned 1] [] 0 rfl
  revert horphan
  unfold StoppedThenReleased
  decide

/-! ## What has happened by the stage -/

/-- What the events are while the activity exists: a handle for each time it came to the foreground, the last one stored, all
others overwritten, none released; once stopped, the last one was stopped. -/
structure LifecycleInv (stage : Stage) (n : Nat) (a : Activity) : Prop where
  handle : a.app.playerHandle = if n = 0 then none else some (n - 1)
  players : a.app.players.length = n
  created : stage = .initial ∨ stage = .created → n = 0
  returned : ∀ handle, .returned handle ∈ a.events → handle < n
  overwritten : (∃ handle, .overwritten handle ∈ a.events) ↔ 2 ≤ n
  stopped : stage = .stopped → n = 0 ∨ .stopped (n - 1) ∈ a.events
  released : ∀ handle, .released handle ∉ a.events
  destroyed : .destroyed ∉ a.events

namespace LifecycleInv

variable {stage stage' : Stage} {n : Nat} {a : Activity}

/-- A callback that calls no method. -/
theorem same (ha : LifecycleInv stage n a) (hcreated : stage' = .initial ∨ stage' = .created → n = 0)
    (hstopped : stage' ≠ .stopped) : LifecycleInv stage' n a :=
  ⟨ha.handle, ha.players, hcreated, ha.returned, ha.overwritten, fun h => absurd h hstopped, ha.released, ha.destroyed⟩

/-- `onResume`. -/
theorem prepare (ha : LifecycleInv stage n a) : LifecycleInv .resumed (n + 1) a.prepare := by
  have hhandles : ∀ e ∈ a.app.playerHandle.toList.map NativeEvent.overwritten, ∃ handle, e = .overwritten handle := by
    intro e he
    obtain ⟨handle, -, rfl⟩ := List.mem_map.mp he
    exact ⟨handle, rfl⟩
  refine ⟨?_, ?_, by simp, ?_, ?_, by simp, ?_, ?_⟩
  · simp [Activity.prepare, App.perform_prepare, ha.players]
  · simp [Activity.prepare, App.perform_prepare, App.nativePrepare, ha.players]
  · intro handle hmem
    simp only [Activity.prepare, List.mem_append, List.mem_singleton, NativeEvent.returned.injEq] at hmem
    rcases hmem with (hold | hnew) | hover
    · exact Nat.lt_succ_of_lt (ha.returned handle hold)
    · rw [hnew, ha.players]
      exact Nat.lt_succ_self n
    · obtain ⟨handle', h⟩ := hhandles _ hover
      cases h
  · by_cases hn : n = 0
    · -- the first time there is no handle to overwrite
      have hover := ha.overwritten
      simp [Activity.prepare, ha.handle, hn] at hover ⊢
      exact hover
    · refine ⟨fun _ => by omega, fun _ => ⟨n - 1, ?_⟩⟩
      simp [Activity.prepare, ha.handle, hn]
  · intro handle hmem
    simp only [Activity.prepare, List.mem_append, List.mem_singleton] at hmem
    rcases hmem with (hold | hnew) | hover
    · exact ha.released handle hold
    · cases hnew
    · obtain ⟨handle', h⟩ := hhandles _ hover
      cases h
  · intro hmem
    simp only [Activity.prepare, List.mem_append, List.mem_singleton] at hmem
    rcases hmem with (hold | hnew) | hover
    · exact ha.destroyed hold
    · cases hnew
    · obtain ⟨handle', h⟩ := hhandles _ hover
      cases h

/-- `onStop`. -/
theorem stop (ha : LifecycleInv stage n a) : LifecycleInv .stopped n a.stop := by
  have happ : a.stop.app.playerHandle = a.app.playerHandle ∧ a.stop.app.players.length = a.app.players.length := by
    unfold Activity.stop
    cases h : a.app.playerHandle with
    | none => simp [App.perform_stop_none h, h]
    | some handle => simp [App.perform_stop_some h, App.createStop, h]
  have hmem : ∀ e, e ∈ a.stop.events ↔ e ∈ a.events ∨ ∃ handle, a.app.playerHandle = some handle ∧ e = .stopped handle := by
    intro e
    simp [Activity.stop, eq_comm]
  refine ⟨happ.1.trans ha.handle, happ.2.trans ha.players, by simp, ?_, ?_, ?_, ?_, ?_⟩
  · intro handle h
    rcases (hmem _).mp h with hold | ⟨handle', -, hnew⟩
    · exact ha.returned handle hold
    · cases hnew
  · rw [← ha.overwritten]
    refine exists_congr fun handle => ?_
    simp [hmem]
  · intro _
    by_cases hn : n = 0
    · exact Or.inl hn
    · exact Or.inr ((hmem _).mpr (Or.inr ⟨n - 1, by simp [ha.handle, hn], rfl⟩))
  · intro handle h
    rcases (hmem _).mp h with hold | ⟨handle', -, hnew⟩
    · exact ha.released handle hold
    · cases hnew
  · intro h
    rcases (hmem _).mp h with hold | ⟨handle', -, hnew⟩
    · exact ha.destroyed hold
    · cases hnew

end LifecycleInv

/-- A callback other than `onResume` is no further time in the foreground. -/
theorem resumes_append (callbacks : List ActivityCallback) (last : ActivityCallback) :
    resumes (callbacks ++ [last]) = resumes callbacks + if last = .onResume then 1 else 0 := by
  cases last <;> simp [resumes]

/-- The invariant holds as long as the activity exists. -/
theorem lifecycleInv {callbacks : List ActivityCallback} {stage : Stage} (h : Lifecycle callbacks stage)
    (hlive : stage ≠ .destroyed) : LifecycleInv stage (resumes callbacks) (Activity.run callbacks) := by
  induction h with
  | nil =>
    exact ⟨rfl, rfl, fun _ => rfl, by simp [Activity.new], by simp [Activity.new, resumes], by simp, by simp [Activity.new],
      by simp [Activity.new]⟩
  | @snoc callbacks stage stage' last h hnext ih =>
    have hs : stage ≠ .destroyed := by
      rintro rfl
      cases last <;> cases hnext
    have ha := ih hs
    rw [Activity.run_append, resumes_append]
    cases last with
    | onCreate =>
      cases stage <;> cases hnext
      -- the app of `onCreate` is the one before it
      have hempty : callbacks = [] := by
        cases h with
        | nil => rfl
        | @snoc _ stage₀ _ last₀ _ hnext₀ => cases stage₀ <;> cases last₀ <;> cases hnext₀
      subst hempty
      exact ha.same (fun _ => rfl) (by simp)
    | onResume => cases stage <;> cases hnext <;> exact ha.prepare
    | onPause =>
      cases stage <;> cases hnext
      exact ha.same (by simp) (by simp)
    | onStop => cases stage <;> cases hnext <;> exact ha.stop
    | onDestroy => cases stage <;> cases hnext <;> exact absurd rfl hlive

/-! ## The activity as a whole -/

/-- Before the first occurrence of the last item comes everything else. -/
theorem before_eq_of_last {α : Type*} {items before after : List α} {x : α} (hx : x ∉ items)
    (h : items ++ [x] = before ++ x :: after) : before = items := by
  rcases List.append_eq_append_iff.mp h with ⟨rest, hbefore, hrest⟩ | ⟨rest, hitems, hrest⟩
  · cases rest with
    | nil => simpa using hbefore
    | cons y rest => simp at hrest
  · cases rest with
    | nil => simpa using hitems.symm
    | cons y rest =>
      simp only [List.cons_append, List.cons.injEq] at hrest
      exact absurd (by simp [hitems, hrest.1]) hx

namespace LifecycleInv

variable {stage : Stage} {n : Nat} {a : Activity}

/-- A handle that was overwritten was never released. -/
theorem not_notOrphaned (ha : LifecycleInv stage n a) (hn : 2 ≤ n) (more : List NativeEvent) :
    ¬ NotOrphaned (a.events ++ more) := by
  intro horphan
  obtain ⟨handle, hmem⟩ := ha.overwritten.mpr hn
  obtain ⟨before, after, hsplit⟩ := List.append_of_mem hmem
  have hsub := horphan.overwritten before (after ++ more) handle (by simp [hsplit])
  have hreleased : .released handle ∈ before := hsub.subset (by simp)
  exact ha.released handle (by simp [hsplit, hreleased])

/-- With one handle at most, none is overwritten and at most that one is not stopped. -/
theorem notOrphaned (ha : LifecycleInv stage n a) (hn : n ≤ 1) {more : List NativeEvent}
    (hmore : ∀ handle, .returned handle ∉ more ∧ .overwritten handle ∉ more)
    (hdestroyed : ∀ before after, a.events ++ more = before ++ .destroyed :: after → ∀ handle, .returned handle ∈ before →
      StoppedThenReleased before handle) : NotOrphaned (a.events ++ more) := by
  have hover : ∀ handle, .overwritten handle ∉ a.events ++ more := by
    intro handle hmem
    rcases List.mem_append.mp hmem with hold | hnew
    · have htwo := ha.overwritten.mp ⟨handle, hold⟩
      omega
    · exact (hmore handle).2 hnew
  have hzero : ∀ handle, .returned handle ∈ a.events ++ more → handle = 0 := by
    intro handle hmem
    rcases List.mem_append.mp hmem with hold | hnew
    · have hlt := ha.returned handle hold
      omega
    · exact absurd hnew (hmore handle).1
  refine ⟨?_, hdestroyed, ?_⟩
  · intro before after handle hsplit
    exact absurd (by simp [hsplit]) (hover handle)
  · intro before hbefore handle handle' h h'
    rw [hzero handle (hbefore.subset h.1), hzero handle' (hbefore.subset h'.1)]

/-- A stopped or merely created activity is destroyed. -/
theorem destroy (ha : LifecycleInv stage n a) (hstage : stage = .created ∨ stage = .stopped) (hn : n ≤ 1) :
    NotOrphaned (a.callback .onDestroy).events := by
  have hevents : (a.callback .onDestroy).events =
      a.events ++ (a.app.playerHandle.toList.map NativeEvent.released ++ [.destroyed]) := by
    simp [Activity.callback, Activity.release]
  rw [hevents]
  refine ha.notOrphaned hn (by simp) ?_
  intro before after hsplit handle hreturned
  have hbefore : before = a.events ++ a.app.playerHandle.toList.map NativeEvent.released := by
    refine before_eq_of_last ?_ (by rw [← hsplit, List.append_assoc])
    simp [ha.destroyed]
  subst hbefore
  have hlt : handle < n := by
    rcases List.mem_append.mp hreturned with hold | hnew
    · exact ha.returned handle hold
    · simp at hnew
  -- there was a handle, so the activity was stopped, and `onDestroy` finds that handle stored
  have hstopped : .stopped handle ∈ a.events := by
    rcases hstage with hs | hs
    · have hzero := ha.created (Or.inr hs)
      omega
    · rcases ha.stopped hs with hzero | hmem
      · omega
      · rwa [show handle = n - 1 by omega]
  have hhandle : a.app.playerHandle = some handle := by
    rw [ha.handle, if_neg (by omega), show handle = n - 1 by omega]
  rw [hhandle]
  exact List.Sublist.append (List.singleton_sublist.mpr hstopped) (List.Sublist.refl [NativeEvent.released handle])

end LifecycleInv

/-- For every sequence of callbacks Android allows, finished or not: every handle `native_prepare` returned is passed to
`native_stop` and then to `native_release` before `playerHandle` is overwritten and before the activity is destroyed, and at
most one player is not stopped at any time, if and only if the activity comes to the foreground at most once. -/
theorem notOrphaned_iff {callbacks : List ActivityCallback} {stage : Stage} (h : Lifecycle callbacks stage) :
    NotOrphaned (Activity.run callbacks).events ↔ resumes callbacks ≤ 1 := by
  by_cases hlive : stage = .destroyed
  · subst hlive
    cases h with
    | @snoc callbacks stage _ last h hnext =>
      -- the last callback is `onDestroy`, of an activity that is stopped or was never shown
      obtain ⟨rfl, hstage⟩ : last = .onDestroy ∧ (stage = .created ∨ stage = .stopped) := by
        cases stage <;> cases last <;> cases hnext <;> simp
      have ha := lifecycleInv h (by rintro rfl; simp at hstage)
      have hn : resumes (callbacks ++ [.onDestroy]) = resumes callbacks := by simp [resumes_append]
      rw [Activity.run_append, hn]
      refine ⟨fun horphan => ?_, ha.destroy hstage⟩
      by_contra htwo
      refine ha.not_notOrphaned (by omega)
        ((Activity.run callbacks).app.playerHandle.toList.map NativeEvent.released ++ [.destroyed]) ?_
      simpa [Activity.callback, Activity.release] using horphan
  · have ha := lifecycleInv h hlive
    refine ⟨fun horphan => ?_, fun hone => ?_⟩
    · by_contra htwo
      exact ha.not_notOrphaned (by omega) [] (by simpa using horphan)
    · have hdestroyed : ∀ before after, (Activity.run callbacks).events ++ [] = before ++ .destroyed :: after →
          ∀ handle, .returned handle ∈ before → StoppedThenReleased before handle := by
        intro before after hsplit
        rw [List.append_nil] at hsplit
        exact absurd (by simp [hsplit]) ha.destroyed
      simpa using ha.notOrphaned hone (by simp) hdestroyed

/-- An activity that is shown once, stopped and destroyed. -/
theorem notOrphaned_shown_once :
    Lifecycle [.onCreate, .onResume, .onPause, .onStop, .onDestroy] .destroyed ∧
    NotOrphaned (Activity.run [.onCreate, .onResume, .onPause, .onStop, .onDestroy]).events := by
  have hlife : Lifecycle ([] ++ [ActivityCallback.onCreate] ++ [ActivityCallback.onResume] ++ [ActivityCallback.onPause] ++
      [ActivityCallback.onStop] ++ [ActivityCallback.onDestroy]) .destroyed :=
    .snoc (.snoc (.snoc (.snoc (.snoc .nil rfl) rfl) rfl) rfl) rfl
  exact ⟨hlife, (notOrphaned_iff hlife).mpr (by decide)⟩

/-! ## The activity in the app -/

namespace App

variable {s : App}

/-- A step of the UI thread in a method, which uses the player it has the handle of. -/
theorem ui_reachable (hr : lts.Reachable s) (hfault : s.fault = none)
    (hlive : ∀ handle, s.ui.uses = some handle → s.isDeleted handle = false) {s' : App}
    (h : s.uiStep .returns = some s') : lts.Reachable s' := by
  refine hr.step (a := .ui .returns) ?_
  change s.step (.ui .returns) = some s'
  rw [step, hfault, if_neg (by simp)]
  split
  · exact h
  · rename_i handle huse
    rw [if_neg (by simp [hlive handle huse])]
    exact h

/-- `start`, `stop` and `release` use the player whose handle is stored. -/
theorem uses_call (hlive : ∀ handle, s.playerHandle = some handle → s.isDeleted handle = false) {method : Call}
    (hm : method ≠ .prepare) (handle : Nat) (huse : (s.call method).ui.uses = some handle) :
    (s.call method).isDeleted handle = false := by
  have hdel : (s.call method).isDeleted handle = s.isDeleted handle := by cases method <;> first | rfl | exact absurd rfl hm
  rw [hdel]
  refine hlive handle ?_
  cases method with
  | prepare => exact absurd rfl hm
  | start | stop | release =>
    cases hh : s.playerHandle with
    | none => simp [call, hh] at huse
    | some handle' => simpa [call, hh] using huse

/-- A method of `LibraLivePlayer` is a run of the app in which the other threads pause. -/
theorem perform_reachable (hr : lts.Reachable s) (hui : s.ui = .idle) (hfault : s.fault = none)
    (hlive : ∀ handle, s.playerHandle = some handle → s.isDeleted handle = false) (method : Call) :
    lts.Reachable (s.perform method) := by
  have hcall : lts.Reachable (s.call method) := by
    refine hr.step (a := .call method) ?_
    change s.step (.call method) = some (s.call method)
    simp [step, hfault, usedBy, act, hui]
  cases method with
  | prepare => exact ui_reachable hcall hfault (by simp [call, nativePrepare]) rfl
  | start =>
    cases hh : s.playerHandle with
    | none => simpa [perform, call, hh, finish, uiStep] using hcall
    | some handle =>
      have hstep : (s.call .start).uiStep .returns = some (s.perform .start) := by
        simp [perform, call, hh, finish, uiStep]
      exact ui_reachable hcall hfault (uses_call hlive (by simp)) hstep
  | stop =>
    cases hh : s.playerHandle with
    | none => simpa [perform, call, hh, finish, uiStep] using hcall
    | some handle =>
      have hstep : (s.call .stop).uiStep .returns = some (s.perform .stop) := by
        simp [perform, call, hh, finish, uiStep]
      exact ui_reachable hcall hfault (uses_call hlive (by simp)) hstep
  | release =>
    cases hh : s.playerHandle with
    | none =>
      have hstep : (s.call .release).uiStep .returns = some (s.perform .release) := by
        simp [perform, call, hh, finish, uiStep]
      exact ui_reachable hcall hfault (by simp [call, hh]) hstep
    | some handle =>
      have hdelete : (s.call .release).uiStep .returns = some { s.delete handle with ui := .zeroing } := by
        simp [call, hh, uiStep, delete]
      have hzero : App.uiStep { s.delete handle with ui := .zeroing } .returns = some (s.perform .release) := by
        simp [perform, call, hh, finish, uiStep, delete]
      exact ui_reachable (ui_reachable hcall hfault (uses_call hlive (by simp)) hdelete) hfault (by simp) hzero

end App

/-- Between two callbacks the UI thread is idle, nothing deleted was used, and the stored handle is that of a live player. -/
structure Settled (s : App) : Prop where
  ui : s.ui = .idle
  fault : s.fault = none
  live : ∀ handle, s.playerHandle = some handle → s.isDeleted handle = false

/-- A callback of the activity is a run of its app. -/
theorem Settled.callback {a : Activity} (ha : Settled a.app) (hr : App.lts.Reachable a.app) (callback : ActivityCallback) :
    App.lts.Reachable (a.callback callback).app ∧ Settled (a.callback callback).app := by
  obtain ⟨hui, hfault, hlive⟩ := ha
  cases callback with
  | onCreate => exact ⟨.init rfl, rfl, rfl, by simp [Activity.callback, App.new]⟩
  | onPause => exact ⟨hr, hui, hfault, hlive⟩
  | onResume =>
    refine ⟨App.perform_reachable hr hui hfault hlive .prepare, rfl, hfault, ?_⟩
    intro handle hh
    obtain rfl := Option.some.inj hh
    simp [Activity.callback, Activity.prepare, App.perform_prepare, App.isDeleted, App.nativePrepare]
  | onStop =>
    refine ⟨App.perform_reachable hr hui hfault hlive .stop, ?_⟩
    simp only [Activity.callback, Activity.stop]
    cases hh : a.app.playerHandle with
    | none =>
      rw [App.perform_stop_none hh]
      exact ⟨rfl, hfault, hlive⟩
    | some handle =>
      rw [App.perform_stop_some hh]
      refine ⟨rfl, hfault, ?_⟩
      intro handle' hh'
      exact (App.isDeleted_createStop (s := a.app)).trans (hlive handle' hh')
  | onDestroy =>
    refine ⟨App.perform_reachable hr hui hfault hlive .release, ?_⟩
    simp only [Activity.callback, Activity.release]
    cases hh : a.app.playerHandle with
    | none =>
      rw [App.perform_release_none hh]
      exact ⟨rfl, hfault, hlive⟩
    | some handle =>
      rw [App.perform_release_some hh]
      exact ⟨rfl, hfault, by simp⟩

/-- The app of an activity is in a state that a run of `App` reaches, whatever callbacks were called. -/
theorem activity_reachable (callbacks : List ActivityCallback) : App.lts.Reachable (Activity.run callbacks).app := by
  have hall : ∀ (callbacks : List ActivityCallback) (a : Activity), App.lts.Reachable a.app → Settled a.app →
      App.lts.Reachable (callbacks.foldl Activity.callback a).app := by
    intro callbacks
    induction callbacks with
    | nil => exact fun a hr _ => hr
    | cons callback callbacks ih =>
      intro a hr hs
      obtain ⟨hr', hs'⟩ := hs.callback hr callback
      exact ih _ hr' hs'
  exact hall callbacks Activity.new (.init rfl) ⟨rfl, rfl, by simp [Activity.new, App.new]⟩

end LibraLive

import Mathlib.Data.List.Nodup
import Mathlib.Tactic.Common

/-!
# Observable values with a lifecycle

A value that is set and observed on one thread. Every observer belongs to an owner and is called while its owner is
started only: when the value is set, or later, when the owner is started and the value has been set since the observer was
called last. Versions count how often the value was set. No observer sets the value, or changes a lifecycle, while it is
called.
-/

namespace LiveData

/-- The states of an owner. -/
inductive State where
  | DESTROYED
  | INITIALIZED
  | CREATED
  | STARTED
  | RESUMED
  deriving DecidableEq, Repr

/-- `isAtLeast(STARTED)`. -/
def State.isStarted : State → Bool
  | .STARTED | .RESUMED => true
  | _ => false

/-- An observer that is registered. -/
structure ObserverWrapper (K O : Type*) where
  mObserver : K
  mOwner : O
  mActive : Bool
  mLastVersion : Int
  deriving DecidableEq, Repr

/-- A call of an observer: the value, and its version. -/
structure Notification (T K : Type*) where
  observer : K
  version : Int
  value : T
  deriving DecidableEq, Repr

abbrev START_VERSION : Int := -1

end LiveData

/-- A value for observers `K` of owners `O`; it may not be set yet. -/
structure LiveData (T K O : Type*) where
  mData : Option T
  mVersion : Int
  mObservers : List (LiveData.ObserverWrapper K O)
  deriving DecidableEq, Repr

namespace LiveData

variable {T K O : Type*} [DecidableEq K] [DecidableEq O]

/-- Without a value and without observers. -/
def empty : LiveData T K O where
  mData := none
  mVersion := START_VERSION
  mObservers := []

/-- With a value. -/
def ofValue (value : T) : LiveData T K O where
  mData := some value
  mVersion := START_VERSION + 1
  mObservers := []

/-- An observer is called if it is active and has not seen the value yet. -/
def considerNotify (d : LiveData T K O) (lifecycle : O → State) (w : ObserverWrapper K O) :
    ObserverWrapper K O × List (Notification T K) :=
  if w.mActive = false then (w, [])
  else if (lifecycle w.mOwner).isStarted = false then ({ w with mActive := false }, [])
  else if d.mVersion ≤ w.mLastVersion then (w, [])
  else ({ w with mLastVersion := d.mVersion }, d.mData.toList.map fun value => ⟨w.mObserver, d.mVersion, value⟩)

/-- Every observer is considered, in the order in which they were registered. -/
def dispatchingValue (d : LiveData T K O) (lifecycle : O → State) : LiveData T K O × List (Notification T K) :=
  ({ d with mObservers := d.mObservers.map fun w => (d.considerNotify lifecycle w).1 },
    d.mObservers.flatMap fun w => (d.considerNotify lifecycle w).2)

/-- The value is set. -/
def setValue (d : LiveData T K O) (lifecycle : O → State) (value : T) : LiveData T K O × List (Notification T K) :=
  { d with
    mData := some value
    mVersion := d.mVersion + 1 }.dispatchingValue lifecycle

/-- An observer becomes active, and is considered then, or inactive. -/
def activeStateChanged (d : LiveData T K O) (lifecycle : O → State) (newActive : Bool) (w : ObserverWrapper K O) :
    ObserverWrapper K O × List (Notification T K) :=
  if newActive = w.mActive then (w, [])
  else if newActive then d.considerNotify lifecycle { w with mActive := true }
  else ({ w with mActive := false }, [])

/-- The registered observer with this key. -/
def find (d : LiveData T K O) (observer : K) : Option (ObserverWrapper K O) := d.mObservers.find? (·.mObserver = observer)

/-- An observer is registered, unless its owner is destroyed or it is registered already; there is no result if that was
for another owner. -/
def observe (d : LiveData T K O) (lifecycle : O → State) (owner : O) (observer : K) :
    Option (LiveData T K O × List (Notification T K)) :=
  if lifecycle owner = .DESTROYED then some (d, [])
  else
    match d.find observer with
    | some existing => if existing.mOwner = owner then some (d, []) else none
    | none =>
      let (w, calls) := d.activeStateChanged lifecycle (lifecycle owner).isStarted ⟨observer, owner, false, START_VERSION⟩
      some ({ d with mObservers := d.mObservers ++ [w] }, calls)

/-- An observer of an owner that has come to a state. -/
def stateChanged (d : LiveData T K O) (lifecycle : O → State) (owner : O) (w : ObserverWrapper K O) :
    ObserverWrapper K O × List (Notification T K) :=
  if w.mOwner = owner then d.activeStateChanged lifecycle (lifecycle owner).isStarted w else (w, [])

/-- The lifecycle of an owner has come to a state: its observers become active or inactive, or are removed. -/
def onStateChanged (d : LiveData T K O) (lifecycle : O → State) (owner : O) : LiveData T K O × List (Notification T K) :=
  if lifecycle owner = .DESTROYED then ({ d with mObservers := d.mObservers.filter (·.mOwner ≠ owner) }, [])
  else
    ({ d with mObservers := d.mObservers.map fun w => (d.stateChanged lifecycle owner w).1 },
      d.mObservers.flatMap fun w => (d.stateChanged lifecycle owner w).2)

/-! ## What holds of every value -/

/-- A registered observer is active while its owner is started, has seen no value that was not set, and has seen the value
if it is active. -/
structure Kept (lifecycle : O → State) (version : Int) (w : ObserverWrapper K O) : Prop where
  active : w.mActive = (lifecycle w.mOwner).isStarted
  alive : lifecycle w.mOwner ≠ .DESTROYED
  start : START_VERSION ≤ w.mLastVersion
  last : w.mLastVersion ≤ version
  seen : w.mActive = true → w.mLastVersion = version

/-- The observers are registered once each and are as they should be, and there is a value if it was set. -/
structure Sound (lifecycle : O → State) (d : LiveData T K O) : Prop where
  once : (d.mObservers.map ObserverWrapper.mObserver).Nodup
  kept : ∀ w ∈ d.mObservers, Kept lifecycle d.mVersion w
  version : START_VERSION ≤ d.mVersion
  data : d.mData.isSome ↔ START_VERSION < d.mVersion

variable {d d' : LiveData T K O} {lifecycle lifecycle' : O → State} {w w' : ObserverWrapper K O}
  {calls : List (Notification T K)} {owner : O} {observer : K} {value : T}

omit [DecidableEq K] [DecidableEq O]

/-! ## Single steps -/

theorem considerNotify_inactive (hactive : w.mActive = false) : d.considerNotify lifecycle w = (w, []) := if_pos hactive

theorem considerNotify_stopped (hactive : ¬ w.mActive = false) (hstopped : (lifecycle w.mOwner).isStarted = false) :
    d.considerNotify lifecycle w = ({ w with mActive := false }, []) := by
  rw [considerNotify, if_neg hactive, if_pos hstopped]

theorem considerNotify_seen (hactive : ¬ w.mActive = false) (hstarted : ¬ (lifecycle w.mOwner).isStarted = false)
    (hseen : d.mVersion ≤ w.mLastVersion) : d.considerNotify lifecycle w = (w, []) := by
  rw [considerNotify, if_neg hactive, if_neg hstarted, if_pos hseen]

theorem considerNotify_unseen (hactive : ¬ w.mActive = false) (hstarted : ¬ (lifecycle w.mOwner).isStarted = false)
    (hunseen : ¬ d.mVersion ≤ w.mLastVersion) :
    d.considerNotify lifecycle w =
      ({ w with mLastVersion := d.mVersion }, d.mData.toList.map fun value => ⟨w.mObserver, d.mVersion, value⟩) := by
  rw [considerNotify, if_neg hactive, if_neg hstarted, if_neg hunseen]

/-- An observer is called with the present value. -/
theorem considerNotify_call {call : Notification T K} (h : call ∈ (d.considerNotify lifecycle w).2) :
    d.mData = some call.value ∧ call.observer = w.mObserver ∧ call.version = d.mVersion := by
  unfold considerNotify at h
  split_ifs at h
  · cases h
  · cases h
  · cases h
  · obtain ⟨value, hvalue, rfl⟩ := List.mem_map.mp h
    exact ⟨Option.mem_toList.mp hvalue, rfl, rfl⟩

/-- It has seen no version then that there is not, if it had seen none before. -/
theorem considerNotify_last (hlast : w.mLastVersion ≤ d.mVersion) :
    (d.considerNotify lifecycle w).1.mLastVersion ≤ d.mVersion := by
  unfold considerNotify
  split_ifs
  · exact hlast
  · exact hlast
  · exact hlast
  · exact Int.le_refl _

/-- Whom an observer belongs to does not change. -/
@[simp] theorem considerNotify_observer (d : LiveData T K O) (lifecycle : O → State) (w : ObserverWrapper K O) :
    (d.considerNotify lifecycle w).1.mObserver = w.mObserver ∧ (d.considerNotify lifecycle w).1.mOwner = w.mOwner := by
  unfold considerNotify
  split_ifs <;> exact ⟨rfl, rfl⟩

@[simp] theorem activeStateChanged_observer (d : LiveData T K O) (lifecycle : O → State) (newActive : Bool)
    (w : ObserverWrapper K O) :
    (d.activeStateChanged lifecycle newActive w).1.mObserver = w.mObserver ∧
      (d.activeStateChanged lifecycle newActive w).1.mOwner = w.mOwner := by
  unfold activeStateChanged
  split_ifs
  · exact ⟨rfl, rfl⟩
  · exact considerNotify_observer _ _ _
  · exact ⟨rfl, rfl⟩

@[simp] theorem stateChanged_observer [DecidableEq O] (d : LiveData T K O) (lifecycle : O → State) (owner : O)
    (w : ObserverWrapper K O) : (d.stateChanged lifecycle owner w).1.mObserver = w.mObserver := by
  unfold stateChanged
  split_ifs
  · exact (activeStateChanged_observer _ _ _ _).1
  · rfl

/-- No observer comes in when the value is set. -/
theorem setValue_observers (hw : w ∈ (d.setValue lifecycle value).1.mObservers) :
    ∃ v ∈ d.mObservers, v.mObserver = w.mObserver := by
  obtain ⟨v, hv, rfl⟩ := List.mem_map.mp hw
  exact ⟨v, hv, (considerNotify_observer _ _ v).1.symm⟩

theorem onStateChanged_observers [DecidableEq O] (hw : w ∈ (d.onStateChanged lifecycle owner).1.mObservers) :
    ∃ v ∈ d.mObservers, v.mObserver = w.mObserver := by
  unfold onStateChanged at hw
  split_ifs at hw
  · exact ⟨w, (List.mem_filter.mp hw).1, rfl⟩
  · obtain ⟨v, hv, rfl⟩ := List.mem_map.mp hw
    exact ⟨v, hv, (stateChanged_observer _ _ _ v).symm⟩

@[simp] theorem onStateChanged_version [DecidableEq O] (d : LiveData T K O) (lifecycle : O → State) (owner : O) :
    (d.onStateChanged lifecycle owner).1.mVersion = d.mVersion := by
  unfold onStateChanged
  split_ifs <;> rfl

/-- An active observer of a started owner has seen the value when it was considered. -/
theorem considerNotify_kept (hactive : w.mActive = (lifecycle w.mOwner).isStarted) (halive : lifecycle w.mOwner ≠ .DESTROYED)
    (hstart : START_VERSION ≤ w.mLastVersion) (hlast : w.mLastVersion ≤ d.mVersion) :
    Kept lifecycle d.mVersion (d.considerNotify lifecycle w).1 := by
  unfold considerNotify
  split_ifs with hinactive hstopped hseen
  · exact ⟨hactive, halive, hstart, hlast, fun h => by rw [hinactive] at h; cases h⟩
  · rw [hstopped] at hactive
    exact absurd hactive hinactive
  · exact ⟨hactive, halive, hstart, hlast, fun _ => Int.le_antisymm hlast hseen⟩
  · exact ⟨hactive, halive, by dsimp only; omega, Int.le_refl _, fun _ => rfl⟩

/-- So is an observer whose owner has come to another state. -/
theorem activeStateChanged_kept (halive : lifecycle w.mOwner ≠ .DESTROYED) (hstart : START_VERSION ≤ w.mLastVersion)
    (hlast : w.mLastVersion ≤ d.mVersion) (hseen : w.mActive = true → w.mLastVersion = d.mVersion) :
    Kept lifecycle d.mVersion (d.activeStateChanged lifecycle (lifecycle w.mOwner).isStarted w).1 := by
  unfold activeStateChanged
  split_ifs with hsame hstarted
  · exact ⟨hsame.symm, halive, hstart, hlast, hseen⟩
  · exact considerNotify_kept hstarted.symm halive hstart hlast
  · exact ⟨by simpa using hstarted, halive, hstart, hlast, fun h => by cases h⟩

/-! ## Operations keep it -/

/-- Observers that are changed one by one stay who they are. -/
theorem once_map {f : ObserverWrapper K O → ObserverWrapper K O} {ws : List (ObserverWrapper K O)}
    (hf : ∀ w, (f w).mObserver = w.mObserver) (h : (ws.map ObserverWrapper.mObserver).Nodup) :
    ((ws.map f).map ObserverWrapper.mObserver).Nodup := by
  rw [List.map_map]
  exact (List.map_congr_left fun w _ => hf w) ▸ h

theorem Sound.setValue (h : Sound lifecycle d) (value : T) : Sound lifecycle (d.setValue lifecycle value).1 := by
  have hversion := h.version
  refine ⟨once_map (fun w => (considerNotify_observer _ _ w).1) h.once, fun w hw => ?_, ?_, ?_⟩
  · obtain ⟨v, hv, rfl⟩ := List.mem_map.mp hw
    obtain ⟨hactive, halive, hstart, hlast, -⟩ := h.kept v hv
    exact considerNotify_kept hactive halive hstart (Int.le_trans hlast (Int.le_of_lt (Int.lt_succ _)))
  · exact Int.le_trans hversion (Int.le_of_lt (Int.lt_succ _))
  · exact iff_of_true rfl (Int.lt_of_le_of_lt hversion (Int.lt_succ _))

theorem Sound.onStateChanged [DecidableEq O] (h : Sound lifecycle d) (hother : ∀ o, o ≠ owner → lifecycle' o = lifecycle o) :
    Sound lifecycle' (d.onStateChanged lifecycle' owner).1 := by
  have hrest : ∀ w : ObserverWrapper K O, w.mOwner ≠ owner → Kept lifecycle d.mVersion w → Kept lifecycle' d.mVersion w := by
    rintro w hw ⟨hactive, halive, hstart, hlast, hseen⟩
    rw [← hother _ hw] at hactive halive
    exact ⟨hactive, halive, hstart, hlast, hseen⟩
  unfold LiveData.onStateChanged
  split_ifs with hdestroyed
  · refine ⟨h.once.sublist (List.filter_sublist.map _), fun w hw => ?_, h.version, h.data⟩
    obtain ⟨hw, hne⟩ := List.mem_filter.mp hw
    exact hrest w (of_decide_eq_true hne) (h.kept w hw)
  · refine ⟨once_map (stateChanged_observer _ _ _) h.once, fun w hw => ?_, h.version, h.data⟩
    obtain ⟨v, hv, rfl⟩ := List.mem_map.mp hw
    have hkept := h.kept v hv
    unfold stateChanged
    split_ifs with howner
    · subst howner
      exact activeStateChanged_kept hdestroyed hkept.start hkept.last hkept.seen
    · exact hrest v howner hkept

variable [DecidableEq K]

theorem find_eq_none : d.find observer = none ↔ observer ∉ d.mObservers.map ObserverWrapper.mObserver := by
  simp [find]

theorem mem_of_find (h : d.find observer = some w) : w ∈ d.mObservers ∧ w.mObserver = observer :=
  ⟨List.mem_of_find?_eq_some h, by simpa using List.find?_some h⟩

variable [DecidableEq O]

/-- What `observe` does. -/
inductive Observed (d : LiveData T K O) (lifecycle : O → State) (owner : O) (observer : K) :
    LiveData T K O → List (Notification T K) → Prop where
  | destroyed : lifecycle owner = .DESTROYED → Observed d lifecycle owner observer d []
  | again (w : ObserverWrapper K O) : lifecycle owner ≠ .DESTROYED → d.find observer = some w → w.mOwner = owner →
      Observed d lifecycle owner observer d []
  | registered (w : ObserverWrapper K O) (calls : List (Notification T K)) : lifecycle owner ≠ .DESTROYED →
      d.find observer = none → d.activeStateChanged lifecycle (lifecycle owner).isStarted ⟨observer, owner, false, START_VERSION⟩ = (w, calls) →
      Observed d lifecycle owner observer { d with mObservers := d.mObservers ++ [w] } calls

theorem observe_cases (h : d.observe lifecycle owner observer = some (d', calls)) :
    Observed d lifecycle owner observer d' calls := by
  unfold observe at h
  split_ifs at h with hdestroyed
  · cases h
    exact .destroyed hdestroyed
  · cases hfind : d.find observer with
    | some w =>
      rw [hfind] at h
      obtain ⟨howner, heq⟩ := Option.ite_none_right_eq_some.mp h
      cases heq
      exact .again w hdestroyed hfind howner
    | none =>
      rw [hfind] at h
      cases h
      exact .registered _ _ hdestroyed hfind rfl

/-- Where an observer is not registered, nothing happens. -/
theorem observe_known (hknown : lifecycle owner = .DESTROYED ∨ (d.find observer).isSome)
    (h : d.observe lifecycle owner observer = some (d', calls)) : d' = d ∧ calls = [] := by
  cases observe_cases h with
  | destroyed => exact ⟨rfl, rfl⟩
  | again => exact ⟨rfl, rfl⟩
  | registered w calls halive hnone hw =>
    rw [hnone] at hknown
    exact absurd hknown (by simp [halive])

/-- Where it is, and there is nothing to call it with. -/
theorem observe_quiet (halive : lifecycle owner ≠ .DESTROYED) (hnone : d.find observer = none)
    (hquiet : (lifecycle owner).isStarted = true → d.mVersion = START_VERSION) :
    d.observe lifecycle owner observer =
      some ({ d with mObservers := d.mObservers ++ [⟨observer, owner, (lifecycle owner).isStarted, START_VERSION⟩] }, []) := by
  have hw : d.activeStateChanged lifecycle (lifecycle owner).isStarted ⟨observer, owner, false, START_VERSION⟩ =
      (⟨observer, owner, (lifecycle owner).isStarted, START_VERSION⟩, []) := by
    cases hstarted : (lifecycle owner).isStarted with
    | false => exact if_pos rfl
    | true =>
      exact @considerNotify_seen T K O d lifecycle ⟨observer, owner, true, START_VERSION⟩ (by simp) (by simp [hstarted])
        (Int.le_of_eq (hquiet hstarted))
  rw [observe, if_neg halive, hnone]
  simp only [hw]

theorem State.isStarted_ne {state : State} (h : state.isStarted = true) : state ≠ .DESTROYED := by
  rintro rfl
  cases h

/-- Where its owner is started and there is a value, an observer is called while it is registered. -/
theorem observe_started (hstarted : (lifecycle owner).isStarted = true) (hnone : d.find observer = none)
    (hset : START_VERSION < d.mVersion) :
    d.observe lifecycle owner observer =
      some ({ d with mObservers := d.mObservers ++ [⟨observer, owner, true, d.mVersion⟩] },
        d.mData.toList.map fun value => ⟨observer, d.mVersion, value⟩) := by
  have hw := @considerNotify_unseen T K O d lifecycle ⟨observer, owner, true, START_VERSION⟩ (by simp) (by simp [hstarted])
    (Int.not_le.mpr hset)
  rw [observe, if_neg (State.isStarted_ne hstarted), hnone]
  simp only [activeStateChanged, hstarted, Bool.true_eq_false, if_false, if_true, hw]

omit [DecidableEq K] in
/-- An observer that has not seen the value is called when its owner is started. -/
theorem onStateChanged_started (hw : w ∈ d.mObservers) (hactive : w.mActive = false) (hunseen : w.mLastVersion < d.mVersion)
    (hdata : d.mData = some value) (hstarted : (lifecycle w.mOwner).isStarted = true) :
    ⟨w.mObserver, d.mVersion, value⟩ ∈ (d.onStateChanged lifecycle w.mOwner).2 := by
  have hcall := @considerNotify_unseen T K O d lifecycle { w with mActive := true } (by simp) (by simp [hstarted])
    (Int.not_le.mpr hunseen)
  rw [onStateChanged, if_neg (State.isStarted_ne hstarted)]
  refine List.mem_flatMap.mpr ⟨w, hw, ?_⟩
  simp [stateChanged, activeStateChanged, hactive, hstarted, hcall, hdata]

theorem Sound.observe (h : Sound lifecycle d) (hobserve : d.observe lifecycle owner observer = some (d', calls)) :
    Sound lifecycle d' := by
  cases observe_cases hobserve with
  | destroyed => exact h
  | again => exact h
  | registered w calls halive hnone hw =>
    obtain ⟨hobserver, howner⟩ := activeStateChanged_observer d lifecycle (lifecycle owner).isStarted
      ⟨observer, owner, false, START_VERSION⟩
    have hkept : Kept lifecycle d.mVersion
        (d.activeStateChanged lifecycle (lifecycle owner).isStarted ⟨observer, owner, false, START_VERSION⟩).1 :=
      @activeStateChanged_kept T K O d lifecycle ⟨observer, owner, false, START_VERSION⟩ halive (Int.le_refl _) h.version
        fun hactive => absurd hactive Bool.false_ne_true
    rw [hw] at hobserver howner hkept
    refine ⟨?_, fun w' hw' => ?_, h.version, h.data⟩
    · rw [List.map_append, List.map_singleton, hobserver]
      refine List.nodup_append.mpr ⟨h.once, List.pairwise_singleton _ _, fun a ha b hb hab => ?_⟩
      rw [hab, List.mem_singleton.mp hb] at ha
      exact find_eq_none.mp hnone ha
    · rcases List.mem_append.mp hw' with hw' | hw'
      · exact h.kept w' hw'
      · rw [List.mem_singleton.mp hw']
        exact hkept

end LiveData

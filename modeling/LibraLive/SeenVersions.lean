import LibraLive.LiveData

/-!
# Versions that were seen

Two uses of a value that differ in the versions that the observers have seen: in one of them every observer has seen the
version of some moment too. It is called less often there, and with the rest of the calls.
-/

namespace LiveData

variable {T K O : Type*} {registered : K → Int} {d : LiveData T K O} {lifecycle : O → State} {w : ObserverWrapper K O}

/-- A call with a value that was set after a moment, which is given for every observer. -/
def isNew (registered : K → Int) (call : Notification T K) : Bool := registered call.observer < call.version

/-- The observer, having seen the version of its moment. -/
def raised (registered : K → Int) (w : ObserverWrapper K O) : ObserverWrapper K O :=
  { w with mLastVersion := max (registered w.mObserver) w.mLastVersion }

def raiseAll (registered : K → Int) (d : LiveData T K O) : LiveData T K O :=
  { d with mObservers := d.mObservers.map (raised registered) }

@[simp] theorem raised_observer (registered : K → Int) (w : ObserverWrapper K O) :
    (raised registered w).mObserver = w.mObserver := rfl

@[simp] theorem raised_owner (registered : K → Int) (w : ObserverWrapper K O) : (raised registered w).mOwner = w.mOwner := rfl

theorem find_raiseAll [DecidableEq K] {observer : K} :
    (raiseAll registered d).find observer = (d.find observer).map (raised registered) := by
  rw [find, raiseAll, List.find?_map]
  rfl

/-- The versions of these moments are versions that there were. -/
def Registered (registered : K → Int) (d : LiveData T K O) : Prop := ∀ w ∈ d.mObservers, registered w.mObserver ≤ d.mVersion

/-! ## What is missed -/

/-- It misses the value if that is not new to it, and nothing else. -/
theorem considerNotify_raised (hw : registered w.mObserver ≤ d.mVersion) :
    (raiseAll registered d).considerNotify lifecycle (raised registered w) =
      (raised registered (d.considerNotify lifecycle w).1, (d.considerNotify lifecycle w).2.filter (isNew registered)) := by
  by_cases hactive : w.mActive = false
  · rw [considerNotify_inactive hactive]
    exact considerNotify_inactive hactive
  by_cases hstopped : (lifecycle w.mOwner).isStarted = false
  · rw [considerNotify_stopped hactive hstopped]
    exact considerNotify_stopped hactive hstopped
  have hlast : (raised registered w).mLastVersion = max (registered w.mObserver) w.mLastVersion := rfl
  have hversion : (raiseAll registered d).mVersion = d.mVersion := rfl
  by_cases hseen : d.mVersion ≤ w.mLastVersion
  · rw [considerNotify_seen hactive hstopped hseen]
    exact considerNotify_seen hactive hstopped (by omega)
  rw [considerNotify_unseen hactive hstopped hseen]
  by_cases hnew : registered w.mObserver < d.mVersion
  · have hall : ∀ call ∈ d.mData.toList.map fun value => (⟨w.mObserver, d.mVersion, value⟩ : Notification T K),
        isNew registered call := by
      intro call hcall
      obtain ⟨value, -, rfl⟩ := List.mem_map.mp hcall
      exact decide_eq_true hnew
    have hraised := considerNotify_unseen (d := raiseAll registered d) (w := raised registered w) hactive hstopped (by omega)
    rw [List.filter_eq_self.mpr hall, hraised, raised, raised, Int.max_eq_right hw]
    rfl
  · have hnone : ∀ call ∈ d.mData.toList.map fun value => (⟨w.mObserver, d.mVersion, value⟩ : Notification T K),
        ¬ isNew registered call := by
      intro call hcall
      obtain ⟨value, -, rfl⟩ := List.mem_map.mp hcall
      exact fun h => hnew (of_decide_eq_true h)
    have heq : registered w.mObserver = d.mVersion := by omega
    have hraised := considerNotify_seen (d := raiseAll registered d) (w := raised registered w) hactive hstopped (by omega)
    rw [List.filter_eq_nil_iff.mpr hnone, hraised, raised, raised, heq, Int.max_self, Int.max_eq_left (by omega)]

theorem activeStateChanged_raised (newActive : Bool) (hw : registered w.mObserver ≤ d.mVersion) :
    (raiseAll registered d).activeStateChanged lifecycle newActive (raised registered w) =
      (raised registered (d.activeStateChanged lifecycle newActive w).1,
        (d.activeStateChanged lifecycle newActive w).2.filter (isNew registered)) := by
  have hactive : (raised registered w).mActive = w.mActive := rfl
  by_cases hsame : newActive = w.mActive
  · rw [activeStateChanged, activeStateChanged, hactive, if_pos hsame, if_pos hsame]
    rfl
  · rw [activeStateChanged, activeStateChanged, hactive, if_neg hsame, if_neg hsame]
    cases newActive with
    | false => rfl
    | true => exact considerNotify_raised (w := { w with mActive := true }) hw

/-- So do all observers, if each does. -/
theorem each_raised {f f' : ObserverWrapper K O → ObserverWrapper K O × List (Notification T K)}
    {ws : List (ObserverWrapper K O)}
    (h : ∀ w ∈ ws, f' (raised registered w) = (raised registered (f w).1, (f w).2.filter (isNew registered))) :
    ((ws.map (raised registered)).map fun w => (f' w).1) = (ws.map fun w => (f w).1).map (raised registered) ∧
      ((ws.map (raised registered)).flatMap fun w => (f' w).2) = (ws.flatMap fun w => (f w).2).filter (isNew registered) := by
  induction ws with
  | nil => exact ⟨rfl, rfl⟩
  | cons w ws ih =>
    obtain ⟨hmap, hflat⟩ := ih fun w hw => h w (List.mem_cons_of_mem _ hw)
    have hw := h w List.mem_cons_self
    refine ⟨?_, ?_⟩
    · simp only [List.map_cons, hw, hmap]
    · simp only [List.map_cons, List.flatMap_cons, hw, hflat, List.filter_append]

theorem setValue_raised (h : Registered registered d) (value : T) :
    (raiseAll registered d).setValue lifecycle value =
      (raiseAll registered (d.setValue lifecycle value).1, (d.setValue lifecycle value).2.filter (isNew registered)) := by
  have hnext : ∀ w ∈ d.mObservers, registered w.mObserver ≤ d.mVersion + 1 := fun w hw => by
    have := h w hw
    omega
  have heach := fun w hw =>
    @considerNotify_raised T K O registered { d with mData := some value, mVersion := d.mVersion + 1 } lifecycle w (hnext w hw)
  obtain ⟨hmap, hflat⟩ := each_raised heach
  exact Prod.ext (congrArg (LiveData.mk (some value) (d.mVersion + 1)) hmap) hflat

theorem Registered.of_observers {d' : LiveData T K O} (h : Registered registered d) (hversion : d.mVersion ≤ d'.mVersion)
    (hobservers : ∀ w ∈ d'.mObservers, ∃ v ∈ d.mObservers, v.mObserver = w.mObserver) : Registered registered d' := by
  intro w hw
  obtain ⟨v, hv, heq⟩ := hobservers w hw
  have := heq ▸ h v hv
  omega

/-- The moment of an observer may be now. -/
theorem Registered.update [DecidableEq K] (h : Registered registered d) (observer : K) :
    Registered (Function.update registered observer d.mVersion) d := by
  intro w hw
  by_cases heq : w.mObserver = observer
  · exact Int.le_of_eq (by rw [heq, Function.update_self])
  · rw [Function.update_of_ne heq]
    exact h w hw

theorem Registered.append [DecidableEq K] (h : Registered registered d) (w : ObserverWrapper K O) :
    Registered (Function.update registered w.mObserver d.mVersion) { d with mObservers := d.mObservers ++ [w] } := by
  intro v hv
  rcases List.mem_append.mp hv with hv | hv
  · exact h.update w.mObserver v hv
  · rw [List.mem_singleton.mp hv]
    exact Int.le_of_eq (Function.update_self ..)

variable [DecidableEq O]

theorem stateChanged_raised (owner : O) (hw : registered w.mObserver ≤ d.mVersion) :
    (raiseAll registered d).stateChanged lifecycle owner (raised registered w) =
      (raised registered (d.stateChanged lifecycle owner w).1,
        (d.stateChanged lifecycle owner w).2.filter (isNew registered)) := by
  by_cases howner : w.mOwner = owner
  · rw [stateChanged, stateChanged, if_pos howner, if_pos (show (raised registered w).mOwner = owner from howner)]
    exact activeStateChanged_raised _ hw
  · rw [stateChanged, stateChanged, if_neg howner, if_neg (show ¬ (raised registered w).mOwner = owner from howner)]
    rfl

theorem onStateChanged_raised (h : Registered registered d) (owner : O) :
    (raiseAll registered d).onStateChanged lifecycle owner =
      (raiseAll registered (d.onStateChanged lifecycle owner).1,
        (d.onStateChanged lifecycle owner).2.filter (isNew registered)) := by
  by_cases hdestroyed : lifecycle owner = .DESTROYED
  · rw [onStateChanged, onStateChanged, if_pos hdestroyed, if_pos hdestroyed]
    exact Prod.ext (congrArg (LiveData.mk d.mData d.mVersion) List.filter_map) rfl
  · rw [onStateChanged, onStateChanged, if_neg hdestroyed, if_neg hdestroyed]
    have heach := fun w hw => @stateChanged_raised T K O registered d lifecycle w _ owner (h w hw)
    obtain ⟨hmap, hflat⟩ := each_raised heach
    exact Prod.ext (congrArg (LiveData.mk d.mData d.mVersion) hmap) hflat

end LiveData

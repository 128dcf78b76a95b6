import LibraLive.LiveData

/-!
# Observers that use the value they observe

An observer that is called may set the value, register others or change a lifecycle before it returns. The dispatch that
has called it waits for it, and starts again if it was asked to dispatch in the meantime. An owner comes to a state first,
and its observers are told one by one, at any time after that.
-/

namespace LiveData

/-- What a dispatch goes through: the observer that it was made for, or all of them, of which it has visited these. -/
inductive Round (K : Type*) where
  | initiator
  | all (visited : List K)
  deriving DecidableEq, Repr

/-- A value whose observers share a state. There is a `round` while a dispatch waits for an observer that it has called. -/
structure Dispatcher (T K O σ : Type*) where
  lifecycle : O → State
  liveData : LiveData T K O
  round : Option (Round K)
  mDispatchInvalidated : Bool
  client : σ

variable {T K O σ : Type*} [DecidableEq K]

/-- An observer is what it is now. -/
def update (d : LiveData T K O) (w : ObserverWrapper K O) : LiveData T K O :=
  { d with mObservers := d.mObservers.map fun v => if v.mObserver = w.mObserver then w else v }

namespace Dispatcher

variable (onChanged : σ → Notification T K → σ × Bool)

/-- Nothing was set or registered. -/
def start (client : σ) : Dispatcher T K O σ where
  lifecycle _ := .INITIALIZED
  liveData := LiveData.empty
  round := none
  mDispatchInvalidated := false
  client

/-- An observer is considered. `onChanged` says what it does at once when it is called, and whether it goes on then. -/
def considerNotify (s : Dispatcher T K O σ) (w : ObserverWrapper K O) : Dispatcher T K O σ × Bool :=
  let (w, calls) := s.liveData.considerNotify s.lifecycle w
  let s := { s with liveData := s.liveData.update w }
  match calls with
  | [] => (s, false)
  | call :: _ =>
    let (client, goesOn) := onChanged s.client call
    ({ s with client }, goesOn)

/-- Observers are considered in turn, up to the first one that goes on. -/
def visit (s : Dispatcher T K O σ) (visited : List K) : List (ObserverWrapper K O) → Dispatcher T K O σ
  | [] => { s with round := none }
  | w :: ws =>
    let (s, goesOn) := s.considerNotify onChanged w
    if goesOn then { s with round := some (.all (visited ++ [w.mObserver])) }
    else visit s (visited ++ [w.mObserver]) ws

/-- The observers that were not visited, with those that were registered in the meantime. -/
def visitRest (s : Dispatcher T K O σ) (visited : List K) : Dispatcher T K O σ :=
  s.visit onChanged visited (s.liveData.mObservers.filter (·.mObserver ∉ visited))

/-- A dispatch, to one observer or to all. While there is one it is only noted. -/
def dispatchingValue (s : Dispatcher T K O σ) (initiator : Option (ObserverWrapper K O)) : Dispatcher T K O σ :=
  if s.round.isSome then { s with mDispatchInvalidated := true }
  else
    match initiator with
    | none => { s with mDispatchInvalidated := false }.visitRest onChanged []
    | some w =>
      let (s, goesOn) := { s with mDispatchInvalidated := false }.considerNotify onChanged w
      { s with round := if goesOn then some .initiator else none }

/-- The observer that goes on returns, and the dispatch that has waited for it starts again, goes on or ends. -/
def returned (s : Dispatcher T K O σ) : Option (Dispatcher T K O σ) :=
  s.round.map fun round =>
    if s.mDispatchInvalidated then { s with mDispatchInvalidated := false }.visitRest onChanged []
    else
      match round with
      | .initiator => { s with round := none }
      | .all visited => s.visitRest onChanged visited

/-- The value is set. -/
def setValue (s : Dispatcher T K O σ) (value : T) : Dispatcher T K O σ :=
  { s with
    liveData := { s.liveData with
      mData := some value
      mVersion := s.liveData.mVersion + 1 } }.dispatchingValue onChanged none

variable [DecidableEq O]

/-- An observer is registered, and is not active yet. There is no result if it is registered for another owner. -/
def observe (s : Dispatcher T K O σ) (owner : O) (observer : K) : Option (Dispatcher T K O σ) :=
  if s.lifecycle owner = .DESTROYED then some s
  else
    match s.liveData.find observer with
    | some existing => if existing.mOwner = owner then some s else none
    | none => some { s with
        liveData := { s.liveData with
          mObservers := s.liveData.mObservers ++ [⟨observer, owner, false, START_VERSION⟩] } }

/-- An owner comes to a state, unless it is destroyed already. -/
def moveTo (s : Dispatcher T K O σ) (owner : O) (state : State) : Option (Dispatcher T K O σ) :=
  if s.lifecycle owner = .DESTROYED then none else some { s with lifecycle := Function.update s.lifecycle owner state }

omit [DecidableEq O]

/-- A registered observer becomes active or inactive. -/
def activeStateChanged (s : Dispatcher T K O σ) (newActive : Bool) (w : ObserverWrapper K O) : Dispatcher T K O σ :=
  if newActive = w.mActive then s
  else
    let w := { w with mActive := newActive }
    let s := { s with liveData := s.liveData.update w }
    if newActive then s.dispatchingValue onChanged (some w) else s

/-- An observer is told that its owner has come to a state. -/
def onStateChanged (s : Dispatcher T K O σ) (observer : K) : Option (Dispatcher T K O σ) :=
  (s.liveData.find observer).map fun w =>
    if s.lifecycle w.mOwner = .DESTROYED then
      { s with liveData := { s.liveData with mObservers := s.liveData.mObservers.filter (·.mObserver ≠ observer) } }
    else s.activeStateChanged onChanged (s.lifecycle w.mOwner).isStarted w

/-! ## Single steps -/

variable {onChanged} {s s' : Dispatcher T K O σ} {w : ObserverWrapper K O} {ws : List (ObserverWrapper K O)}
  {visited : List K} {owner : O} {observer : K} {state : State} {value : T}

/-- An observer that is considered is called with the present value, or not. -/
inductive Considered (onChanged : σ → Notification T K → σ × Bool) (s : Dispatcher T K O σ) (w : ObserverWrapper K O) :
    Dispatcher T K O σ × Bool → Prop where
  | quiet : (s.liveData.considerNotify s.lifecycle w).2 = [] →
      Considered onChanged s w
        ({ s with liveData := s.liveData.update (s.liveData.considerNotify s.lifecycle w).1 }, false)
  | called (call : Notification T K) : call ∈ (s.liveData.considerNotify s.lifecycle w).2 →
      s.liveData.mData = some call.value →
      Considered onChanged s w
        ({ s with
            liveData := s.liveData.update (s.liveData.considerNotify s.lifecycle w).1
            client := (onChanged s.client call).1 },
          (onChanged s.client call).2)

theorem considerNotify_cases {result : Dispatcher T K O σ × Bool} (h : s.considerNotify onChanged w = result) :
    Considered onChanged s w result := by
  subst h
  unfold considerNotify
  cases hcalls : (s.liveData.considerNotify s.lifecycle w).2 with
  | nil =>
    simp only [hcalls]
    exact .quiet hcalls
  | cons call calls =>
    simp only [hcalls]
    have hmem : call ∈ (s.liveData.considerNotify s.lifecycle w).2 := by
      rw [hcalls]
      exact List.mem_cons_self
    exact .called call hmem (considerNotify_call hmem).1

theorem visit_cons (s : Dispatcher T K O σ) (visited : List K) (w : ObserverWrapper K O) (ws : List (ObserverWrapper K O)) :
    s.visit onChanged visited (w :: ws) =
      if (s.considerNotify onChanged w).2 then
        { (s.considerNotify onChanged w).1 with round := some (.all (visited ++ [w.mObserver])) }
      else (s.considerNotify onChanged w).1.visit onChanged (visited ++ [w.mObserver]) ws := rfl

theorem mem_update {d : LiveData T K O} {v : ObserverWrapper K O} (h : v ∈ (d.update w).mObservers) :
    v = w ∨ v ∈ d.mObservers := by
  obtain ⟨u, hu, rfl⟩ := List.mem_map.mp h
  split_ifs
  · exact Or.inl rfl
  · exact Or.inr hu

/-! ## What is kept -/

/-- What is true of the value and the state of the observers stays true when one of them is called with the value. -/
def Kept (onChanged : σ → Notification T K → σ × Bool) (I : Option T → σ → Prop) : Prop :=
  ∀ data client call, I data client → data = some call.value → I data (onChanged client call).1

/-- It is true, and no observer has seen a version that there is not. -/
structure Holds (I : Option T → σ → Prop) (s : Dispatcher T K O σ) : Prop where
  client : I s.liveData.mData s.client
  start : START_VERSION ≤ s.liveData.mVersion
  seen : ∀ w ∈ s.liveData.mObservers, w.mLastVersion ≤ s.liveData.mVersion

variable {I J : Option T → σ → Prop}

omit [DecidableEq K] in
theorem holds_start {client : σ} (h : I none client) : Holds I (start client : Dispatcher T K O σ) :=
  ⟨h, Int.le_refl _, fun _ hw => absurd hw List.not_mem_nil⟩

/-- An observer may be changed to one that has seen no more than there is. -/
theorem Holds.update (h : Holds I s) (hw : w.mLastVersion ≤ s.liveData.mVersion) :
    Holds I { s with liveData := s.liveData.update w } := by
  refine ⟨h.client, h.start, fun v hv => ?_⟩
  rcases mem_update hv with rfl | hv
  · exact hw
  · exact h.seen v hv

/-- A dispatch does not set the value. -/
theorem considerNotify_version (s : Dispatcher T K O σ) (w : ObserverWrapper K O) :
    (s.considerNotify onChanged w).1.liveData.mVersion = s.liveData.mVersion := by
  generalize hresult : s.considerNotify onChanged w = result
  cases considerNotify_cases hresult <;> rfl

theorem Holds.considerNotify (hI : Kept onChanged I) (h : Holds I s) (hw : w.mLastVersion ≤ s.liveData.mVersion) :
    Holds I (s.considerNotify onChanged w).1 := by
  have hlast : (s.liveData.considerNotify s.lifecycle w).1.mLastVersion ≤ s.liveData.mVersion := considerNotify_last hw
  have hupdate := h.update hlast
  generalize hresult : s.considerNotify onChanged w = result
  cases considerNotify_cases hresult with
  | quiet => exact hupdate
  | called call _ hdata => exact ⟨hI _ _ _ h.client hdata, hupdate.start, hupdate.seen⟩

omit [DecidableEq K] in
/-- The round of a dispatch is nothing that the observers know of. -/
theorem Holds.withRound (h : Holds I s) (round : Option (Round K)) : Holds I { s with round } :=
  ⟨h.client, h.start, h.seen⟩

omit [DecidableEq K] in
theorem Holds.invalidated (h : Holds I s) (mDispatchInvalidated : Bool) : Holds I { s with mDispatchInvalidated } :=
  ⟨h.client, h.start, h.seen⟩

theorem Holds.visit (hI : Kept onChanged I) (h : Holds I s) (hws : ∀ w ∈ ws, w.mLastVersion ≤ s.liveData.mVersion) :
    Holds I (s.visit onChanged visited ws) := by
  induction ws generalizing s visited with
  | nil => exact h.withRound none
  | cons w ws ih =>
    have hw := h.considerNotify hI (hws w List.mem_cons_self)
    rw [visit_cons]
    split_ifs
    · exact hw.withRound _
    · refine ih hw fun v hv => ?_
      rw [considerNotify_version]
      exact hws v (List.mem_cons_of_mem _ hv)

theorem Holds.visitRest (hI : Kept onChanged I) (h : Holds I s) (visited : List K) :
    Holds I (s.visitRest onChanged visited) :=
  h.visit hI fun w hw => h.seen w (List.mem_filter.mp hw).1

theorem Holds.dispatchingValue (hI : Kept onChanged I) (h : Holds I s) {initiator : Option (ObserverWrapper K O)}
    (hw : ∀ w ∈ initiator, w.mLastVersion ≤ s.liveData.mVersion) : Holds I (s.dispatchingValue onChanged initiator) := by
  unfold Dispatcher.dispatchingValue
  split_ifs
  · exact h.invalidated true
  · cases initiator with
    | none => exact (h.invalidated false).visitRest hI []
    | some w => exact ((h.invalidated false).considerNotify hI (hw w rfl)).withRound _

theorem Holds.returned (hI : Kept onChanged I) (h : Holds I s) (hs : s.returned onChanged = some s') : Holds I s' := by
  obtain ⟨round, -, rfl⟩ := Option.map_eq_some_iff.mp hs
  split_ifs
  · exact (h.invalidated false).visitRest hI []
  · cases round with
    | initiator => exact h.withRound none
    | all visited => exact h.visitRest hI visited

/-- What was true of the value before does not matter. -/
theorem Holds.setValue (hI : Kept onChanged I) (h : Holds J s) (hset : I (some value) s.client) :
    Holds I (s.setValue onChanged value) := by
  have hversion : s.liveData.mVersion ≤ s.liveData.mVersion + 1 := Int.le_of_lt (Int.lt_succ _)
  refine Holds.dispatchingValue hI ⟨hset, ?_, ?_⟩ (by simp)
  · exact Int.le_trans h.start hversion
  · exact fun w hw => Int.le_trans (h.seen w hw) hversion

theorem Holds.observe [DecidableEq O] (h : Holds I s) (hs : s.observe owner observer = some s') : Holds I s' := by
  unfold Dispatcher.observe at hs
  split_ifs at hs
  · cases hs
    exact h
  · split at hs
    · split_ifs at hs
      cases hs
      exact h
    · cases hs
      refine ⟨h.client, h.start, fun w hw => ?_⟩
      rcases List.mem_append.mp hw with hw | hw
      · exact h.seen w hw
      · rw [List.mem_singleton.mp hw]
        exact h.start

omit [DecidableEq K] in
theorem Holds.moveTo [DecidableEq O] (h : Holds I s) (hs : s.moveTo owner state = some s') : Holds I s' := by
  unfold Dispatcher.moveTo at hs
  split_ifs at hs
  cases hs
  exact ⟨h.client, h.start, h.seen⟩

theorem Holds.activeStateChanged (hI : Kept onChanged I) (h : Holds I s) (newActive : Bool)
    (hw : w.mLastVersion ≤ s.liveData.mVersion) : Holds I (s.activeStateChanged onChanged newActive w) := by
  have hupdate := h.update (w := { w with mActive := newActive }) hw
  unfold Dispatcher.activeStateChanged
  split_ifs
  · exact h
  · refine hupdate.dispatchingValue hI fun v hv => ?_
    obtain rfl := Option.some.inj hv
    exact hw
  · exact hupdate

theorem Holds.onStateChanged (hI : Kept onChanged I) (h : Holds I s) (hs : s.onStateChanged onChanged observer = some s') :
    Holds I s' := by
  obtain ⟨w, hfind, rfl⟩ := Option.map_eq_some_iff.mp hs
  split_ifs
  · exact ⟨h.client, h.start, fun v hv => h.seen v (List.mem_filter.mp hv).1⟩
  · exact h.activeStateChanged hI _ (h.seen w (mem_of_find hfind).1)

/-! ## Who is called -/

/-- An observer that is active, has an owner that is started, and has not seen the value. -/
structure Due (s : Dispatcher T K O σ) (w : ObserverWrapper K O) : Prop where
  active : w.mActive = true
  started : (s.lifecycle w.mOwner).isStarted = true
  unseen : w.mLastVersion < s.liveData.mVersion

/-- If an observer is due and every observer goes on that is called with the value, one of them is called, the first one. -/
theorem visit_first (hdue : ∃ w ∈ ws, s.Due w) (hdata : s.liveData.mData = some value)
    (hgoesOn : ∀ call, call.value = value → (onChanged s.client call).2 = true) :
    ∃ call, call.value = value ∧ (s.visit onChanged visited ws).client = (onChanged s.client call).1 ∧
      (s.visit onChanged visited ws).round.isSome := by
  induction ws generalizing s visited with
  | nil =>
    obtain ⟨w, hw, -⟩ := hdue
    cases hw
  | cons w ws ih =>
    rw [visit_cons]
    generalize hresult : s.considerNotify onChanged w = result
    cases considerNotify_cases hresult with
    | called call _ hvalue =>
      have hcall : call.value = value := Option.some.inj (hvalue.symm.trans hdata)
      rw [if_pos (hgoesOn call hcall)]
      exact ⟨call, hcall, rfl, rfl⟩
    | quiet hquiet =>
      refine ih ?_ hdata hgoesOn
      obtain ⟨v, hv, hactive, hstarted, hunseen⟩ := hdue
      rcases List.mem_cons.mp hv with rfl | hv
      · -- an observer that is due is called
        rw [considerNotify_unseen (by simp [hactive]) (by simp [hstarted]) (Int.not_le.mpr hunseen), hdata] at hquiet
        cases hquiet
      · exact ⟨v, hv, hactive, hstarted, hunseen⟩

/-- An observer is active, and its owner is started still. -/
def HasActive (s : Dispatcher T K O σ) : Prop :=
  ∃ w ∈ s.liveData.mObservers, w.mActive = true ∧ (s.lifecycle w.mOwner).isStarted = true

/-- Where there is no dispatch, setting the value calls an observer if there is an active one. -/
theorem Holds.setValue_first (h : Holds I s) (hround : s.round = none) (hactive : s.HasActive)
    (hgoesOn : ∀ call, call.value = value → (onChanged s.client call).2 = true) :
    ∃ call, call.value = value ∧ (s.setValue onChanged value).client = (onChanged s.client call).1 ∧
      (s.setValue onChanged value).round.isSome := by
  obtain ⟨w, hw, hactive, hstarted⟩ := hactive
  unfold Dispatcher.setValue Dispatcher.dispatchingValue
  rw [if_neg (by simp [hround])]
  refine visit_first ⟨w, ?_, hactive, hstarted, ?_⟩ rfl hgoesOn
  · exact List.mem_filter.mpr ⟨hw, by simp⟩
  · exact Int.lt_of_le_of_lt (h.seen w hw) (Int.lt_succ _)

end Dispatcher

end LiveData

import LibraLive.SingleLiveEvent

/-!
# An event is delivered once

However the observers of a `SingleLiveEvent` come and go, and whatever they do when they are called.
-/

namespace LibraLive

open LiveData

variable {T K O : Type*}

def LiveEvent.isSet : LiveEvent T K → Bool
  | .set _ => true
  | .changed _ _ => false

/-- The value that an operation sets. -/
def SingleOp.sets : SingleOp T K O → Option (Option T)
  | .setValue value => some value
  | .call => some none
  | _ => none

/-- From one `setValue` to the next there is one `onChanged` at most, with the value that was set, and there is none before
the first. -/
structure OncePerValue (events : List (LiveEvent T K)) : Prop where
  once : ∀ before value between after, events = before ++ .set value :: (between ++ after) →
    (∀ e ∈ between, e.isSet = false) → between.length ≤ 1 ∧ ∀ e ∈ between, ∃ observer, e = .changed observer value
  first : ∀ before after, events = before ++ after → (∀ e ∈ before, e.isSet = false) → before = []

/-- How the events come about, with whether the last value is pending and what it is. -/
inductive Delivered : Bool → List (LiveEvent T K) → Option T → Prop where
  | start : Delivered false [] none
  | set {pending : Bool} {events : List (LiveEvent T K)} {data : Option T} (value : T) : Delivered pending events data →
      Delivered true (events ++ [.set value]) (some value)
  | changed {events : List (LiveEvent T K)} (observer : K) (value : T) : Delivered true events (some value) →
      Delivered false (events ++ [.changed observer value]) (some value)

namespace Delivered

variable {pending : Bool} {events before after : List (LiveEvent T K)} {data : Option T} {value : T} {observer : K}

/-- A pending value was set last. -/
theorem last (h : Delivered true events (some value)) : ∃ before, events = before ++ [.set value] := by
  cases h with
  | @set _ before => exact ⟨before, rfl⟩

/-- Every `onChanged` follows the `setValue` of its value. -/
theorem follows (h : Delivered pending events data) (hevents : events = before ++ .changed observer value :: after) :
    ∃ rest, before = rest ++ [.set value] := by
  induction h generalizing after with
  | start => simp at hevents
  | set v _ ih =>
    obtain ⟨-, hlast, -⟩ | ⟨rest, -, hrest⟩ := Lts.snoc_cases hevents
    · cases hlast
    · exact ih hrest
  | changed o v hset ih =>
    obtain ⟨rfl, hlast, -⟩ | ⟨rest, -, hrest⟩ := Lts.snoc_cases hevents
    · cases hlast
      exact hset.last
    · exact ih hrest

theorem changed_of_not_set {e : LiveEvent T K} (h : e.isSet = false) : ∃ observer value, e = .changed observer value := by
  cases e with
  | set => cases h
  | changed observer value => exact ⟨observer, value, rfl⟩

theorem oncePerValue (h : Delivered pending events data) : OncePerValue events := by
  constructor
  · intro before value between after hevents hbetween
    cases between with
    | nil => exact ⟨Nat.zero_le _, fun e he => absurd he List.not_mem_nil⟩
    | cons e between =>
      obtain ⟨observer, v, rfl⟩ := changed_of_not_set (hbetween e List.mem_cons_self)
      rw [List.cons_append, List.append_cons] at hevents
      obtain ⟨rest, hrest⟩ := h.follows hevents
      obtain ⟨-, hlast⟩ := List.append_inj' hrest rfl
      cases hlast
      cases between with
      | nil =>
        refine ⟨Nat.le_refl _, fun e he => ⟨observer, List.mem_singleton.mp he⟩⟩
      | cons e between =>
        -- the event before a second `onChanged` is the first one and no `setValue`
        obtain ⟨o, v, rfl⟩ := changed_of_not_set (hbetween e (by simp))
        rw [List.cons_append, List.append_cons] at hevents
        obtain ⟨rest, hrest⟩ := h.follows hevents
        obtain ⟨-, hlast⟩ := List.append_inj' hrest rfl
        cases hlast
  · intro before after hevents hbefore
    cases before with
    | nil => rfl
    | cons e before =>
      obtain ⟨observer, value, rfl⟩ := changed_of_not_set (hbefore e List.mem_cons_self)
      have hevents : events = [] ++ .changed observer value :: (before ++ after) := hevents
      obtain ⟨rest, hrest⟩ := h.follows hevents
      exact absurd hrest.symm (by simp)

end Delivered

namespace SingleLiveEvent

variable [DecidableEq K] [DecidableEq O] {s s' : SingleLiveEvent T K O} {op : SingleOp T K O} {value : Option T}
  {I : Option (Option T) → SingleFields (Option T) K → Prop}

/-- The values that were set so far. -/
def Deliveries (data : Option (Option T)) (fields : SingleFields (Option T) K) : Prop :=
  Delivered fields.pending fields.events data

/-- Nothing is pending, and these are the events. -/
def Settled (events : List (LiveEvent (Option T) K)) (_data : Option (Option T)) (fields : SingleFields (Option T) K) :
    Prop :=
  fields.pending = false ∧ fields.events = events

omit [DecidableEq K] in
theorem kept_deliveries : Dispatcher.Kept (K := SingleObserver K) onChanged (Deliveries (T := T)) := by
  intro data fields call h hdata
  unfold onChanged
  split_ifs with hpending
  · unfold Deliveries at h ⊢
    rw [hpending, hdata] at h
    rw [hdata]
    exact .changed _ _ h
  · exact h

omit [DecidableEq K] in
theorem kept_settled (events : List (LiveEvent (Option T) K)) :
    Dispatcher.Kept (K := SingleObserver K) onChanged (Settled events) := by
  intro data fields call h hdata
  unfold onChanged
  rw [if_neg (by simp [h.1])]
  exact h

/-- What is kept when an observer is called is kept by everything that sets no value. -/
theorem holds_step (hI : Dispatcher.Kept onChanged I)
    (hobserve : ∀ data fields observers warnings, I data fields → I data { fields with observers, warnings })
    (h : s.Holds I) (hop : op.sets = none) (hs : step s op = some s') : s'.Holds I := by
  cases op with
  | setValue value => cases hop
  | call => cases hop
  | observe owner observer =>
    refine Dispatcher.Holds.observe ?_ (show SingleLiveEvent.observe s owner observer = some s' from hs)
    exact ⟨hobserve _ _ _ _ h.client, h.start, h.seen⟩
  | moveTo owner state => exact h.moveTo hs
  | onStateChanged observer => exact h.onStateChanged hI hs
  | returned => exact h.returned hI hs

/-- The same for any number of operations. -/
theorem holds_replay (hI : Dispatcher.Kept onChanged I)
    (hobserve : ∀ data fields observers warnings, I data fields → I data { fields with observers, warnings })
    {ops : List (SingleOp T K O)} (h : s.Holds I) (hops : ∀ op ∈ ops, op.sets = none)
    (hs : Lts.replay step s ops = some s') : s'.Holds I := by
  induction ops generalizing s with
  | nil =>
    cases hs
    exact h
  | cons op ops ih =>
    obtain ⟨mid, hmid, hrest⟩ := Option.bind_eq_some_iff.mp hs
    have hnext := holds_step hI hobserve h (hops op List.mem_cons_self) hmid
    exact ih hnext (fun o ho => hops o (List.mem_cons_of_mem _ ho)) hrest

omit [DecidableEq O] in
/-- A value that is set is pending, until an observer gets it. -/
theorem setValue_deliveries (h : s.Holds Deliveries) (value : Option T) : (setValue s value).Holds Deliveries := by
  refine Dispatcher.Holds.setValue (J := fun _ _ => True) kept_deliveries ⟨trivial, h.start, h.seen⟩ ?_
  exact .set value h.client

theorem step_of_sets (hop : op.sets = some value) : step s op = some (setValue s value) := by
  cases op <;> cases hop <;> rfl

theorem deliveries (h : (lts T K O).Reachable s) : s.Holds Deliveries := by
  refine Lts.Reachable.invariant ?_ ?_ h
  · rintro s rfl
    exact Dispatcher.holds_start .start
  · intro s op s' _ ih hs
    cases hsets : op.sets with
    | some value =>
      cases (step_of_sets hsets).symm.trans hs
      exact setValue_deliveries ih value
    | none => exact holds_step kept_deliveries (fun _ _ _ _ h => h) ih hsets hs

omit [DecidableEq O] in
/-- Where there is no dispatch and an observer is active, one gets the value at once. -/
theorem setValue_settles (h : s.Holds Deliveries) (hround : s.round = none) (hactive : s.HasActive) (value : Option T) :
    ∃ observer, (setValue s value).Holds (Settled (s.client.events ++ [.set value, .changed observer value])) := by
  have hdone := setValue_deliveries h value
  let fields : SingleFields (Option T) K := { s.client with
    pending := true
    events := s.client.events ++ [.set value] }
  have hset : Dispatcher.Holds (fun _ _ => True) { s with client := fields } := ⟨trivial, h.start, h.seen⟩
  -- every observer goes on that is called now, since the value is pending
  have hgoesOn : ∀ call, call.value = value → (onChanged fields call).2 = true := fun _ _ => rfl
  obtain ⟨call, hvalue, hclient, -⟩ := hset.setValue_first hround hactive hgoesOn
  have hfields : (setValue s value).client = { fields with
      pending := false
      events := fields.events ++ [.changed call.observer.observer call.value] } := hclient
  refine ⟨call.observer.observer, ⟨?_, ?_⟩, hdone.start, hdone.seen⟩
  · rw [hfields]
  · rw [hfields, hvalue]
    exact List.append_assoc _ _ _

/-- In every run there is one `onChanged` at most from one `setValue` to the next, with the value that was set. Where an
observer is active and there is no dispatch, there is exactly one. -/
theorem single_delivery (h : (lts T K O).Reachable s) : OncePerValue s.client.events ∧
    ∀ op value, op.sets = some value → s.round = none → s.HasActive →
      ∃ s' observer, step s op = some s' ∧ ∀ ops s'', (∀ op ∈ ops, op.sets = none) → Lts.replay step s' ops = some s'' →
        s''.client.events = s.client.events ++ [.set value, .changed observer value] := by
  have hdeliveries := deliveries h
  refine ⟨hdeliveries.client.oncePerValue, fun op value hop hround hactive => ?_⟩
  obtain ⟨observer, hsettled⟩ := setValue_settles hdeliveries hround hactive value
  refine ⟨_, observer, step_of_sets hop, fun ops s'' hops hs => ?_⟩
  exact (holds_replay (kept_settled _) (fun _ _ _ _ h => h) hsettled hops hs).client.2

/-- The value that `SharedViewModel` begins with is set before anything else is done. -/
theorem sharedViewModel_reachable : (lts Int32 K O).Reachable SharedViewModel.state :=
  .step (a := .setValue (some 0)) (.init rfl) rfl

/-- The value that `SharedViewModel` begins with is pending until an observer becomes active; the observer sets another one
before it returns, and gets that too. A second observer gets neither. -/
theorem single_delivery_example : ∃ s : SingleLiveEvent Int32 Nat Nat, (lts Int32 Nat Nat).Reachable s ∧
    s.client.events = [.set (some 0), .changed 10 (some 0), .set (some 1), .changed 10 (some 1)] ∧
    OncePerValue s.client.events ∧ ∃ s' observer, step s .call = some s' ∧
      s'.client.events = s.client.events ++ [.set none, .changed observer none] := by
  have hrun : (Lts.replay step SharedViewModel.state [.observe 0 10, .observe 1 11, .moveTo 0 .STARTED,
      .onStateChanged ⟨0, 10⟩, .setValue (some 1), .returned, .returned, .moveTo 1 .RESUMED, .onStateChanged ⟨1, 11⟩]).map
      (fun s : SingleLiveEvent Int32 Nat Nat => (s.client.events, s.round,
        s.liveData.mObservers.any fun w => w.mActive && (s.lifecycle w.mOwner).isStarted)) =
      some ([.set (some 0), .changed 10 (some 0), .set (some 1), .changed 10 (some 1)], none, true) := by decide
  obtain ⟨s, hs, hfinal⟩ := Option.map_eq_some_iff.mp hrun
  obtain ⟨hevents, hfinal⟩ := Prod.mk.inj hfinal
  obtain ⟨hround, hany⟩ := Prod.mk.inj hfinal
  have hreach := Lts.replay_reachable (L := lts Int32 Nat Nat) (fun _ _ _ h => h) _ sharedViewModel_reachable hs
  obtain ⟨w, hw, hactive⟩ := List.any_eq_true.mp hany
  obtain ⟨honce, hset⟩ := single_delivery hreach
  obtain ⟨s', observer, hstep, hnext⟩ := hset .call none rfl hround ⟨w, hw, Bool.and_eq_true_iff.mp hactive⟩
  exact ⟨s, hreach, hevents, honce, s', observer, hstep, hnext [] s' (by simp) rfl⟩

end SingleLiveEvent

end LibraLive

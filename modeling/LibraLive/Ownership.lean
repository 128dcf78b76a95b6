import Mathlib.Data.List.Perm.Basic
import Mathlib.Data.List.Nodup
import Mathlib.Data.List.Induction

/-!
# Ownership as a discipline on events

A thread that gets objects, uses them and gives them away, as the list of what it does. The discipline is checked by following
what is held: nothing is acquired that is held already, and nothing is used or given away that is not held.
-/

/-- What a thread does with an object: it acquires it, uses it, passes it to somebody else, or frees it. -/
inductive OwnEvent (α : Type*) where
  | acquire (a : α)
  | use (a : α)
  | pass (a : α)
  | free (a : α)
  deriving DecidableEq, Repr

namespace OwnEvent

variable {α : Type*}

/-- The object. -/
def object : OwnEvent α → α
  | acquire a | use a | pass a | free a => a

/-- The object becomes the thread's. -/
def acquires : OwnEvent α → Bool
  | acquire _ => true
  | _ => false

/-- The object is not the thread's any more. -/
def gives : OwnEvent α → Bool
  | pass _ | free _ => true
  | _ => false

/-- The object has to be the thread's. -/
def touches : OwnEvent α → Bool
  | acquire _ => false
  | _ => true

end OwnEvent

namespace Ownership

variable {α : Type*} [DecidableEq α] {held held' held₂ : List α} {events : List (OwnEvent α)} {a : α}

/-- What is held after one event, if the event is allowed. -/
def step (held : List α) : OwnEvent α → Option (List α)
  | .acquire a => if a ∈ held then none else some (a :: held)
  | .use a => if a ∈ held then some held else none
  | .pass a | .free a => if a ∈ held then some (held.erase a) else none

/-- What is held after the events, if they are allowed in turn. -/
def run : List α → List (OwnEvent α) → Option (List α)
  | held, [] => some held
  | held, e :: events => (step held e).bind (run · events)

@[simp] theorem run_nil (held : List α) : run held [] = some held := rfl

@[simp] theorem run_cons (held : List α) (e : OwnEvent α) (events : List (OwnEvent α)) :
    run held (e :: events) = (step held e).bind (run · events) := rfl

/-- Events in two parts. -/
theorem run_append (held : List α) (events more : List (OwnEvent α)) :
    run held (events ++ more) = (run held events).bind (run · more) := by
  induction events generalizing held with
  | nil => rfl
  | cons e events ih =>
    rw [List.cons_append, run_cons, run_cons, Option.bind_assoc]
    cases step held e with
    | none => rfl
    | some held' => exact ih held'

/-! ## Order does not matter -/

/-- What may happen next depends on what is held and not on its order. -/
theorem step_perm {e : OwnEvent α} (hp : held.Perm held₂) (h : step held e = some held') :
    ∃ held₂', step held₂ e = some held₂' ∧ held'.Perm held₂' := by
  cases e with
  | acquire a =>
    simp only [step, Option.ite_none_left_eq_some] at h ⊢
    obtain ⟨hnot, h⟩ := h
    cases h
    exact ⟨_, ⟨fun hmem => hnot (hp.mem_iff.mpr hmem), rfl⟩, hp.cons a⟩
  | use a =>
    simp only [step, Option.ite_none_right_eq_some] at h ⊢
    obtain ⟨hmem, h⟩ := h
    cases h
    exact ⟨_, ⟨hp.mem_iff.mp hmem, rfl⟩, hp⟩
  | pass a | free a =>
    simp only [step, Option.ite_none_right_eq_some] at h ⊢
    obtain ⟨hmem, h⟩ := h
    cases h
    exact ⟨_, ⟨hp.mem_iff.mp hmem, rfl⟩, hp.erase a⟩

/-- The same for any number of events. -/
theorem run_perm (hp : held.Perm held₂) (h : run held events = some held') :
    ∃ held₂', run held₂ events = some held₂' ∧ held'.Perm held₂' := by
  induction events generalizing held held₂ with
  | nil =>
    cases h
    exact ⟨held₂, rfl, hp⟩
  | cons e events ih =>
    obtain ⟨mid, hmid, hrest⟩ := Option.bind_eq_some_iff.mp h
    obtain ⟨mid₂, hmid₂, hp'⟩ := step_perm hp hmid
    obtain ⟨held₂', hrest₂, hp''⟩ := ih hp' hrest
    exact ⟨held₂', Option.bind_eq_some_iff.mpr ⟨mid₂, hmid₂, hrest₂⟩, hp''⟩

/-! ## What the discipline means -/

/-- Nothing is held twice. -/
theorem step_nodup {e : OwnEvent α} (hn : held.Nodup) (h : step held e = some held') : held'.Nodup := by
  cases e with
  | acquire a =>
    obtain ⟨hnot, h⟩ := Option.ite_none_left_eq_some.mp h
    cases h
    exact List.nodup_cons.mpr ⟨hnot, hn⟩
  | use a =>
    obtain ⟨-, h⟩ := Option.ite_none_right_eq_some.mp h
    cases h
    exact hn
  | pass a | free a =>
    obtain ⟨-, h⟩ := Option.ite_none_right_eq_some.mp h
    cases h
    exact hn.erase a

/-- Nothing is held twice after any number of events. -/
theorem run_nodup (hn : held.Nodup) (h : run held events = some held') : held'.Nodup := by
  induction events generalizing held with
  | nil =>
    cases h
    exact hn
  | cons e events ih =>
    obtain ⟨mid, hmid, hrest⟩ := Option.bind_eq_some_iff.mp h
    exact ih (step_nodup hn hmid) hrest

/-- What was acquired is held, or was passed on or freed, as often. -/
theorem count_run (h : run held events = some held') (a : α) : held.count a + events.count (.acquire a) =
    held'.count a + events.count (.pass a) + events.count (.free a) := by
  induction events generalizing held with
  | nil =>
    cases h
    rfl
  | cons e events ih =>
    obtain ⟨mid, hmid, hrest⟩ := Option.bind_eq_some_iff.mp h
    have hcount := ih hrest
    simp only [List.count_cons, beq_iff_eq]
    cases e with
    | acquire b =>
      obtain ⟨-, hmid⟩ := Option.ite_none_left_eq_some.mp hmid
      cases hmid
      rw [List.count_cons] at hcount
      simp only [beq_iff_eq, OwnEvent.acquire.injEq, reduceCtorEq, if_false] at hcount ⊢
      omega
    | use b =>
      obtain ⟨-, hmid⟩ := Option.ite_none_right_eq_some.mp hmid
      cases hmid
      simpa using hcount
    | pass b | free b =>
      obtain ⟨hmem, hmid⟩ := Option.ite_none_right_eq_some.mp hmid
      cases hmid
      have hpos := List.count_pos_iff.mpr hmem
      rw [List.count_erase] at hcount
      simp only [beq_iff_eq, OwnEvent.pass.injEq, OwnEvent.free.injEq, reduceCtorEq, if_false] at hcount ⊢
      split_ifs at hcount ⊢ with heq
      · subst heq
        omega
      · omega

/-- So is their number. -/
theorem length_run (h : run held events = some held') :
    held.length + events.countP OwnEvent.acquires = held'.length + events.countP OwnEvent.gives := by
  induction events generalizing held with
  | nil =>
    cases h
    rfl
  | cons e events ih =>
    obtain ⟨mid, hmid, hrest⟩ := Option.bind_eq_some_iff.mp h
    have hlength := ih hrest
    rw [List.countP_cons, List.countP_cons]
    cases e with
    | acquire b =>
      obtain ⟨-, hmid⟩ := Option.ite_none_left_eq_some.mp hmid
      cases hmid
      simp only [OwnEvent.acquires, OwnEvent.gives, List.length_cons, Bool.false_eq_true, if_true, if_false] at hlength ⊢
      omega
    | use b =>
      obtain ⟨-, hmid⟩ := Option.ite_none_right_eq_some.mp hmid
      cases hmid
      simpa [OwnEvent.acquires, OwnEvent.gives] using hlength
    | pass b | free b =>
      obtain ⟨hmem, hmid⟩ := Option.ite_none_right_eq_some.mp hmid
      cases hmid
      have hpos := List.length_pos_of_mem hmem
      rw [List.length_erase_of_mem hmem] at hlength
      simp only [OwnEvent.acquires, OwnEvent.gives, Bool.false_eq_true, if_true, if_false] at hlength ⊢
      omega

/-- What is not held and not acquired is not held later. -/
theorem not_mem_run (hnot : a ∉ held) (hacquire : .acquire a ∉ events) (h : run held events = some held') : a ∉ held' := by
  have hcount := count_run h a
  rw [List.count_eq_zero.mpr hnot, List.count_eq_zero.mpr hacquire] at hcount
  exact List.count_eq_zero.mp (by omega)

/-- An object that was given away is not touched before it is acquired again. -/
theorem acquired_between {before between after : List (OwnEvent α)} {e e' : OwnEvent α} (hn : held.Nodup)
    (h : run held (before ++ e :: between ++ e' :: after) = some held') (hgives : e.gives = true)
    (htouches : e'.touches = true) (hsame : e.object = e'.object) : .acquire e.object ∈ between := by
  by_contra hacquire
  rw [run_append, run_append] at h
  obtain ⟨mid, hmid, hafter⟩ := Option.bind_eq_some_iff.mp h
  obtain ⟨start, hstart, hmid⟩ := Option.bind_eq_some_iff.mp hmid
  obtain ⟨given, hgiven, hbetween⟩ := Option.bind_eq_some_iff.mp hmid
  have hstart := run_nodup hn hstart
  have hnot : e.object ∉ given := by
    cases e with
    | acquire | use => cases hgives
    | pass a | free a =>
      obtain ⟨-, hgiven⟩ := Option.ite_none_right_eq_some.mp hgiven
      cases hgiven
      exact hstart.not_mem_erase
  have hnot := not_mem_run hnot hacquire hbetween
  rw [run_cons] at hafter
  obtain ⟨_, he', -⟩ := Option.bind_eq_some_iff.mp hafter
  rw [hsame] at hnot
  cases e' with
  | acquire => cases htouches
  | use a | pass a | free a => exact hnot (Option.ite_none_right_eq_some.mp he').1

/-- What is touched was acquired before, when nothing is held in the beginning. -/
theorem acquired_before {before after : List (OwnEvent α)} {e : OwnEvent α} (h : run [] (before ++ e :: after) = some held)
    (htouches : e.touches = true) : .acquire e.object ∈ before := by
  by_contra hacquire
  rw [run_append] at h
  obtain ⟨mid, hmid, hafter⟩ := Option.bind_eq_some_iff.mp h
  have hnot := not_mem_run List.not_mem_nil hacquire hmid
  rw [run_cons] at hafter
  obtain ⟨_, he, -⟩ := Option.bind_eq_some_iff.mp hafter
  cases e with
  | acquire => cases htouches
  | use a | pass a | free a => exact hnot (Option.ite_none_right_eq_some.mp he).1

/-! ## Objects that are acquired once -/

/-- The objects that are acquired, in order. -/
def acquisitions (events : List (OwnEvent α)) : List α :=
  events.filterMap fun
    | .acquire a => some a
    | _ => none

omit [DecidableEq α] in
theorem mem_acquisitions : a ∈ acquisitions events ↔ .acquire a ∈ events := by
  unfold acquisitions
  rw [List.mem_filterMap]
  constructor
  · rintro ⟨e, he, heq⟩
    cases e <;> cases heq
    exact he
  · exact fun h => ⟨_, h, rfl⟩

omit [DecidableEq α] in
theorem acquisitions_append (events more : List (OwnEvent α)) :
    acquisitions (events ++ more) = acquisitions events ++ acquisitions more := List.filterMap_append

/-- Where no object is acquired twice, nothing is done with one that was given away. -/
theorem not_again {before after : List (OwnEvent α)} {e e' : OwnEvent α} (h : run [] (before ++ e :: after) = some held)
    (honce : (acquisitions (before ++ e :: after)).Nodup) (hgives : e.gives = true) (hmem : e' ∈ after) :
    e'.object ≠ e.object := by
  intro hsame
  have htouches : e.touches = true := by
    cases e with
    | acquire | use => cases hgives
    | pass | free => rfl
  have hbefore := acquired_before h htouches
  -- whatever is done with it, it was acquired again
  have hafter : .acquire e.object ∈ after := by
    cases htouches' : e'.touches with
    | false =>
      cases e' with
      | acquire a => exact hsame ▸ hmem
      | use | pass | free => cases htouches'
    | true =>
      obtain ⟨between, rest, rfl⟩ := List.append_of_mem hmem
      rw [← List.cons_append, ← List.append_assoc] at h
      exact List.mem_append_left _ (acquired_between List.nodup_nil h hgives htouches' hsame.symm)
  rw [acquisitions_append] at honce
  exact List.disjoint_of_nodup_append honce (mem_acquisitions.mpr hbefore)
    (mem_acquisitions.mpr (List.mem_cons_of_mem _ hafter))

/-! ## One object at a time -/

/-- What is acquired when nothing is held, and is not held in the end, was given away once, and nothing else was. -/
theorem given_once {between : List (OwnEvent α)} (h : run [] (.acquire a :: between) = some [])
    (hacquire : ∀ b, .acquire b ∉ between) (b : α) :
    between.count (.pass b) + between.count (.free b) = if a = b then 1 else 0 := by
  have hcount := count_run h b
  rw [List.count_cons, List.count_eq_zero.mpr (hacquire b)] at hcount
  simp only [List.count_nil, List.count_cons, beq_iff_eq, OwnEvent.acquire.injEq, reduceCtorEq, if_false] at hcount
  omega

/-- What is held in the end was acquired some time, and not given away since. -/
theorem held_since (h : run [] events = some held) (hmem : a ∈ held) : ∃ before between,
    events = before ++ .acquire a :: between ∧ .pass a ∉ between ∧ .free a ∉ between := by
  induction events using List.reverseRecOn generalizing held with
  | nil =>
    cases h
    cases hmem
  | append_singleton events e ih =>
    rw [run_append] at h
    obtain ⟨mid, hmid, hlast⟩ := Option.bind_eq_some_iff.mp h
    rw [run_cons] at hlast
    obtain ⟨_, hstep, hnil⟩ := Option.bind_eq_some_iff.mp hlast
    cases hnil
    by_cases hnew : e = .acquire a
    · exact ⟨events, [], by rw [hnew], List.not_mem_nil, List.not_mem_nil⟩
    · -- `a` was held before the last event, which did not give it away
      have hkept : a ∈ mid ∧ e ≠ .pass a ∧ e ≠ .free a := by
        have hmid := run_nodup List.nodup_nil hmid
        cases e with
        | acquire b =>
          obtain ⟨-, hstep⟩ := Option.ite_none_left_eq_some.mp hstep
          cases hstep
          refine ⟨(List.mem_cons.mp hmem).resolve_left ?_, by simp, by simp⟩
          rintro rfl
          exact hnew rfl
        | use b =>
          obtain ⟨-, hstep⟩ := Option.ite_none_right_eq_some.mp hstep
          cases hstep
          exact ⟨hmem, by simp, by simp⟩
        | pass b | free b =>
          obtain ⟨-, hstep⟩ := Option.ite_none_right_eq_some.mp hstep
          cases hstep
          obtain ⟨hne, hmem⟩ := hmid.mem_erase_iff.mp hmem
          exact ⟨hmem, by simp [Ne.symm hne], by simp [Ne.symm hne]⟩
      obtain ⟨before, between, rfl, hpass, hfree⟩ := ih hmid hkept.1
      refine ⟨before, between ++ [e], by simp, ?_, ?_⟩
      · simp [hpass, Ne.symm hkept.2.1]
      · simp [hfree, Ne.symm hkept.2.2]

end Ownership

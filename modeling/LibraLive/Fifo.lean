import Mathlib.Data.List.Basic

/-!
# First-in first-out queues with their history

A queue that remembers every item it ever accepted and every item taken off it. The two histories are specification, not
storage: what is stored is `items`. The field `conserved` says what makes the queue first-in first-out, so it holds of
every value of the type and no run has to carry it.
-/

/-- A queue and its history: the items taken, followed by the items still there, are the items accepted, in order. -/
structure Fifo (α : Type*) where
  items : List α
  accepted : List α
  taken : List α
  conserved : taken ++ items = accepted

namespace Fifo

variable {α : Type*}

/-- The queue nothing was ever put on. -/
def empty : Fifo α := ⟨[], [], [], rfl⟩

/-- Put an item at the back. -/
def push (q : Fifo α) (x : α) : Fifo α where
  items := q.items ++ [x]
  accepted := q.accepted ++ [x]
  taken := q.taken
  conserved := by rw [← List.append_assoc, q.conserved]

/-- Take the item at the front off, if there is one. -/
def pop (q : Fifo α) : Fifo α where
  items := q.items.tail
  accepted := q.accepted
  taken := q.taken ++ q.items.head?.toList
  conserved := by
    rw [← q.conserved]
    cases q.items <;> simp

/-- Take everything off, from the front. -/
def clear (q : Fifo α) : Fifo α where
  items := []
  accepted := q.accepted
  taken := q.taken ++ q.items
  conserved := by rw [List.append_nil, q.conserved]

@[simp] theorem items_empty : (empty : Fifo α).items = [] := rfl
@[simp] theorem accepted_empty : (empty : Fifo α).accepted = [] := rfl
@[simp] theorem taken_empty : (empty : Fifo α).taken = [] := rfl
@[simp] theorem items_push (q : Fifo α) (x : α) : (q.push x).items = q.items ++ [x] := rfl
@[simp] theorem accepted_push (q : Fifo α) (x : α) : (q.push x).accepted = q.accepted ++ [x] := rfl
@[simp] theorem taken_push (q : Fifo α) (x : α) : (q.push x).taken = q.taken := rfl
@[simp] theorem items_pop (q : Fifo α) : q.pop.items = q.items.tail := rfl
@[simp] theorem accepted_pop (q : Fifo α) : q.pop.accepted = q.accepted := rfl
@[simp] theorem taken_pop (q : Fifo α) : q.pop.taken = q.taken ++ q.items.head?.toList := rfl
@[simp] theorem items_clear (q : Fifo α) : q.clear.items = [] := rfl
@[simp] theorem accepted_clear (q : Fifo α) : q.clear.accepted = q.accepted := rfl
@[simp] theorem taken_clear (q : Fifo α) : q.clear.taken = q.taken ++ q.items := rfl

/-- What was taken is the beginning of what was accepted. -/
theorem taken_prefix (q : Fifo α) : q.taken <+: q.accepted := ⟨q.items, q.conserved⟩

/-- Once the queue is empty, everything accepted was taken. -/
theorem taken_eq_of_items_nil {q : Fifo α} (h : q.items = []) : q.taken = q.accepted := by
  rw [← q.conserved, h, List.append_nil]

end Fifo

import Mathlib.Data.List.Basic

/-!
# Singly linked lists

The list that a pointer leads to when every node holds a pointer to the next one: which values a list of pointers can have,
walking along it, appending a node behind its last one.
-/

/-- `next` leads from `h` through the nodes of the list, and then to no node. -/
def Chain {α : Type*} (next : α → Option α) : Option α → List α → Prop
  | h, [] => h = none
  | h, p :: l => h = some p ∧ Chain next (next p) l

namespace Chain

variable {α : Type*} {next next' : α → Option α} {h : Option α} {p n : α} {l : List α}

@[simp] theorem nil_iff : Chain next h [] ↔ h = none := Iff.rfl

@[simp] theorem cons_iff : Chain next h (p :: l) ↔ h = some p ∧ Chain next (next p) l := Iff.rfl

/-- From no pointer hangs no node. -/
theorem eq_nil (hc : Chain next none l) : l = [] := by
  cases l with
  | nil => rfl
  | cons p l => cases hc.1

/-- From a pointer hangs its node, and from its next pointer the rest. -/
theorem eq_cons (hc : Chain next (some p) l) : ∃ t, l = p :: t ∧ Chain next (next p) t := by
  cases l with
  | nil => cases hc
  | cons q t =>
    obtain ⟨hq, ht⟩ := hc
    cases hq
    exact ⟨t, rfl, ht⟩

/-- A pointer leads through one list only. -/
theorem unique {l' : List α} (hc : Chain next h l) (hc' : Chain next h l') : l = l' := by
  induction l generalizing h l' with
  | nil =>
    rw [nil_iff] at hc
    subst hc
    exact hc'.eq_nil.symm
  | cons p l ih =>
    obtain ⟨rfl, hl⟩ := hc
    obtain ⟨t, rfl, ht⟩ := hc'.eq_cons
    rw [ih hl ht]

/-- Only the next pointers of its nodes matter. -/
theorem congr (hc : Chain next h l) (hsame : ∀ x ∈ l, next' x = next x) : Chain next' h l := by
  induction l generalizing h with
  | nil => exact hc
  | cons p l ih =>
    refine ⟨hc.1, ?_⟩
    rw [hsame p List.mem_cons_self]
    exact ih hc.2 fun x hx => hsame x (List.mem_cons_of_mem p hx)

/-- The node after a node of the list is one of the list. -/
theorem next_mem (hc : Chain next h l) (hp : p ∈ l) (hn : next p = some n) : n ∈ l := by
  induction l generalizing h with
  | nil => cases hp
  | cons q l ih =>
    refine List.mem_cons_of_mem q ?_
    rcases List.mem_cons.mp hp with rfl | hp
    · have hrest := hc.2
      rw [hn] at hrest
      obtain ⟨t, rfl, -⟩ := hrest.eq_cons
      exact List.mem_cons_self
    · exact ih hc.2 hp

/-- A node of the list with no next one is the last. -/
theorem eq_snoc (hc : Chain next h l) (hp : p ∈ l) (hn : next p = none) : ∃ t, l = t ++ [p] := by
  induction l generalizing h with
  | nil => cases hp
  | cons q l ih =>
    rcases List.mem_cons.mp hp with rfl | hp
    · have hrest := hc.2
      rw [hn] at hrest
      exact ⟨[], by rw [hrest.eq_nil, List.nil_append]⟩
    · obtain ⟨t, rfl⟩ := ih hc.2 hp
      exact ⟨q :: t, rfl⟩

/-- From the next pointer of every node of the list hangs an end of it. -/
theorem tail (hc : Chain next h l) (hp : p ∈ l) : ∃ t, Chain next (next p) t ∧ t.length < l.length := by
  induction l generalizing h with
  | nil => cases hp
  | cons q l ih =>
    rcases List.mem_cons.mp hp with rfl | hp
    · exact ⟨l, hc.2, Nat.lt_succ_self _⟩
    · obtain ⟨t, ht, hlen⟩ := ih hc.2 hp
      exact ⟨t, ht, Nat.lt_succ_of_lt hlen⟩

/-- Hanging a new node behind the last one appends it. -/
theorem snoc {t : List α} (hc : Chain next h (t ++ [p])) (hp : next' p = some n) (hn : next' n = none)
    (hsame : ∀ x ∈ t, next' x = next x) : Chain next' h (t ++ [p, n]) := by
  induction t generalizing h with
  | nil => exact ⟨hc.1, by rw [hp]; exact ⟨rfl, hn⟩⟩
  | cons q t ih =>
    refine ⟨hc.1, ?_⟩
    rw [hsame q List.mem_cons_self]
    exact ih hc.2 fun x hx => hsame x (List.mem_cons_of_mem q hx)

end Chain

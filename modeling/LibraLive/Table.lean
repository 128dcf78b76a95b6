import Mathlib.Algebra.GroupWithZero.Nat
import Mathlib.Data.List.Basic

/-!
# Lists as tables

A list of rows, one for each thread or call, of which one row at a time is changed: how many rows have a property before and
after, and which row it is when there is one at most.
-/

namespace Table

variable {α : Type*} {p : α → Bool} {f : α → α} {l : List α} {i j : Nat} {a b : α}

/-- Changing a row changes the count by what that row counts for. -/
theorem countP_modify (h : l[i]? = some a) :
    (l.modify i f).countP p + (p a).toNat = l.countP p + (p (f a)).toNat := by
  induction l generalizing i with
  | nil => cases h
  | cons b l ih =>
    cases i with
    | zero =>
      obtain rfl : b = a := by simpa using h
      rw [List.modify_zero_cons, List.countP_cons, List.countP_cons]
      cases p b <;> cases p (f b) <;> simp
    | succ i =>
      have hl := ih (by simpa using h)
      rw [List.modify_succ_cons, List.countP_cons, List.countP_cons]
      omega

/-- Changing a row changes the sum by what that row adds. -/
theorem sum_modify {g : α → Nat} (h : l[i]? = some a) :
    ((l.modify i f).map g).sum + g a = (l.map g).sum + g (f a) := by
  induction l generalizing i with
  | nil => cases h
  | cons b l ih =>
    cases i with
    | zero =>
      obtain rfl : b = a := by simpa using h
      simp only [List.modify_zero_cons, List.map_cons, List.sum_cons]
      omega
    | succ i =>
      have hl := ih (by simpa using h)
      simp only [List.modify_succ_cons, List.map_cons, List.sum_cons]
      omega

/-- A row that counts. -/
theorem countP_pos_of_row (h : l[i]? = some a) (ha : p a = true) : 0 < l.countP p :=
  List.countP_pos_iff.mpr ⟨a, List.mem_of_getElem? h, ha⟩

/-- If one row at most counts, it is one row. -/
theorem eq_of_countP_le_one (hle : l.countP p ≤ 1) (hi : l[i]? = some a) (ha : p a = true) (hj : l[j]? = some b)
    (hb : p b = true) : i = j := by
  induction l generalizing i j with
  | nil => cases hi
  | cons c l ih =>
    rw [List.countP_cons] at hle
    cases i with
    | zero =>
      cases j with
      | zero => rfl
      | succ j =>
        obtain rfl : c = a := by simpa using hi
        have hpos := countP_pos_of_row (l := l) (i := j) (by simpa using hj) hb
        rw [if_pos ha] at hle
        omega
    | succ i =>
      have hpos := countP_pos_of_row (l := l) (i := i) (by simpa using hi) ha
      cases j with
      | zero =>
        obtain rfl : c = b := by simpa using hj
        rw [if_pos hb] at hle
        omega
      | succ j =>
        exact congrArg Nat.succ (ih (by omega) (by simpa using hi) (by simpa using hj))

/-- If no two rows count, one at most does. -/
theorem countP_le_one (h : ∀ (i j : Nat) (a b : α), l[i]? = some a → l[j]? = some b → p a = true → p b = true → i = j) :
    l.countP p ≤ 1 := by
  induction l with
  | nil => exact Nat.zero_le 1
  | cons c l ih =>
    rw [List.countP_cons]
    by_cases hc : p c = true
    · have hnone : l.countP p = 0 := by
        rw [List.countP_eq_zero]
        intro a ha hpa
        obtain ⟨j, hj⟩ := List.getElem?_of_mem ha
        cases h 0 (j + 1) c a rfl (by simpa using hj) hc hpa
      rw [if_pos hc]
      omega
    · rw [if_neg hc]
      refine ih fun i j a b hi hj hpa hpb => ?_
      exact Nat.succ.inj (h (i + 1) (j + 1) a b (by simpa using hi) (by simpa using hj) hpa hpb)

/-- A row after one row was changed. -/
theorem getElem?_modify_cases (h : (l.modify i f)[j]? = some b) :
    (j = i ∧ ∃ a, l[i]? = some a ∧ b = f a) ∨ (j ≠ i ∧ l[j]? = some b) := by
  rw [List.getElem?_modify, Option.map_eq_map, Option.map_eq_some_iff] at h
  obtain ⟨a, ha, rfl⟩ := h
  by_cases hij : i = j
  · subst hij
    exact Or.inl ⟨rfl, a, ha, if_pos rfl⟩
  · exact Or.inr ⟨Ne.symm hij, by rw [if_neg hij]; exact ha⟩

/-- A row after one was added. -/
theorem getElem?_snoc_cases (h : (l ++ [a])[j]? = some b) : (j = l.length ∧ b = a) ∨ l[j]? = some b := by
  rcases Nat.lt_trichotomy j l.length with hj | rfl | hj
  · rw [List.getElem?_append_left hj] at h
    exact Or.inr h
  · rw [List.getElem?_concat_length] at h
    exact Or.inl ⟨rfl, (Option.some.inj h).symm⟩
  · rw [List.getElem?_append_right (by omega), List.getElem?_eq_none (by simp; omega)] at h
    cases h

end Table

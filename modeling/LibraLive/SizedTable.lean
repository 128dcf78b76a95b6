import Mathlib.Data.List.Infix

/-!
# Tables of a bounded size

A table keeps its newest entries, the newest one first, as many of them as its size has room for: the longest beginning whose
sizes add up to at most that (`isGreatest_keep`). To shrink it more than once comes to shrinking it to the smallest size
(`keep_keep`), and entries that leave it one by one from the end until there is room are those that do not fit
(`keep_concat`).
-/

namespace SizedTable

variable {α β : Type*} (size : α → Nat)

/-- What the entries take up. -/
def total : List α → Nat
  | [] => 0
  | a :: l => size a + total l

/-- The entries that a table of a size has room for. -/
def keep (max : Nat) : List α → List α
  | [] => []
  | a :: l => if size a ≤ max then a :: keep (max - size a) l else []

variable {size} {l l' p : List α} {a : α} {m n : Nat}

@[simp] theorem total_nil : total size [] = 0 := rfl

@[simp] theorem total_cons : total size (a :: l) = size a + total size l := rfl

@[simp] theorem total_append : total size (l ++ l') = total size l + total size l' := by
  induction l with
  | nil => rw [List.nil_append, total_nil, Nat.zero_add]
  | cons a l ih => rw [List.cons_append, total_cons, ih, total_cons, Nat.add_assoc]

/-- An entry takes up no more than all of them. -/
theorem le_total (h : a ∈ l) : size a ≤ total size l := by
  induction l with
  | nil => exact absurd h List.not_mem_nil
  | cons b l ih =>
    rw [total_cons]
    rcases List.mem_cons.mp h with rfl | h
    · exact Nat.le_add_right _ _
    · exact (ih h).trans (Nat.le_add_left _ _)

/-- Entries that take up nothing. -/
theorem total_eq_zero (h : ∀ a ∈ l, size a = 0) : total size l = 0 := by
  induction l with
  | nil => rfl
  | cons a l ih =>
    rw [total_cons, h a List.mem_cons_self, ih fun b hb => h b (List.mem_cons_of_mem a hb)]

/-- An entry is replaced. -/
theorem total_set {i : Nat} (h : l[i]? = some a) (b : α) : total size (l.set i b) = total size l + size b - size a := by
  induction l generalizing i with
  | nil => cases h
  | cons c l ih =>
    cases i with
    | zero =>
      obtain rfl := Option.some.inj h
      rw [List.set_cons_zero, total_cons, total_cons]
      omega
    | succ i =>
      have hle : size a ≤ total size l := le_total (List.mem_of_getElem? h)
      rw [List.set_cons_succ, total_cons, total_cons, ih (i := i) h]
      omega

/-- An entry is taken out. -/
theorem total_eraseIdx {i : Nat} (h : l[i]? = some a) : total size (l.eraseIdx i) = total size l - size a := by
  induction l generalizing i with
  | nil => cases h
  | cons c l ih =>
    cases i with
    | zero =>
      obtain rfl := Option.some.inj h
      rw [List.eraseIdx_cons_zero, total_cons, Nat.add_sub_cancel_left]
    | succ i =>
      have hle : size a ≤ total size l := le_total (List.mem_of_getElem? h)
      rw [List.eraseIdx_cons_succ, total_cons, total_cons, ih (i := i) h]
      omega

/-- Entries that are changed in a way that keeps their sizes take up the same. -/
theorem total_map {size' : β → Nat} {f : α → β} (hf : ∀ a, size' (f a) = size a) (l : List α) :
    total size' (l.map f) = total size l := by
  induction l with
  | nil => rfl
  | cons a l ih => rw [List.map_cons, total_cons, total_cons, hf, ih]

@[simp] theorem keep_nil (m : Nat) : keep size m [] = [] := rfl

theorem keep_cons_of_le (h : size a ≤ m) : keep size m (a :: l) = a :: keep size (m - size a) l := if_pos h

theorem keep_cons_of_lt (h : m < size a) : keep size m (a :: l) = [] := if_neg (Nat.not_le.mpr h)

theorem total_keep_le (m : Nat) (l : List α) : total size (keep size m l) ≤ m := by
  induction l generalizing m with
  | nil => exact Nat.zero_le m
  | cons a l ih =>
    by_cases h : size a ≤ m
    · rw [keep_cons_of_le h, total_cons]
      have := ih (m - size a)
      omega
    · rw [keep_cons_of_lt (Nat.not_le.mp h)]
      exact Nat.zero_le m

theorem keep_begins (m : Nat) (l : List α) : keep size m l <+: l := by
  induction l generalizing m with
  | nil => exact List.prefix_rfl
  | cons a l ih =>
    by_cases h : size a ≤ m
    · rw [keep_cons_of_le h]
      exact List.cons_prefix_cons.mpr ⟨rfl, ih _⟩
    · rw [keep_cons_of_lt (Nat.not_le.mp h)]
      exact List.nil_prefix

/-- No longer beginning fits. -/
theorem isGreatest_keep (hp : p <+: l) (h : total size p ≤ m) : p <+: keep size m l := by
  induction l generalizing p m with
  | nil => exact hp
  | cons a l ih =>
    cases p with
    | nil => exact List.nil_prefix
    | cons b p =>
      obtain ⟨rfl, htail⟩ := List.cons_prefix_cons.mp hp
      rw [total_cons] at h
      rw [keep_cons_of_le (by omega)]
      exact List.cons_prefix_cons.mpr ⟨rfl, ih htail (by omega)⟩

/-- Where everything fits, everything stays. -/
theorem keep_eq_self (h : total size l ≤ m) : keep size m l = l :=
  (keep_begins m l).eq_of_length_le (isGreatest_keep List.prefix_rfl h).length_le

/-- Shrinking a table after it has been shrunk less. -/
theorem keep_keep (h : m ≤ n) (l : List α) : keep size m (keep size n l) = keep size m l := by
  refine List.IsPrefix.eq_of_length_le (isGreatest_keep ?_ (total_keep_le _ _)) ?_
  · exact (keep_begins m _).trans (keep_begins n l)
  · exact (isGreatest_keep (isGreatest_keep (keep_begins m l) ((total_keep_le m l).trans h)) (total_keep_le m l)).length_le

/-- An entry at the end for which there is no room leaves. -/
theorem keep_concat (h : m < total size (l ++ [a])) : keep size m (l ++ [a]) = keep size m l := by
  have hpre : keep size m (l ++ [a]) <+: l ++ [a] := keep_begins m _
  have hle : keep size m (l ++ [a]) <+: l := by
    rcases List.prefix_concat_iff.mp hpre with heq | hle
    · have : total size (keep size m (l ++ [a])) ≤ m := total_keep_le m _
      rw [heq] at this
      omega
    · exact hle
  refine List.IsPrefix.eq_of_length_le (isGreatest_keep hle (total_keep_le _ _)) ?_
  exact (isGreatest_keep ((keep_begins m l).trans (List.prefix_append l [a])) (total_keep_le m l)).length_le

/-- A table of no size is empty if its entries take something up. -/
theorem keep_zero (h : ∀ a, 0 < size a) (l : List α) : keep size 0 l = [] := by
  cases l with
  | nil => rfl
  | cons a l => exact keep_cons_of_lt (h a)

/-- Entries that are changed in a way that keeps their sizes. -/
theorem keep_map {size' : β → Nat} {f : α → β} (hf : ∀ a, size' (f a) = size a) (m : Nat) (l : List α) :
    keep size' m (l.map f) = (keep size m l).map f := by
  induction l generalizing m with
  | nil => rfl
  | cons a l ih =>
    by_cases h : size a ≤ m
    · rw [List.map_cons, keep_cons_of_le (by rwa [hf]), hf, ih, keep_cons_of_le h, List.map_cons]
    · rw [List.map_cons, keep_cons_of_lt (by rw [hf]; omega), keep_cons_of_lt (Nat.not_le.mp h), List.map_nil]

end SizedTable

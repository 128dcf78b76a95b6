import Mathlib.Data.Rat.Floor

/-!
# The arithmetic of `int`

Operations of C on 32-bit signed integers, whose overflow is undefined, and the conversion of a floating-point number, taken
as an exact rational, to `int`: it cuts the fraction off, and is undefined when the rest is out of range.
-/

namespace CInt

/-- The values of `int`. -/
def Fits (n : Int) : Prop := -2147483648 ≤ n ∧ n ≤ 2147483647

instance (n : Int) : Decidable (Fits n) := inferInstanceAs (Decidable (_ ∧ _))

/-- The result of an operation, if it is an `int`. -/
def result (n : Int) : Option Int := if Fits n then some n else none

/-- `a * b`. -/
def mul (a b : Int) : Option Int := result (a * b)

/-- `a / b`, which has no value where `b` is zero. -/
def div (a b : Int) : Option Int := if b = 0 then none else result (a.tdiv b)

/-- The number without its fraction. -/
def truncate (x : ℚ) : Int := if x < 0 then ⌈x⌉ else ⌊x⌋

/-- `(int) x`. -/
def ofDouble (x : ℚ) : Option Int := result (truncate x)

variable {a b n m : Int} {x : ℚ}

theorem result_eq_some : result n = some m ↔ Fits n ∧ n = m := by
  simp [result]

theorem mul_eq_some : mul a b = some m ↔ Fits (a * b) ∧ a * b = m := result_eq_some

theorem mul_of_fits (h : Fits (a * b)) : mul a b = some (a * b) := if_pos h

theorem mul_of_not_fits (h : ¬ Fits (a * b)) : mul a b = none := if_neg h

/-- A number between zero and one in range is in range. -/
theorem Fits.of_le (h : Fits b) (h0 : 0 ≤ a) (hle : a ≤ b) : Fits a := by
  obtain ⟨-, hb⟩ := h
  exact ⟨by omega, by omega⟩

/-- The quotient of numbers that are not negative is one that is not larger. -/
theorem div_of_nonneg (ha : 0 ≤ a) (hb : 0 < b) (h : a < 2147483648) : div a b = some (a / b) := by
  have hle : a / b ≤ a := Int.ediv_le_self b ha
  have hnonneg : 0 ≤ a / b := Int.ediv_nonneg ha hb.le
  rw [div, if_neg hb.ne', Int.tdiv_eq_ediv_of_nonneg ha]
  exact if_pos ⟨by omega, by omega⟩

/-- A loop whose steps have a result under a condition each. -/
theorem mapM_eq_some {α β : Type} {P : α → Prop} [DecidablePred P] {f : α → Option β} {g : α → β}
    (hf : ∀ a, f a = if P a then some (g a) else none) {as : List α} {bs : List β} :
    as.mapM f = some bs ↔ (∀ a ∈ as, P a) ∧ bs = as.map g := by
  induction as generalizing bs with
  | nil => simp [eq_comm]
  | cons a as ih =>
    rw [List.mapM_cons, hf a, List.forall_mem_cons, List.map_cons]
    split
    · rename_i ha
      simp only [Option.bind_eq_bind, Option.bind_some, Option.bind_eq_some_iff, ih, ha, true_and]
      constructor
      · rintro ⟨bs', ⟨hall, rfl⟩, hbs⟩
        exact ⟨hall, (Option.some.inj hbs).symm⟩
      · rintro ⟨hall, rfl⟩
        exact ⟨_, ⟨hall, rfl⟩, rfl⟩
    · rename_i ha
      simp [ha]

theorem ofDouble_eq_some : ofDouble x = some n ↔ Fits (truncate x) ∧ truncate x = n := result_eq_some

theorem truncate_of_nonneg (h : 0 ≤ x) : truncate x = ⌊x⌋ := if_neg (not_lt.mpr h)

@[simp] theorem truncate_natCast_add (k : Nat) (h : 0 ≤ x) : truncate (k + x) = k + truncate x := by
  rw [truncate_of_nonneg h, truncate_of_nonneg (by positivity), Int.floor_natCast_add]

/-- The rest is at least one when the number is. -/
theorem one_le_truncate : 1 ≤ truncate x ↔ 1 ≤ x := by
  unfold truncate
  split
  · rename_i hx
    have hceil : ⌈x⌉ ≤ 0 := Int.ceil_le.mpr (by simpa using hx.le)
    constructor <;> intro h
    · omega
    · linarith
  · rw [Int.le_floor, Int.cast_one]

/-- A number that is not negative can be converted when it is less than `2 ^ 31`. -/
theorem fits_truncate (h : 0 ≤ x) : Fits (truncate x) ↔ x < 2 ^ 31 := by
  have hfloor : 0 ≤ ⌊x⌋ := Int.floor_nonneg.mpr h
  have hlt : ⌊x⌋ < 2 ^ 31 ↔ x < 2 ^ 31 := by
    rw [Int.floor_lt]
    norm_num
  rw [truncate_of_nonneg h, ← hlt, Fits]
  omega

end CInt

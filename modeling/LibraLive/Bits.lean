import Mathlib.Data.Nat.Bitwise
import Mathlib.Data.List.Infix

/-!
# Words as lists of bits

The lowest bits of a word, the most significant of them first, so that what a register takes in and gives out is an equation
between lists. A word is known by its bits: a function from places to bits, which `Nat.testBit` and `BitVec.getLsbD` are.
-/

namespace Bits

/-- The lowest `n` bits of a word, the most significant of them first. -/
def low (f : Nat → Bool) : Nat → List Bool
  | 0 => []
  | n + 1 => f n :: low f n

/-- The eight bits of a byte. -/
def ofByte (b : UInt8) : List Bool := low b.toNat.testBit 8

/-- The bits of a sequence of bytes. -/
def ofBytes (bytes : List UInt8) : List Bool := bytes.flatMap ofByte

variable {f g : Nat → Bool} {m n : Nat}

@[simp] theorem low_zero (f : Nat → Bool) : low f 0 = [] := rfl

@[simp] theorem length_low (f : Nat → Bool) (n : Nat) : (low f n).length = n := by
  induction n with
  | zero => rfl
  | succ n ih => rw [low, List.length_cons, ih]

@[simp] theorem length_ofByte (b : UInt8) : (ofByte b).length = 8 := length_low _ _

@[simp] theorem ofBytes_nil : ofBytes [] = [] := rfl

@[simp] theorem ofBytes_cons (b : UInt8) (bytes : List UInt8) : ofBytes (b :: bytes) = ofByte b ++ ofBytes bytes := rfl

@[simp] theorem ofBytes_append (bytes more : List UInt8) : ofBytes (bytes ++ more) = ofBytes bytes ++ ofBytes more :=
  List.flatMap_append

@[simp] theorem length_ofBytes (bytes : List UInt8) : (ofBytes bytes).length = 8 * bytes.length := by
  induction bytes with
  | nil => rfl
  | cons b bytes ih =>
    rw [ofBytes_cons, List.length_append, length_ofByte, ih, List.length_cons]
    omega

/-- The upper bits come first. -/
theorem low_add (f : Nat → Bool) (m n : Nat) : low f (m + n) = low (fun i => f (i + n)) m ++ low f n := by
  induction m with
  | zero => rw [Nat.zero_add, low_zero, List.nil_append]
  | succ m ih => rw [Nat.succ_add, low, low, List.cons_append, ih]

/-- Without the upper bits the lower ones are left. -/
theorem drop_low (f : Nat → Bool) (m n : Nat) : (low f n).drop m = low f (n - m) := by
  induction n generalizing m with
  | zero => rw [Nat.zero_sub, low_zero, List.drop_nil]
  | succ n ih =>
    cases m with
    | zero => rfl
    | succ m => rw [low, List.drop_succ_cons, ih, Nat.succ_sub_succ]

/-- Two words have the same lowest bits if they agree in each of them. -/
theorem low_congr (h : ∀ i < n, f i = g i) : low f n = low g n := by
  induction n with
  | zero => rfl
  | succ n ih => rw [low, low, h n (Nat.lt_succ_self n), ih fun i hi => h i (Nat.lt_succ_of_lt hi)]

/-- And only then. -/
theorem eq_of_low_eq (h : low f n = low g n) : ∀ i < n, f i = g i := by
  induction n with
  | zero => exact fun i hi => absurd hi (Nat.not_lt_zero i)
  | succ n ih =>
    obtain ⟨hn, hrest⟩ := List.cons.inj h
    intro i hi
    rcases Nat.lt_succ_iff_lt_or_eq.mp hi with hi | rfl
    · exact ih hrest i hi
    · exact hn

/-- A word of ones, or of zeros. -/
theorem low_eq_replicate {b : Bool} (h : ∀ i < n, f i = b) : low f n = List.replicate n b := by
  induction n with
  | zero => rfl
  | succ n ih =>
    rw [low, h n (Nat.lt_succ_self n), ih fun i hi => h i (Nat.lt_succ_of_lt hi), List.replicate_succ]

/-- The lowest bits of two numbers are the same exactly when the numbers are the same modulo a power of two. -/
theorem low_testBit_eq_iff {v w : Nat} : low v.testBit n = low w.testBit n ↔ v % 2 ^ n = w % 2 ^ n := by
  constructor
  · intro h
    refine Nat.eq_of_testBit_eq fun i => ?_
    rw [Nat.testBit_mod_two_pow, Nat.testBit_mod_two_pow]
    by_cases hi : i < n
    · rw [eq_of_low_eq h i hi]
    · simp [hi]
  · intro h
    refine low_congr fun i hi => ?_
    have hbit := congrArg (Nat.testBit · i) h
    simpa [Nat.testBit_mod_two_pow, hi] using hbit

/-- A byte is known by its bits. -/
theorem ofByte_injective : Function.Injective ofByte := by
  intro b c h
  have hmod : b.toNat % 2 ^ 8 = c.toNat % 2 ^ 8 := low_testBit_eq_iff.mp h
  rw [Nat.mod_eq_of_lt b.toNat_lt, Nat.mod_eq_of_lt c.toNat_lt] at hmod
  exact UInt8.toNat_inj.mp hmod

/-- The bits of a number begin with those of another one exactly when that is the value of its upper bits. -/
theorem low_prefix_low {v w : Nat} (h : m ≤ n) :
    low v.testBit m <+: low w.testBit n ↔ (w >>> (n - m)) % 2 ^ m = v % 2 ^ m := by
  have hsplit : low w.testBit n = low (w >>> (n - m)).testBit m ++ low w.testBit (n - m) := by
    have hadd := low_add w.testBit m (n - m)
    rw [Nat.add_sub_cancel' h] at hadd
    rw [hadd]
    congr 1
    exact low_congr fun i _ => by rw [Nat.testBit_shiftRight, Nat.add_comm]
  rw [hsplit, ← low_testBit_eq_iff]
  constructor
  · intro hp
    have hlen : (low v.testBit m).length ≤ (low (w >>> (n - m)).testBit m).length := by simp
    have hp := List.prefix_of_prefix_length_le hp (List.prefix_append _ _) hlen
    exact (hp.eq_of_length (by simp)).symm
  · intro heq
    rw [heq]
    exact List.prefix_append _ _

/-- At most eight bits begin a byte exactly when they are the value of its upper bits. -/
theorem low_prefix_ofByte {v : Nat} {c : UInt8} (h : n ≤ 8) :
    low v.testBit n <+: ofByte c ↔ c.toNat / 2 ^ (8 - n) = v % 2 ^ n := by
  have hlt : c.toNat / 2 ^ (8 - n) < 2 ^ n := by
    rw [Nat.div_lt_iff_lt_mul (Nat.two_pow_pos _), ← Nat.pow_add, Nat.add_sub_cancel' h]
    exact c.toNat_lt
  rw [ofByte, low_prefix_low h, Nat.shiftRight_eq_div_pow, Nat.mod_eq_of_lt hlt]

end Bits

import Mathlib.Data.List.Basic

/-!
# The runtime of Java

What the language does by itself: the arithmetic of `int`, which wraps around, arrays, whose bounds are checked, null
references, and what is thrown. A method that throws has no result.
-/

namespace Java

/-- What a method throws: the exceptions of the runtime, and an `IOException` of the program's. -/
inductive Throwable (ε : Type) where
  | nullPointer
  | indexOutOfBounds
  | illegalArgument
  | illegalState
  | io (e : ε)
  deriving DecidableEq, Repr

variable {ε α : Type}

/-- The `int` that an operation gives, whose result may be out of range. -/
def int32 (n : Int) : Int := n.bmod 4294967296

/-- The largest `int`. -/
def MAX_VALUE : Int := 2147483647

/-- A number in range is the result. -/
theorem int32_of_range {n : Int} (h : -2147483648 ≤ n) (h' : n ≤ 2147483647) : int32 n = n := by
  rw [int32, Int.bmod_def]
  split <;> omega

/-- The members of a reference. -/
def deref : Option α → Except (Throwable ε) α
  | none => .error .nullPointer
  | some a => .ok a

/-- `xs[i]`. -/
def aload (xs : List α) (i : Int) : Except (Throwable ε) α :=
  if 0 ≤ i then
    match xs[i.toNat]? with
    | some a => .ok a
    | none => .error .indexOutOfBounds
  else .error .indexOutOfBounds

/-- `xs[i] = a`. -/
def astore (xs : List α) (i : Int) (a : α) : Except (Throwable ε) (List α) :=
  if 0 ≤ i ∧ i < xs.length then .ok (xs.set i.toNat a) else .error .indexOutOfBounds

/-- `System.arraycopy(src, srcPos, dest, destPos, length)`: the array `dest` afterwards. -/
def arraycopy (src : List α) (srcPos : Int) (dest : List α) (destPos length : Int) : Except (Throwable ε) (List α) :=
  if 0 ≤ srcPos ∧ 0 ≤ destPos ∧ 0 ≤ length ∧ srcPos + length ≤ src.length ∧ destPos + length ≤ dest.length then
    .ok (dest.take destPos.toNat ++ (src.drop srcPos.toNat).take length.toNat ++ dest.drop (destPos + length).toNat)
  else .error .indexOutOfBounds

/-- `Arrays.fill(xs, from, to, a)`. -/
def fill (xs : List α) (fromIndex toIndex : Int) (a : α) : Except (Throwable ε) (List α) :=
  if fromIndex ≤ toIndex then
    if 0 ≤ fromIndex ∧ toIndex ≤ xs.length then
      .ok (xs.take fromIndex.toNat ++ List.replicate (toIndex - fromIndex).toNat a ++ xs.drop toIndex.toNat)
    else .error .indexOutOfBounds
  else .error .illegalArgument

/-! ## Sequences of calls -/

section
variable {β : Type}

@[simp] theorem ok_bind (a : α) (f : α → Except (Throwable ε) β) : ((Except.ok a : Except (Throwable ε) α) >>= f) = f a :=
  rfl

@[simp] theorem error_bind (e : Throwable ε) (f : α → Except (Throwable ε) β) :
    ((Except.error e : Except (Throwable ε) α) >>= f) = .error e := rfl

end

/-! ## Arrays of two parts -/

/-- Reading in the second part. -/
theorem aload_append {xs ys : List α} {i : Int} {n : Nat} {a : α} (hi : i = xs.length + n) (h : ys[n]? = some a) :
    (aload (xs ++ ys) i : Except (Throwable ε) α) = .ok a := by
  subst hi
  rw [aload, if_pos (by omega), show ((xs.length : Int) + n).toNat = xs.length + n by omega, List.getElem?_append_right (by omega),
    Nat.add_sub_cancel_left, h]

/-- Writing at the end of the first part. -/
theorem astore_concat {xs ys : List α} {i : Int} {x a : α} (hi : i = xs.length) :
    (astore (xs ++ [x] ++ ys) i a : Except (Throwable ε) (List α)) = .ok (xs ++ [a] ++ ys) := by
  subst hi
  rw [astore, if_pos (by simp only [List.length_append, List.length_singleton]; omega), Int.toNat_natCast]
  simp

theorem aload_of_getElem {xs : List α} {n : Nat} {a : α} (h : xs[n]? = some a) :
    (aload xs n : Except (Throwable ε) α) = .ok a := by
  rw [aload, if_pos (Int.natCast_nonneg n), Int.toNat_natCast, h]

end Java

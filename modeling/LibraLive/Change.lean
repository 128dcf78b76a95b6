import Mathlib.Data.List.Basic

/-!
# What a step changes in a list

A list before and after a step that adds at the back or takes off at the front: what it added, and what it took off, read from
the two lists alone. A record of a run that is made of them says what the steps did, and not what they were meant to do.
-/

namespace Change

variable {α : Type*}

/-- What is at the back now and was not there before. -/
def joined (before after : List α) : List α := after.drop before.length

/-- What was at the front and is not there any more. -/
def left (before after : List α) : List α := before.take (before.length - after.length)

@[simp] theorem joined_append (l m : List α) : joined l (l ++ m) = m := List.drop_left

@[simp] theorem joined_self (l : List α) : joined l l = [] := List.drop_length

@[simp] theorem joined_tail (l : List α) : joined l l.tail = [] := by
  cases l <;> simp [joined]

@[simp] theorem joined_nil (l : List α) : joined l [] = [] := List.drop_nil

@[simp] theorem left_append (l m : List α) : left l (l ++ m) = [] := by simp [left]

@[simp] theorem left_self (l : List α) : left l l = [] := by simp [left]

@[simp] theorem left_tail (l : List α) : left l l.tail = l.head?.toList := by
  cases l <;> simp [left]

@[simp] theorem left_nil (l : List α) : left l [] = l := by simp [left]

/-- What was taken off, where the rest is what is still there. -/
theorem left_of_eq {l m rest : List α} (h : l = m ++ rest) : left l rest = m := by
  simp [left, h]

/-- Nothing joins where only something is taken off. -/
theorem joined_of_eq {l m rest : List α} (h : l = m ++ rest) : joined l rest = [] := by
  simp [joined, h]

end Change

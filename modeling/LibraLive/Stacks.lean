import Mathlib.Data.List.Basic

/-!
# Threads as stacks of frames

Each thread has a stack of what it still has to do, the next thing first. A frame holds items; a thread that takes a step
replaces its stack, and what all threads hold together changes by what the old and the new stack hold (`countP_held_set`).
-/

namespace Stacks

variable {φ ι : Type*} (f : φ → List ι)

/-- What the frames of all threads hold. -/
def held (threads : List (List φ)) : List ι := threads.flatMap (·.flatMap f)

variable {f} {threads : List (List φ)} {stack : List φ} {i : Nat}

@[simp] theorem held_nil : held f [] = [] := rfl

@[simp] theorem held_cons : held f (stack :: threads) = stack.flatMap f ++ held f threads := List.flatMap_cons

/-- A new thread. -/
@[simp] theorem held_concat : held f (threads ++ [stack]) = held f threads ++ stack.flatMap f := by
  rw [held, List.flatMap_append, List.flatMap_singleton, held]

/-- What the frames of a thread hold is held. -/
theorem mem_held {x : ι} (h : threads[i]? = some stack) (hx : x ∈ stack.flatMap f) : x ∈ held f threads :=
  List.mem_flatMap.mpr ⟨stack, List.mem_of_getElem? h, hx⟩

/-- A thread replaces its stack. -/
theorem countP_held_set (stack' : List φ) (p : ι → Bool) (h : threads[i]? = some stack) :
    (held f (threads.set i stack')).countP p + (stack.flatMap f).countP p =
      (held f threads).countP p + (stack'.flatMap f).countP p := by
  induction threads generalizing i with
  | nil => cases h
  | cons first threads ih =>
    cases i with
    | zero =>
      obtain rfl := Option.some.inj h
      rw [List.set_cons_zero, held_cons, held_cons, List.countP_append, List.countP_append]
      omega
    | succ i =>
      have hrest := ih (i := i) h
      rw [List.set_cons_succ, held_cons, held_cons, List.countP_append, List.countP_append]
      omega

theorem count_held_set [BEq ι] (stack' : List φ) (x : ι) (h : threads[i]? = some stack) :
    (held f (threads.set i stack')).count x + (stack.flatMap f).count x = (held f threads).count x + (stack'.flatMap f).count x :=
  countP_held_set stack' (· == x) h

theorem length_held_set (stack' : List φ) (h : threads[i]? = some stack) :
    (held f (threads.set i stack')).length + (stack.flatMap f).length =
      (held f threads).length + (stack'.flatMap f).length := by
  have hset := countP_held_set (f := f) stack' (fun _ => true) h
  simp only [List.countP_true] at hset
  exact hset

/-- A frame of a thread is held on to by a step that does not take it off its stack. -/
theorem exists_set {stack' : List φ} {P : φ → Prop} (h : threads[i]? = some stack)
    (hkeep : (∃ frame ∈ stack, P frame) → ∃ frame ∈ stack', P frame) (hP : ∃ st ∈ threads, ∃ frame ∈ st, P frame) :
    ∃ st ∈ threads.set i stack', ∃ frame ∈ st, P frame := by
  obtain ⟨st, hst, hframe⟩ := hP
  obtain ⟨j, hj⟩ := List.mem_iff_getElem?.mp hst
  obtain ⟨hlt, -⟩ := List.getElem?_eq_some_iff.mp h
  by_cases hij : i = j
  · subst hij
    obtain rfl := Option.some.inj (h.symm.trans hj)
    exact ⟨stack', List.mem_of_getElem? (List.getElem?_set_self hlt), hkeep hframe⟩
  · refine ⟨st, List.mem_of_getElem? (i := j) ?_, hframe⟩
    rw [List.getElem?_set_ne hij, hj]

end Stacks

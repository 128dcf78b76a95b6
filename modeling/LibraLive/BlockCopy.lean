import Mathlib.Data.List.Nodup
import Mathlib.Tactic.Linarith
import Mathlib.Tactic.Ring

/-!
# Copying between blocks of memory

Memory as a family of blocks of bytes, and copies of a range of one block to a range of another, one after the other. What is
read and written is given byte by byte. A picture is copied in rows, which may lie farther apart in one block than in the other.
-/

namespace BlockCopy

variable {B α : Type*} [DecidableEq B]

/-- Copy `length` bytes of block `src`, from `srcOffset` on, to block `dst`, from `dstOffset` on. -/
structure Copy (B : Type*) where
  dst : B
  dstOffset : Int
  src : B
  srcOffset : Int
  length : Int
  deriving DecidableEq, Repr

namespace Copy

/-- The copy writes this byte. -/
def Writes (c : Copy B) (b : B) (offset : Int) : Prop := b = c.dst ∧ c.dstOffset ≤ offset ∧ offset < c.dstOffset + c.length

/-- The copy reads this byte. -/
def Reads (c : Copy B) (b : B) (offset : Int) : Prop := b = c.src ∧ c.srcOffset ≤ offset ∧ offset < c.srcOffset + c.length

instance (c : Copy B) (b : B) (offset : Int) : Decidable (c.Writes b offset) := inferInstanceAs (Decidable (_ ∧ _ ∧ _))

instance (c : Copy B) (b : B) (offset : Int) : Decidable (c.Reads b offset) := inferInstanceAs (Decidable (_ ∧ _ ∧ _))

/-- Memory after the copy. -/
def exec (m : B → Int → α) (c : Copy B) : B → Int → α := fun b offset =>
  if c.Writes b offset then m c.src (c.srcOffset + (offset - c.dstOffset)) else m b offset

end Copy

/-- Memory after the copies, in their order. -/
def run (m : B → Int → α) (copies : List (Copy B)) : B → Int → α := copies.foldl Copy.exec m

variable {m : B → Int → α} {copies before after : List (Copy B)} {c : Copy B} {b : B} {offset : Int}

@[simp] theorem run_nil : run m [] = m := rfl

@[simp] theorem run_cons : run m (c :: copies) = run (c.exec m) copies := rfl

theorem run_append : run m (before ++ after) = run (run m before) after := List.foldl_append ..

theorem exec_of_writes (h : c.Writes b offset) : c.exec m b offset = m c.src (c.srcOffset + (offset - c.dstOffset)) := if_pos h

theorem exec_of_not_writes (h : ¬ c.Writes b offset) : c.exec m b offset = m b offset := if_neg h

/-- A byte that no copy writes stays. -/
theorem run_of_unwritten (h : ∀ c ∈ copies, ¬ c.Writes b offset) : run m copies b offset = m b offset := by
  induction copies generalizing m with
  | nil => rfl
  | cons c copies ih =>
    rw [run_cons, ih fun c' hc' => h c' (List.mem_cons_of_mem c hc'), exec_of_not_writes (h c List.mem_cons_self)]

/-- A block that no copy is to stays. -/
theorem run_of_other (h : ∀ c ∈ copies, c.dst ≠ b) : run m copies b = m b := by
  funext offset
  exact run_of_unwritten fun c hc hw => h c hc hw.1.symm

/-- A byte is what the last copy that writes it has read. -/
theorem run_of_last (hc : c.Writes b offset) (hafter : ∀ c' ∈ after, ¬ c'.Writes b offset) :
    run m (before ++ c :: after) b offset = run m before c.src (c.srcOffset + (offset - c.dstOffset)) := by
  rw [run_append, run_cons, run_of_unwritten hafter, exec_of_writes hc]

/-! ## Rows -/

/-- Copy rows of `length` bytes that lie `srcPitch` apart to where they lie `dstPitch` apart. -/
def rows (dst : B) (dstOffset dstPitch : Int) (src : B) (srcOffset srcPitch length : Int) (n : Nat) : List (Copy B) :=
  (List.range n).map fun (i : Nat) => ⟨dst, dstOffset + i * dstPitch, src, srcOffset + i * srcPitch, length⟩

variable {dst src : B} {dstOffset dstPitch srcOffset srcPitch length : Int} {n : Nat}

omit [DecidableEq B] in
theorem mem_rows : c ∈ rows dst dstOffset dstPitch src srcOffset srcPitch length n ↔
    ∃ i < n, c = ⟨dst, dstOffset + i * dstPitch, src, srcOffset + i * srcPitch, length⟩ := by
  simp only [rows, List.mem_map, List.mem_range, eq_comm (a := c)]

/-- Rows that fit between one another do not overlap. -/
theorem row_eq_of_overlap {i j : Nat} {x : Int} (hx : 0 ≤ x) (hlt : x < length) (hpitch : length ≤ dstPitch)
    (hle : dstOffset + j * dstPitch ≤ dstOffset + i * dstPitch + x)
    (hlast : dstOffset + i * dstPitch + x < dstOffset + j * dstPitch + length) : i = j := by
  rcases Nat.lt_trichotomy i j with hij | rfl | hij
  · have hstep : ((i : Int) + 1) * dstPitch ≤ j * dstPitch := by
      exact Int.mul_le_mul_of_nonneg_right (by omega) (by omega)
    linarith
  · rfl
  · have hstep : ((j : Int) + 1) * dstPitch ≤ i * dstPitch := by
      exact Int.mul_le_mul_of_nonneg_right (by omega) (by omega)
    linarith

/-- Byte `x` of row `y` is copied. -/
theorem run_rows {y : Nat} {x : Int} (hy : y < n) (hx : 0 ≤ x) (hlt : x < length) (hpitch : length ≤ dstPitch) (hne : src ≠ dst) :
    run m (rows dst dstOffset dstPitch src srcOffset srcPitch length n) dst (dstOffset + y * dstPitch + x) =
      m src (srcOffset + y * srcPitch + x) := by
  obtain ⟨first, rest, hsplit⟩ := List.append_of_mem (List.mem_range.mpr hy)
  have hnodup : (first ++ y :: rest).Nodup := hsplit ▸ List.nodup_range
  unfold rows
  rw [hsplit, List.map_append, List.map_cons, run_of_last ⟨rfl, by dsimp only; omega, by dsimp only; omega⟩]
  · rw [run_of_other]
    · congr 1
      dsimp only
      omega
    · intro c hc
      obtain ⟨i, -, rfl⟩ := List.mem_map.mp hc
      exact hne.symm
  · -- no later row is written to the same place
    intro c hc hw
    obtain ⟨j, hj, rfl⟩ := List.mem_map.mp hc
    obtain rfl := row_eq_of_overlap hx hlt hpitch hw.2.1 hw.2.2
    have hnot := (List.nodup_cons.mp (List.nodup_append.mp hnodup).2.1).1
    exact hnot hj

/-! ## Places -/

section Places

variable {A : Type*} {b : B} {start pitch : Int} {rows row : Nat}

/-- The places of `n` bytes that follow one another. -/
def places (b : B) (start : Int) (n : Nat) : List (B × Int) := (List.range n).map fun (k : Nat) => (b, start + k)

/-- The places of rows of bytes that lie `pitch` apart. -/
def rowPlaces (b : B) (start pitch : Int) (rows row : Nat) : List (B × Int) :=
  (List.range rows).flatMap fun (i : Nat) => places b (start + i * pitch) row

omit [DecidableEq B]

@[simp] theorem length_places (n : Nat) : (places b start n).length = n := by simp [places]

@[simp] theorem places_zero : places b start 0 = [] := rfl

@[simp] theorem rowPlaces_zero : rowPlaces b start pitch 0 row = [] := rfl

theorem places_succ (n : Nat) : places b start (n + 1) = (b, start) :: places b (start + 1) n := by
  unfold places
  rw [List.range_succ_eq_map, List.map_cons, List.map_map]
  congr 1
  · simp
  · refine List.map_congr_left fun k _ => ?_
    simp [add_left_comm, add_comm]

/-- Bytes that follow one another in two parts. -/
theorem places_add (n k : Nat) : places b start (n + k) = places b start n ++ places b (start + n) k := by
  unfold places
  rw [List.range_add, List.map_append, List.map_map]
  congr 1
  refine List.map_congr_left fun i _ => ?_
  simp [add_assoc]

theorem rowPlaces_succ (n : Nat) :
    rowPlaces b start pitch (n + 1) row = places b start row ++ rowPlaces b (start + pitch) pitch n row := by
  unfold rowPlaces
  rw [List.range_succ_eq_map, List.flatMap_cons, List.flatMap_map]
  congr 1
  · simp
  · congr 1
    funext i
    congr 1
    push_cast
    ring

@[simp] theorem rowPlaces_empty (rows : Nat) : rowPlaces b start pitch rows 0 = [] := by simp [rowPlaces]

@[simp] theorem length_rowPlaces (rows : Nat) : (rowPlaces b start pitch rows row).length = rows * row := by
  induction rows generalizing start with
  | zero => simp
  | succ rows ih => rw [rowPlaces_succ, List.length_append, length_places, ih, Nat.succ_mul, Nat.add_comm]

/-- Rows without a gap between them. -/
theorem rowPlaces_tight (rows : Nat) : rowPlaces b start row rows row = places b start (rows * row) := by
  induction rows generalizing start with
  | zero => simp
  | succ rows ih => rw [rowPlaces_succ, ih, Nat.succ_mul, Nat.add_comm, places_add]

/-- Rows are the bytes that follow the first one exactly when there is no gap, or nothing that a gap could be between. -/
theorem rowPlaces_eq_places : rowPlaces b start pitch rows row = places b start (rows * row) ↔ rows ≤ 1 ∨ row = 0 ∨ pitch = row := by
  match rows, row with
  | 0, _ => simp
  | 1, _ => simp [rowPlaces_succ]
  | _ + 2, 0 => simp
  | n + 2, row + 1 =>
    have hsize : (n + 2) * (row + 1) = row + 1 + (row + 1 + n * (row + 1)) := by ring
    constructor
    · intro h
      rw [hsize, places_add, rowPlaces_succ, rowPlaces_succ] at h
      have hrest := List.append_cancel_left h
      rw [places_add (row + 1), places_succ row, places_succ row, List.cons_append, List.cons_append] at hrest
      have hfirst := congrArg Prod.snd (List.cons.inj hrest).1
      exact Or.inr (Or.inr (add_left_cancel hfirst))
    · rintro (h | h | rfl)
      · omega
      · omega
      · exact rowPlaces_tight _

/-- Two lists of places hold the same bytes in every memory only if they are the same. -/
theorem map_eq_map_iff {as bs : List A} : (∀ m : A → UInt8, as.map m = bs.map m) ↔ as = bs := by
  classical
  refine ⟨fun h => ?_, fun h m => h ▸ rfl⟩
  have hlength : as.length = bs.length := by simpa using congrArg List.length (h fun _ => 0)
  refine List.ext_getElem hlength fun i hi hi' => ?_
  have hat := congrArg (·[i]?) (h fun a => if a = as[i] then 1 else 0)
  simp only [List.getElem?_map, List.getElem?_eq_getElem hi, List.getElem?_eq_getElem hi', Option.map_some, if_true,
    Option.some.injEq] at hat
  by_contra hne
  rw [if_neg (Ne.symm hne)] at hat
  exact absurd hat (by decide)

end Places

end BlockCopy

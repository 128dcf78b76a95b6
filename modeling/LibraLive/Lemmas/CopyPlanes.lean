import Mathlib.Data.List.FinRange
import LibraLive.BlockCopy
import LibraLive.CInt
import LibraLive.ImageDef

/-!
# The planes of an image and the bytes that are copied

What a plane is in each of the formats: how many rows of how many bytes. `CopyNativeImage` copies the planes one after the other,
row by row or at once; here the two ways are copies of bytes.
-/

namespace LibraLive

/-- A call of `memcpy` as a copy of bytes; the length is converted to `size_t`. -/
def Memcpy.toCopy (m : Memcpy) : BlockCopy.Copy Base where
  dst := m.dst.base
  dstOffset := m.dst.offset
  src := m.src.base
  srcOffset := m.src.offset
  length := m.length % 0x10000000000000000

namespace NativeImage

/-- The number of planes: Y, U and V, or Y and UV, or one. -/
def planes (img : NativeImage) : Nat :=
  if img.format = IMAGE_FORMAT_I420 then 3
  else if img.format = IMAGE_FORMAT_NV21 ∨ img.format = IMAGE_FORMAT_NV12 then 2
  else if img.format = IMAGE_FORMAT_RGBA then 1
  else 0

/-- The rows of a plane: the chroma planes have half of them. -/
def rows (img : NativeImage) (p : Fin 3) : Int := if p.val = 0 then img.height else img.height / 2

/-- The bytes of a row that belong to the picture. -/
def rowBytes (img : NativeImage) (p : Fin 3) : Int :=
  if img.format = IMAGE_FORMAT_RGBA then img.width * 4
  else if img.format = IMAGE_FORMAT_I420 ∧ p.val ≠ 0 then img.width / 2
  else img.width

/-- The bytes that are copied of a plane that is copied at once. -/
def wholeBytes (img : NativeImage) (p : Fin 3) : Int :=
  if p.val = 0 then img.pLineSize.get p * img.height else img.pLineSize.get p * img.height / 2

/-- Two images that `CopyNativeImage` accepts. -/
structure Alike (src dst : NativeImage) : Prop where
  format : src.format = dst.format
  width : src.width = dst.width
  height : src.height = dst.height

/-- The products that the copy of a plane computes are in the range of `int`. -/
def ProductsFit (src dst : NativeImage) (p : Fin 3) : Prop :=
  if src.pLineSize.get p = dst.pLineSize.get p then CInt.Fits (src.pLineSize.get p * src.height)
  else ∀ i : Nat, (i : Int) < src.rows p → CInt.Fits (i * dst.pLineSize.get p) ∧ CInt.Fits (i * src.pLineSize.get p) ∧
    CInt.Fits (src.rowBytes p)

/-- The part of `copyPlanes` that copies one plane. -/
def planeCopies (src dst : NativeImage) (p : Fin 3) : List Memcpy :=
  if p.val < src.planes then
    copyPlane src dst p (src.rows p)
      (if src.format = IMAGE_FORMAT_RGBA then int (src.rowBytes p) else src.rowBytes p)
      (if p.val = 0 then int (src.pLineSize.get p * src.height) else (int (src.pLineSize.get p * src.height)).tdiv 2)
  else []

variable {src dst : NativeImage} {p : Fin 3}

theorem planeCopies_of_le (h : src.planes ≤ p.val) : planeCopies src dst p = [] := if_neg (by omega)

/-- What makes the copy of a plane: its rows, the bytes of a row, and of the whole where the line sizes agree. -/
theorem planeCopies_eq {row row' whole : Int} (hp : p.val < src.planes) (hrows : row' = src.rows p)
    (hrow : row = if src.format = IMAGE_FORMAT_RGBA then int (src.rowBytes p) else src.rowBytes p)
    (hwhole : src.pLineSize.get p = dst.pLineSize.get p → whole =
      if p.val = 0 then int (src.pLineSize.get p * src.height) else (int (src.pLineSize.get p * src.height)).tdiv 2) :
    copyPlane src dst p row' row whole = planeCopies src dst p := by
  unfold planeCopies
  rw [if_pos hp, hrows, hrow]
  unfold copyPlane
  split
  · rfl
  · rename_i heq
    rw [hwhole (by simpa using heq)]

/-- The planes are copied in their order. -/
theorem copyPlanes_eq (h : src.Alike dst) (hw : 0 ≤ src.width) (hh : 0 ≤ src.height) :
    copyPlanes src dst = (List.finRange 3).flatMap (planeCopies src dst) := by
  have hrange : (List.finRange 3).flatMap (planeCopies src dst) =
      planeCopies src dst 0 ++ planeCopies src dst 1 ++ planeCopies src dst 2 := by
    simp [List.finRange_succ]
  rw [hrange]
  unfold copyPlanes
  rw [← h.width, Int.tdiv_eq_ediv_of_nonneg hh, Int.tdiv_eq_ediv_of_nonneg hw]
  split_ifs with hi420 hnv hrgba
  · have hplanes : src.planes = 3 := if_pos hi420
    have hnot : src.format ≠ IMAGE_FORMAT_RGBA := by rw [hi420]; decide
    congr 1
    · congr 1
      · refine planeCopies_eq (by simp [hplanes]) (by simp [rows]) (by simp [rowBytes, hnot]) ?_
        exact fun heq => by simp [heq]
      · refine planeCopies_eq (by simp [hplanes]) (by simp [rows]) (by simp [rowBytes, hi420]) ?_
        exact fun heq => by simp [heq]
    · refine planeCopies_eq (by simp [hplanes]) (by simp [rows]) (by simp [rowBytes, hi420]) ?_
      exact fun heq => by simp [heq]
  · have hplanes : src.planes = 2 := by simp [planes, hi420, hnv]
    have hnot : src.format ≠ IMAGE_FORMAT_RGBA := by rcases hnv with hf | hf <;> rw [hf] <;> decide
    have h2 : planeCopies src dst 2 = [] := planeCopies_of_le (by simp [hplanes])
    rw [h2, List.append_nil]
    congr 1
    · refine planeCopies_eq (by simp [hplanes]) (by simp [rows]) (by simp [rowBytes, hnot]) ?_
      exact fun heq => by simp [heq]
    · refine planeCopies_eq (by simp [hplanes]) (by simp [rows]) (by simp [rowBytes, hnot, hi420]) ?_
      exact fun heq => by simp [heq]
  · have hplanes : src.planes = 1 := by simp [planes, hrgba]
    have h1 : planeCopies src dst 1 = [] := planeCopies_of_le (by simp [hplanes])
    have h2 : planeCopies src dst 2 = [] := planeCopies_of_le (by simp [hplanes])
    rw [h1, h2, List.append_nil, List.append_nil]
    exact planeCopies_eq (by simp [hplanes]) (by simp [rows]) (by simp [rowBytes, hrgba]) (fun _ => by simp)
  · have hplanes : src.planes = 0 := by simp [planes, hi420, hnv, hrgba]
    have hnone : ∀ p, planeCopies src dst p = [] := fun p => planeCopies_of_le (by simp [hplanes])
    simp [hnone]

/-! ## The bytes of one plane -/

theorem int_of_fits {x : Int} (h : CInt.Fits x) : int x = x := by
  obtain ⟨hle, hlt⟩ := h
  rw [int, Int.bmod_def]
  omega

theorem rows_nonneg (hh : 0 ≤ src.height) : 0 ≤ src.rows p := by
  unfold rows
  split <;> omega

theorem rowBytes_nonneg (hw : 0 ≤ src.width) : 0 ≤ src.rowBytes p := by
  unfold rowBytes
  split_ifs <;> omega

/-- A plane whose line sizes differ is copied row by row. -/
theorem planeCopies_rows (hp : p.val < src.planes) (hne : src.pLineSize.get p ≠ dst.pLineSize.get p)
    (hfit : ProductsFit src dst p) (hw : 0 ≤ src.width) :
    (planeCopies src dst p).map Memcpy.toCopy = BlockCopy.rows (dst.ppPlane.get p).base (dst.ppPlane.get p).offset
      (dst.pLineSize.get p) (src.ppPlane.get p).base (src.ppPlane.get p).offset (src.pLineSize.get p) (src.rowBytes p)
      (src.rows p).toNat := by
  have hnonneg := rowBytes_nonneg (p := p) hw
  unfold ProductsFit at hfit
  rw [if_neg hne] at hfit
  unfold planeCopies copyPlane BlockCopy.rows
  rw [if_pos hp, if_pos hne, List.map_map]
  refine List.map_congr_left fun i hi => ?_
  obtain ⟨hdst, hsrc, hrow⟩ := hfit i (by have := List.mem_range.mp hi; omega)
  have hlength : (if src.format = IMAGE_FORMAT_RGBA then int (src.rowBytes p) else src.rowBytes p) = src.rowBytes p := by
    rw [int_of_fits hrow, ite_self]
  have hsize : src.rowBytes p % 0x10000000000000000 = src.rowBytes p := by
    unfold CInt.Fits at hrow
    omega
  simp only [Function.comp_apply, Memcpy.toCopy, Ptr.add, int_of_fits hdst, int_of_fits hsrc, hlength, hsize]

/-- A plane whose line sizes agree is copied at once. -/
theorem planeCopies_whole (hp : p.val < src.planes) (heq : src.pLineSize.get p = dst.pLineSize.get p)
    (hfit : ProductsFit src dst p) (hh : 0 ≤ src.height) (hline : 0 ≤ src.pLineSize.get p) :
    (planeCopies src dst p).map Memcpy.toCopy = [⟨(dst.ppPlane.get p).base, (dst.ppPlane.get p).offset,
      (src.ppPlane.get p).base, (src.ppPlane.get p).offset, src.wholeBytes p⟩] := by
  have hnonneg : 0 ≤ src.pLineSize.get p * src.height := Int.mul_nonneg hline hh
  unfold ProductsFit at hfit
  rw [if_pos heq] at hfit
  have hlength : (if p.val = 0 then int (src.pLineSize.get p * src.height)
      else (int (src.pLineSize.get p * src.height)).tdiv 2) = src.wholeBytes p := by
    rw [int_of_fits hfit, Int.tdiv_eq_ediv_of_nonneg hnonneg]
    rfl
  have hsize : src.wholeBytes p % 0x10000000000000000 = src.wholeBytes p := by
    unfold CInt.Fits at hfit
    unfold wholeBytes
    split <;> omega
  unfold planeCopies copyPlane
  rw [if_pos hp, if_neg (by simpa using heq), hlength]
  simp only [List.map_cons, List.map_nil, Memcpy.toCopy, hsize]

end NativeImage

end LibraLive

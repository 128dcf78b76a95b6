import Mathlib.Tactic.Ring
import LibraLive.WindowThreads

/-!
# The bytes that are drawn

`renderFrameCallBack` copies as many bytes of each row as a row of the window's buffer has, which may be more than a row of the
picture has: the last row then goes beyond the end of the picture.
-/

namespace LibraLive

open BlockCopy

/-- The copies are computed without overflow, read the picture only, write the buffer only, and bring every byte of every pixel of
the picture to its place in the window. -/
def BlitRight (windowBuffer : ANativeWindow_Buffer) (src_lineSize : Int) : Prop :=
  ∃ copies, blit windowBuffer src_lineSize = some copies ∧
    (∀ c ∈ copies, ∀ area offset, c.Reads area offset →
      area = .src_data ∧ 0 ≤ offset ∧ offset < windowBuffer.height * src_lineSize) ∧
    (∀ c ∈ copies, ∀ area offset, c.Writes area offset →
      area = .dst_data ∧ 0 ≤ offset ∧ offset < windowBuffer.stride * 4 * windowBuffer.height) ∧
    ∀ (m : Area → Int → UInt8) (x y byte : Int), 0 ≤ x → x < windowBuffer.width → 0 ≤ y → y < windowBuffer.height →
      0 ≤ byte → byte < 4 →
      run m copies .dst_data ((y * windowBuffer.stride + x) * 4 + byte) = m .src_data (y * src_lineSize + x * 4 + byte)

variable {windowBuffer : ANativeWindow_Buffer} {src_lineSize : Int}

theorem blit_eq_some {copies : List (Copy Area)} : blit windowBuffer src_lineSize = some copies ↔
    (CInt.Fits (windowBuffer.stride * 4) ∧ ∀ i < windowBuffer.height.toNat,
      CInt.Fits (i * (windowBuffer.stride * 4)) ∧ CInt.Fits (i * src_lineSize)) ∧
    copies = rows .dst_data 0 (windowBuffer.stride * 4) .src_data 0 src_lineSize (windowBuffer.stride * 4)
      windowBuffer.height.toNat := by
  unfold blit
  dsimp only
  rw [Option.ite_none_right_eq_some, Option.some.injEq, eq_comm (b := copies)]

/-- The rows of the buffer are in the buffer. -/
theorem blit_writes {c : Copy Area} {area : Area} {offset : Int}
    (hc : c ∈ rows Area.dst_data 0 (windowBuffer.stride * 4) .src_data 0 src_lineSize (windowBuffer.stride * 4)
      windowBuffer.height.toNat) (hstride : 0 ≤ windowBuffer.stride) (hw : c.Writes area offset) :
    area = .dst_data ∧ 0 ≤ offset ∧ offset < windowBuffer.stride * 4 * windowBuffer.height := by
  obtain ⟨i, hi, rfl⟩ := mem_rows.mp hc
  obtain ⟨rfl, hle, hlt⟩ := hw
  dsimp only at hle hlt ⊢
  have hrow : ((i : Int) + 1) * (windowBuffer.stride * 4) ≤ windowBuffer.height * (windowBuffer.stride * 4) :=
    Int.mul_le_mul_of_nonneg_right (by omega) (by omega)
  have hfirst : 0 ≤ (i : Int) * (windowBuffer.stride * 4) := Int.mul_nonneg (by omega) (by omega)
  refine ⟨rfl, by omega, ?_⟩
  linarith

/-- So are the rows of the picture in the picture, if they are as long as those of the buffer. -/
theorem blit_reads {c : Copy Area} {area : Area} {offset : Int}
    (hc : c ∈ rows Area.dst_data 0 (windowBuffer.stride * 4) .src_data 0 src_lineSize (windowBuffer.stride * 4)
      windowBuffer.height.toNat) (hstride : 0 ≤ windowBuffer.stride) (hle : windowBuffer.stride * 4 ≤ src_lineSize)
    (hr : c.Reads area offset) : area = .src_data ∧ 0 ≤ offset ∧ offset < windowBuffer.height * src_lineSize := by
  obtain ⟨i, hi, rfl⟩ := mem_rows.mp hc
  obtain ⟨rfl, hfrom, hlt⟩ := hr
  dsimp only at hfrom hlt ⊢
  have hrow : ((i : Int) + 1) * src_lineSize ≤ windowBuffer.height * src_lineSize :=
    Int.mul_le_mul_of_nonneg_right (by omega) (by omega)
  have hfirst : 0 ≤ (i : Int) * src_lineSize := Int.mul_nonneg (by omega) (by omega)
  refine ⟨rfl, by omega, ?_⟩
  linarith

/-- The blit is right exactly when the rows of the buffer are not longer than those of the picture and the offsets are `int`s. -/
theorem blit_iff (hwidth : 0 ≤ windowBuffer.width) (hheight : 0 ≤ windowBuffer.height)
    (hline : 4 * windowBuffer.width ≤ src_lineSize) (hstride : windowBuffer.width ≤ windowBuffer.stride) :
    BlitRight windowBuffer src_lineSize ↔ CInt.Fits (windowBuffer.stride * 4) ∧
      (windowBuffer.height = 0 ∨
        windowBuffer.stride * 4 ≤ src_lineSize ∧ CInt.Fits ((windowBuffer.height - 1) * src_lineSize)) := by
  constructor
  · rintro ⟨copies, hcopies, hreads, -, -⟩
    obtain ⟨⟨hfits, hrows⟩, rfl⟩ := blit_eq_some.mp hcopies
    refine ⟨hfits, ?_⟩
    obtain hzero | hpos := hheight.eq_or_lt
    · exact Or.inl hzero.symm
    · have hlast : windowBuffer.height.toNat - 1 < windowBuffer.height.toNat := by omega
      have hcast : ((windowBuffer.height.toNat - 1 : Nat) : Int) = windowBuffer.height - 1 := by omega
      refine Or.inr ⟨?_, hcast ▸ (hrows _ hlast).2⟩
      -- the last byte that the last row reads is in the picture
      by_contra hlong
      obtain ⟨-, -, hend⟩ := hreads _ (mem_rows.mpr ⟨_, hlast, rfl⟩) .src_data
        (0 + (windowBuffer.height.toNat - 1 : Nat) * src_lineSize + windowBuffer.stride * 4 - 1)
        ⟨rfl, by dsimp only; omega, by dsimp only; omega⟩
      rw [hcast] at hend
      linarith
  · rintro ⟨hfits, hcond⟩
    have hrows : ∀ i < windowBuffer.height.toNat, CInt.Fits (i * (windowBuffer.stride * 4)) ∧ CInt.Fits (i * src_lineSize) ∧
        windowBuffer.stride * 4 ≤ src_lineSize := by
      intro i hi
      obtain ⟨hle, hlast⟩ := hcond.resolve_left (by omega)
      have hsrc : (i : Int) * src_lineSize ≤ (windowBuffer.height - 1) * src_lineSize :=
        Int.mul_le_mul_of_nonneg_right (by omega) (by omega)
      have hdst : (i : Int) * (windowBuffer.stride * 4) ≤ i * src_lineSize := Int.mul_le_mul_of_nonneg_left hle (by omega)
      have hfirst : 0 ≤ (i : Int) * (windowBuffer.stride * 4) := Int.mul_nonneg (by omega) (by omega)
      unfold CInt.Fits at hlast ⊢
      exact ⟨⟨by omega, by omega⟩, ⟨by omega, by omega⟩, hle⟩
    refine ⟨_, blit_eq_some.mpr ⟨⟨hfits, fun i hi => ⟨(hrows i hi).1, (hrows i hi).2.1⟩⟩, rfl⟩, ?_, ?_, ?_⟩
    · intro c hc area offset hr
      obtain ⟨i, hi, -⟩ := mem_rows.mp hc
      exact blit_reads hc (by omega) (hrows i hi).2.2 hr
    · intro c hc area offset hw
      exact blit_writes hc (by omega) hw
    · intro m x y byte hx hxw hy hyh hb hb4
      have hrow : run m (rows .dst_data 0 (windowBuffer.stride * 4) .src_data 0 src_lineSize (windowBuffer.stride * 4)
          windowBuffer.height.toNat) .dst_data (0 + (y.toNat : Nat) * (windowBuffer.stride * 4) + (x * 4 + byte)) =
          m .src_data (0 + (y.toNat : Nat) * src_lineSize + (x * 4 + byte)) :=
        run_rows (by omega) (by omega) (by omega) le_rfl (by decide)
      rw [Int.toNat_of_nonneg hy] at hrow
      calc run m _ .dst_data ((y * windowBuffer.stride + x) * 4 + byte)
        _ = run m _ .dst_data (0 + y * (windowBuffer.stride * 4) + (x * 4 + byte)) := by congr 1; ring
        _ = m .src_data (0 + y * src_lineSize + (x * 4 + byte)) := hrow
        _ = m .src_data (y * src_lineSize + x * 4 + byte) := by congr 1; ring

/-- A picture of two rows of three pixels, and a buffer without padding. -/
theorem blit_example : BlitRight ⟨3, 2, 3⟩ 12 :=
  (blit_iff (by norm_num) (by norm_num) (by norm_num) (by norm_num)).mpr (by decide)

/-- A picture of one row of one pixel, and a buffer whose row takes two: four bytes are read beyond the picture. -/
theorem blit_overrun : ¬ ∀ windowBuffer src_lineSize, 0 ≤ windowBuffer.width → 0 ≤ windowBuffer.height →
    4 * windowBuffer.width ≤ src_lineSize → windowBuffer.width ≤ windowBuffer.stride → BlitRight windowBuffer src_lineSize := by
  intro h
  obtain ⟨copies, hcopies, hreads, -, -⟩ := h ⟨1, 1, 2⟩ 4 (by norm_num) (by norm_num) (by norm_num) (by norm_num)
  obtain ⟨-, rfl⟩ := blit_eq_some.mp hcopies
  have hlast := hreads _ (mem_rows.mpr ⟨0, by decide, rfl⟩) .src_data 7 (by decide)
  exact absurd hlast.2.2 (by decide)

end LibraLive

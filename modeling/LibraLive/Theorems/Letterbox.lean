import Mathlib.Algebra.Order.Field.Basic
import Mathlib.Order.Bounds.Basic
import LibraLive.NativeRender

/-!
# A video fits the window

`Init` compares the width of the window with a quotient that is cut off, and where the window is narrower it divides the other way
round. One of the two sides is the window's in both cases, and the other one is cut off from what the video's shape would ask for.
-/

namespace LibraLive

/-- The video is as large as the window lets it be: one side is the window's, and the other one the largest that keeps the shape of
the video. -/
structure Letterboxed (window : WindowSize) (videoWidth videoHeight width height : Int) : Prop where
  width_le : width ≤ window.width
  height_le : height ≤ window.height
  side : width = window.width ∧ IsGreatest {n : ℤ | (n : ℚ) ≤ (window.width * videoHeight : ℚ) / videoWidth} height ∨
    height = window.height ∧ IsGreatest {n : ℤ | (n : ℚ) ≤ (window.height * videoWidth : ℚ) / videoHeight} width
  shape : |width * videoHeight - height * videoWidth| < max videoWidth videoHeight

namespace NativeRender

variable {windowWidth windowHeight videoWidth videoHeight : Int}

/-- A quotient that is cut off is the largest integer up to the exact one. -/
theorem isGreatest_ediv (a : Int) {b : Int} (hb : 0 < b) : IsGreatest {n : ℤ | (n : ℚ) ≤ (a : ℚ) / b} (a / b) := by
  have hiff : ∀ n : ℤ, (n : ℚ) ≤ (a : ℚ) / b ↔ n ≤ a / b := by
    intro n
    rw [le_div_iff₀ (by exact_mod_cast hb), Int.le_ediv_iff_mul_le hb]
    exact_mod_cast Iff.rfl
  exact ⟨(hiff _).mpr le_rfl, fun n hn => (hiff n).mp hn⟩

/-- Nothing overflows, and the quotients are cut off. -/
theorem fit_eq (hww : 0 < windowWidth) (hwh : 0 < windowHeight) (hvw : 0 < videoWidth) (hvh : 0 < videoHeight)
    (hfirst : windowHeight * videoWidth < 2147483648) (hsecond : windowWidth * videoHeight < 2147483648) :
    fit windowWidth windowHeight videoWidth videoHeight =
      some (if windowWidth < windowHeight * videoWidth / videoHeight then (windowWidth, windowWidth * videoHeight / videoWidth)
        else (windowHeight * videoWidth / videoHeight, windowHeight)) := by
  have hpos : 0 < windowHeight * videoWidth := Int.mul_pos hwh hvw
  have hpos' : 0 < windowWidth * videoHeight := Int.mul_pos hww hvh
  unfold fit
  rw [CInt.mul_of_fits ⟨by omega, by omega⟩, CInt.mul_of_fits ⟨by omega, by omega⟩]
  simp only [Option.bind_eq_bind, Option.bind_some, CInt.div_of_nonneg hpos.le hvh hfirst,
    CInt.div_of_nonneg hpos'.le hvw hsecond]
  split <;> rfl

/-- The window is narrower than the video would be in it at full height. -/
theorem letterboxed_narrow {window : WindowSize} (hvw : 0 < videoWidth) (hvh : 0 < videoHeight)
    (hlt : window.width < window.height * videoWidth / videoHeight) :
    Letterboxed window videoWidth videoHeight window.width (window.width * videoHeight / videoWidth) := by
  have hcut : window.width * videoHeight ≤ window.height * videoWidth := by
    have hstep : window.width * videoHeight ≤ window.height * videoWidth / videoHeight * videoHeight :=
      Int.mul_le_mul_of_nonneg_right hlt.le hvh.le
    exact hstep.trans (Int.ediv_mul_le _ hvh.ne')
  have hrest : window.width * videoHeight - window.width * videoHeight / videoWidth * videoWidth =
      window.width * videoHeight % videoWidth := by
    have := Int.emod_add_ediv_mul (window.width * videoHeight) videoWidth
    omega
  refine ⟨le_rfl, ?_, Or.inl ⟨rfl, ?_⟩, ?_⟩
  · exact Int.ediv_le_of_le_mul hvw hcut
  · exact_mod_cast isGreatest_ediv (window.width * videoHeight) hvw
  · rw [hrest, abs_of_nonneg (Int.emod_nonneg _ hvw.ne')]
    exact (Int.emod_lt_of_pos _ hvw).trans_le (le_max_left _ _)

/-- The video is as high as the window. -/
theorem letterboxed_wide {window : WindowSize} (hvh : 0 < videoHeight)
    (hge : window.height * videoWidth / videoHeight ≤ window.width) :
    Letterboxed window videoWidth videoHeight (window.height * videoWidth / videoHeight) window.height := by
  have hrest : window.height * videoWidth / videoHeight * videoHeight - window.height * videoWidth =
      - (window.height * videoWidth % videoHeight) := by
    have := Int.emod_add_ediv_mul (window.height * videoWidth) videoHeight
    omega
  refine ⟨hge, le_rfl, Or.inr ⟨rfl, ?_⟩, ?_⟩
  · exact_mod_cast isGreatest_ediv (window.height * videoWidth) hvh
  · rw [hrest, abs_neg, abs_of_nonneg (Int.emod_nonneg _ hvh.ne')]
    exact (Int.emod_lt_of_pos _ hvh).trans_le (le_max_right _ _)

/-- `Init` has a result for every window and video whose products are `int`s, and that is the letterboxed size, which the window's
buffers and `dstSize` get as well. -/
theorem init_letterboxed (r : NativeRender) (window : WindowSize) (videoWidth videoHeight : Int)
    (hwindow : r.m_NativeWindow = some window) (hww : 0 < window.width) (hwh : 0 < window.height) (hvw : 0 < videoWidth)
    (hvh : 0 < videoHeight) (hfirst : window.height * videoWidth < 2 ^ 31) (hsecond : window.width * videoHeight < 2 ^ 31) :
    ∃ r' out, r.init videoWidth videoHeight = some (r', out) ∧
      Letterboxed window videoWidth videoHeight r'.m_DstWidth r'.m_DstHeight ∧
      out.buffersGeometry = some (r'.m_DstWidth, r'.m_DstHeight) ∧ out.dstSize = some (r'.m_DstWidth, r'.m_DstHeight) := by
  unfold init
  rw [hwindow]
  simp only [fit_eq hww hwh hvw hvh (by omega) (by omega)]
  refine ⟨_, _, rfl, ?_, rfl, rfl⟩
  by_cases hlt : window.width < window.height * videoWidth / videoHeight
  · rw [if_pos hlt]
    exact letterboxed_narrow hvw hvh hlt
  · rw [if_neg hlt]
    exact letterboxed_wide hvh (by omega)

/-- A renderer with a window that is higher than wide. -/
def portrait : NativeRender where
  m_NativeWindow := some ⟨1080, 1920⟩
  m_NativeWindowBuffer := ⟨0, 0, 0⟩
  bits := .null
  m_DstWidth := 0
  m_DstHeight := 0

/-- A video that is wider than high is as wide as this window. -/
example : (portrait.init 1280 720).map (·.2.dstSize) = some (some (1080, 607)) := by decide

theorem init_letterboxed_example : ∃ r' out, portrait.init 1280 720 = some (r', out) ∧
    Letterboxed ⟨1080, 1920⟩ 1280 720 r'.m_DstWidth r'.m_DstHeight ∧
    out.buffersGeometry = some (r'.m_DstWidth, r'.m_DstHeight) ∧ out.dstSize = some (r'.m_DstWidth, r'.m_DstHeight) :=
  init_letterboxed portrait ⟨1080, 1920⟩ 1280 720 rfl (by decide) (by decide) (by decide) (by decide) (by decide) (by decide)

end NativeRender

end LibraLive

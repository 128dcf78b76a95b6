import Mathlib.Tactic.Linarith
import Mathlib.Tactic.FieldSimp
import LibraLive.Pacing

/-!
# How long `render` sleeps

The comment beside `extra_delay` divides `repeat_pict` by twice the frame rate, the code does not; and both calls of `av_usleep`
cast the seconds to `int` before they multiply by a million. So the argument is a whole number of seconds.
-/

namespace LibraLive

namespace VideoChannel

/-- The delay the comments of `render` give: `repeat_pict / (2 * fps)` and one frame. -/
def delay (fps repeat_pict : Int) : ℚ := repeat_pict / (2 * fps) + 1 / fps

/-- How many microseconds `render` should sleep when the picture is ahead. -/
def sleepLaw (time_diff : ℚ) (fps repeat_pict : Int) : ℚ :=
  (if time_diff ≤ 1 then time_diff + delay fps repeat_pict else 2 * delay fps repeat_pict) * 1000000

/-- The argument of `av_usleep` is computed without overflow, is within a microsecond of what it should be, and is not zero when
the picture is ahead by less than a second. -/
def PacedByLaw (time_diff : ℚ) (fps repeat_pict : Int) : Prop :=
  ∃ usec, usleep time_diff fps repeat_pict = some usec ∧ |(usec : ℚ) - sleepLaw time_diff fps repeat_pict| ≤ 1 ∧
    (time_diff < 1 → usec ≠ 0)

/-- A call of `av_usleep` with `(int) x * 1000000` is right when the whole seconds of `x` are within a millionth of what they
should be, if these are not too many for an `int` of microseconds. -/
theorem cast_near_iff {x law : ℚ} {p : Prop} (hx : 0 ≤ x)
    (hsmall : |(CInt.truncate x : ℚ) - law| ≤ 1 / 1000000 → CInt.truncate x ≤ 2147) :
    (∃ usec, (CInt.ofDouble x).bind (CInt.mul · 1000000) = some usec ∧ |(usec : ℚ) - law * 1000000| ≤ 1 ∧ (p → usec ≠ 0)) ↔
      |(CInt.truncate x : ℚ) - law| ≤ 1 / 1000000 ∧ (p → 1 ≤ x) := by
  have hnonneg : 0 ≤ CInt.truncate x := by
    rw [CInt.truncate_of_nonneg hx]
    exact Int.floor_nonneg.mpr hx
  have hscale : ∀ n : Int, |((n * 1000000 : Int) : ℚ) - law * 1000000| ≤ 1 ↔ |(n : ℚ) - law| ≤ 1 / 1000000 := by
    intro n
    have heq : ((n * 1000000 : Int) : ℚ) - law * 1000000 = (n - law) * 1000000 := by
      push_cast
      ring
    rw [heq, abs_mul, abs_of_pos (by norm_num : (0 : ℚ) < 1000000), le_div_iff₀ (by norm_num)]
  constructor
  · rintro ⟨usec, husec, hnear, hzero⟩
    obtain ⟨n, hn, hmul⟩ := Option.bind_eq_some_iff.mp husec
    obtain ⟨-, rfl⟩ := CInt.ofDouble_eq_some.mp hn
    obtain ⟨-, rfl⟩ := CInt.mul_eq_some.mp hmul
    refine ⟨(hscale _).mp hnear, fun hp => CInt.one_le_truncate.mp ?_⟩
    have := hzero hp
    omega
  · rintro ⟨hnear, hone⟩
    have hle := hsmall hnear
    refine ⟨CInt.truncate x * 1000000, ?_, (hscale _).mpr hnear, fun hp => ?_⟩
    · refine Option.bind_eq_some_iff.mpr ⟨_, CInt.ofDouble_eq_some.mpr ⟨?_, rfl⟩, CInt.mul_eq_some.mpr ⟨?_, rfl⟩⟩
      · unfold CInt.Fits
        omega
      · unfold CInt.Fits
        omega
    · have := CInt.one_le_truncate.mpr (hone hp)
      omega

variable {time_diff : ℚ} {fps repeat_pict : Int}

theorem usleep_near (hf : 1 ≤ fps) (hd : time_diff ≤ 1) : usleep time_diff fps repeat_pict =
    (CInt.ofDouble (time_diff + (repeat_pict + 1 / fps))).bind (CInt.mul · 1000000) := by
  have hne : fps ≠ 0 := by omega
  simp only [usleep, result_delay, base_delay, extra_delay, if_neg hne, Option.map_some, Option.bind_some, if_neg (not_lt.mpr hd)]

theorem usleep_far (hf : 1 ≤ fps) (hd : 1 < time_diff) : usleep time_diff fps repeat_pict =
    (CInt.ofDouble ((repeat_pict + 1 / fps) * 2)).bind (CInt.mul · 1000000) := by
  have hne : fps ≠ 0 := by omega
  simp only [usleep, result_delay, base_delay, extra_delay, if_neg hne, Option.map_some, Option.bind_some, if_pos hd]

/-- Up to a second ahead: the whole seconds are right if `time_diff + 1 / fps` has the fraction that makes up for `repeat_pict`
not being divided. -/
theorem near_iff (hf : 1 ≤ fps) (hr : 0 ≤ repeat_pict) (hpos : 0 < time_diff) (hd : time_diff ≤ 1) :
    PacedByLaw time_diff fps repeat_pict ↔
      |repeat_pict * (1 - 1 / (2 * fps : ℚ)) - Int.fract (time_diff + 1 / fps)| ≤ 1 / 1000000 ∧
        (time_diff < 1 → 1 ≤ time_diff + (repeat_pict + 1 / fps)) := by
  have hfps : (1 : ℚ) ≤ fps := by exact_mod_cast hf
  have hrep : (0 : ℚ) ≤ repeat_pict := by exact_mod_cast hr
  have hframe : (0 : ℚ) < 1 / fps := by positivity
  have hx : 0 ≤ time_diff + (repeat_pict + 1 / fps) := by positivity
  have herror : (CInt.truncate (time_diff + (repeat_pict + 1 / fps)) : ℚ) - (time_diff + delay fps repeat_pict) =
      repeat_pict * (1 - 1 / (2 * fps : ℚ)) - Int.fract (time_diff + 1 / fps) := by
    have hsplit : time_diff + (repeat_pict + 1 / fps) = (time_diff + 1 / fps) + repeat_pict := by ring
    rw [CInt.truncate_of_nonneg hx, hsplit, Int.floor_add_intCast, Int.cast_add, delay, ← Int.self_sub_floor (time_diff + 1 / fps)]
    field_simp
    ring
  unfold PacedByLaw sleepLaw
  rw [usleep_near hf hd, if_pos hd, cast_near_iff hx, herror]
  -- with an error of a microsecond the frame is repeated three times at most, so there is no overflow
  intro hnear
  rw [herror] at hnear
  have hhalf : 1 / (2 * fps : ℚ) ≤ 1 / 2 := one_div_le_one_div_of_le (by norm_num) (by linarith)
  have hrepeat : repeat_pict * (1 / 2 : ℚ) ≤ repeat_pict * (1 - 1 / (2 * fps : ℚ)) :=
    mul_le_mul_of_nonneg_left (by linarith) hrep
  have hfract := Int.fract_lt_one (time_diff + 1 / fps)
  have hle := (abs_le.mp hnear).2
  have hone : 1 / (fps : ℚ) ≤ 1 := by
    rw [div_le_one (by linarith)]
    exact hfps
  have hfloor : ((CInt.truncate (time_diff + (repeat_pict + 1 / fps)) : Int) : ℚ) ≤ 2147 := by
    rw [CInt.truncate_of_nonneg hx]
    exact (Int.floor_le _).trans (by linarith)
  exact_mod_cast hfloor

/-- Two frames are a whole number of seconds at one or two frames per second, and less than a second at a higher rate. -/
theorem fract_two_frames (hf : 1 ≤ fps) : Int.fract (2 / fps : ℚ) = if fps ≤ 2 then 0 else (2 / fps : ℚ) := by
  split_ifs with hle
  · obtain rfl | rfl : fps = 1 ∨ fps = 2 := by omega
    · norm_num
    · norm_num
  · have hthree : (3 : ℚ) ≤ fps := by exact_mod_cast (by omega : 3 ≤ fps)
    refine Int.fract_eq_self.mpr ⟨by positivity, ?_⟩
    rw [div_lt_one (by linarith)]
    linarith

/-- The error more than a second ahead is a microsecond at most only if nothing is repeated and nothing is cut off. -/
theorem far_error_iff (hf : 1 ≤ fps) (hr : 0 ≤ repeat_pict) :
    |repeat_pict * (2 - 1 / fps : ℚ) - Int.fract (2 / fps : ℚ)| ≤ 1 / 1000000 ↔
      repeat_pict = 0 ∧ (fps ≤ 2 ∨ 2000000 ≤ fps) := by
  have hfps : (1 : ℚ) ≤ fps := by exact_mod_cast hf
  rw [fract_two_frames hf]
  obtain rfl | hpos := hr.eq_or_lt
  · split_ifs with hle
    · simp [hle]
    · have habs : |((0 : Int) : ℚ) * (2 - 1 / fps) - 2 / fps| = 2 / fps := by
        rw [Int.cast_zero, zero_mul, zero_sub, abs_neg, abs_of_pos (by positivity)]
      have hrate : (2 / fps : ℚ) ≤ 1 / 1000000 ↔ 2000000 ≤ fps := by
        rw [div_le_div_iff₀ (by linarith) (by norm_num), one_mul]
        norm_num
        exact_mod_cast Iff.rfl
      rw [habs, hrate]
      simp [hle]
  · -- a repeated frame alone is a second too much
    refine iff_of_false (fun hnear => ?_) (fun h => hpos.ne' h.1)
    have hone : (1 : ℚ) ≤ repeat_pict := by exact_mod_cast hpos
    have hframe : 1 / (fps : ℚ) ≤ 1 := by
      rw [div_le_one (by linarith)]
      exact hfps
    have hrepeat : 1 * (2 - 1 / fps : ℚ) ≤ repeat_pict * (2 - 1 / fps) := mul_le_mul_of_nonneg_right hone (by linarith)
    have hle := (abs_le.mp hnear).2
    split_ifs at hle with hfew
    · linarith
    · have hthree : (3 : ℚ) ≤ fps := by exact_mod_cast (by omega : 3 ≤ fps)
      have hsum : (1 / fps + 2 / fps : ℚ) ≤ 1 := by
        rw [← add_div, div_le_one (by linarith)]
        linarith
      linarith

/-- More than a second ahead: the whole seconds are right only if they are the delay itself. -/
theorem far_iff (hf : 1 ≤ fps) (hr : 0 ≤ repeat_pict) (hd : 1 < time_diff) :
    PacedByLaw time_diff fps repeat_pict ↔ repeat_pict = 0 ∧ (fps ≤ 2 ∨ 2000000 ≤ fps) := by
  have hfps : (1 : ℚ) ≤ fps := by exact_mod_cast hf
  have hrep : (0 : ℚ) ≤ repeat_pict := by exact_mod_cast hr
  have hframe : (0 : ℚ) < 1 / fps := by positivity
  have hx : 0 ≤ (repeat_pict + 1 / fps : ℚ) * 2 := by positivity
  have herror : (CInt.truncate ((repeat_pict + 1 / fps : ℚ) * 2) : ℚ) - 2 * delay fps repeat_pict =
      repeat_pict * (2 - 1 / fps : ℚ) - Int.fract (2 / fps : ℚ) := by
    have hsplit : (repeat_pict + 1 / fps : ℚ) * 2 = 2 / fps + (2 * repeat_pict : Int) := by
      push_cast
      ring
    rw [CInt.truncate_of_nonneg hx, hsplit, Int.floor_add_intCast, Int.cast_add, delay, ← Int.self_sub_floor (2 / fps : ℚ)]
    push_cast
    field_simp
    ring
  unfold PacedByLaw sleepLaw
  rw [usleep_far hf hd, if_neg (not_le.mpr hd), cast_near_iff hx, herror, far_error_iff hf hr]
  · simp [not_lt.mpr hd.le]
  · intro hnear
    rw [herror, far_error_iff hf hr] at hnear
    obtain ⟨rfl, -⟩ := hnear
    have hone : 1 / (fps : ℚ) ≤ 1 := by
      rw [div_le_one (by linarith)]
      exact hfps
    have hfloor : ((CInt.truncate (((0 : Int) + 1 / fps : ℚ) * 2) : Int) : ℚ) ≤ 2147 := by
      rw [CInt.truncate_of_nonneg hx]
      exact (Int.floor_le _).trans (by push_cast; linarith)
    exact_mod_cast hfloor

/-- When `render` sleeps as long as it should. -/
theorem paced_iff (hf : 1 ≤ fps) (hr : 0 ≤ repeat_pict) (hpos : 0 < time_diff) : PacedByLaw time_diff fps repeat_pict ↔
    if time_diff ≤ 1 then
      |repeat_pict * (1 - 1 / (2 * fps : ℚ)) - Int.fract (time_diff + 1 / fps)| ≤ 1 / 1000000 ∧
        (time_diff < 1 → 1 ≤ time_diff + (repeat_pict + 1 / fps))
    else repeat_pict = 0 ∧ (fps ≤ 2 ∨ 2000000 ≤ fps) := by
  split_ifs with hd
  · exact near_iff hf hr hpos hd
  · exact far_iff hf hr (not_le.mp hd)

/-- At 25 frames per second and 0.96 seconds ahead, `render` sleeps for the second that it should. -/
theorem paced_example : PacedByLaw (24 / 25) 25 0 :=
  (paced_iff (by norm_num) le_rfl (by norm_num)).mpr (by norm_num)

/-- At 25 frames per second and half a second ahead, it does not sleep at all. -/
theorem not_paced : ¬ ∀ (fps repeat_pict : Int) (time_diff : ℚ), 1 ≤ fps → 0 ≤ repeat_pict → 0 < time_diff →
    PacedByLaw time_diff fps repeat_pict := by
  intro h
  obtain ⟨usec, husec, -, hzero⟩ := h 25 0 (1 / 2) (by norm_num) le_rfl (by norm_num)
  have hnone : usleep (1 / 2) 25 0 = some 0 := by decide +kernel
  rw [hnone] at husec
  exact hzero (by norm_num) (Option.some.inj husec).symm

end VideoChannel

end LibraLive

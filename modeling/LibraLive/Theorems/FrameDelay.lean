import Mathlib.Tactic.NormNum
import LibraLive.Pacing
import LibraLive.Prepare

/-!
# When the frame delay is defined

`init_prepare` cuts the average frame rate off to an `int` without a look at it, and `render` divides by the result. A rate that
is not known, `0/0` or `0/1`, and a rate below one frame per second give no frame rate to divide by.
-/

namespace LibraLive

/-- The conversion to `fps` is defined and gives at least one. -/
theorem fps_pos_iff (rate : AVRational) : (∃ n, fps rate = some n ∧ 1 ≤ n) ↔
    rate.den ≠ 0 ∧ 1 ≤ (rate.num / rate.den : ℚ) ∧ (rate.num / rate.den : ℚ) < 2 ^ 31 := by
  unfold fps av_q2d
  by_cases hden : rate.den = 0
  · simp [hden]
  · rw [if_neg hden, Option.bind_some]
    simp only [ne_eq, hden, not_false_eq_true, true_and]
    constructor
    · rintro ⟨n, hn, hone⟩
      obtain ⟨hfits, rfl⟩ := CInt.ofDouble_eq_some.mp hn
      have hle := CInt.one_le_truncate.mp hone
      exact ⟨hle, (CInt.fits_truncate (zero_le_one.trans hle)).mp hfits⟩
    · rintro ⟨hle, hlt⟩
      have hfits := (CInt.fits_truncate (zero_le_one.trans hle)).mpr hlt
      exact ⟨_, CInt.ofDouble_eq_some.mpr ⟨hfits, rfl⟩, CInt.one_le_truncate.mpr hle⟩

namespace Prepare

/-- For every video stream that gets a channel: the conversion to `fps` is defined and gives at least one, and no frame of the
channel, whatever its `repeat_pict`, makes `render` divide by zero. -/
def FrameDelaysDefined (source : Source) (avg_frame_rate : Nat → AVRational) : Prop :=
  ∀ channel ∈ (initPrepare source).created, channel.kind = .video → ∃ n, fps (avg_frame_rate channel.id) = some n ∧ 1 ≤ n ∧
    ∀ repeat_pict, VideoChannel.result_delay n repeat_pict ≠ none

/-- The delays are defined exactly when the average rate of each of these streams is at least one frame per second, and an
`int`. -/
theorem frameDelays_iff (source : Source) (avg_frame_rate : Nat → AVRational) : FrameDelaysDefined source avg_frame_rate ↔
    ∀ channel ∈ (initPrepare source).created, channel.kind = .video →
      (avg_frame_rate channel.id).den ≠ 0 ∧
        1 ≤ ((avg_frame_rate channel.id).num / (avg_frame_rate channel.id).den : ℚ) ∧
        ((avg_frame_rate channel.id).num / (avg_frame_rate channel.id).den : ℚ) < 2 ^ 31 := by
  refine forall₃_congr fun channel _ _ => ?_
  rw [← fps_pos_iff]
  constructor
  · rintro ⟨n, hn, hone, -⟩
    exact ⟨n, hn, hone⟩
  · rintro ⟨n, hn, hone⟩
    refine ⟨n, hn, hone, fun repeat_pict => ?_⟩
    have hne : n ≠ 0 := by omega
    simp [VideoChannel.result_delay, VideoChannel.base_delay, hne]

/-- A video stream of unknown rate, which opens. -/
def unknownRate : Source := ⟨0, 0, [⟨.video, 1, 1, 0, 0⟩]⟩

/-- Its frame rate is 0, and `render` divides by it. -/
theorem frameDelay_undefined : ¬ ∀ source avg_frame_rate, FrameDelaysDefined source avg_frame_rate := by
  intro h
  obtain ⟨n, hn, hone, -⟩ := h unknownRate (fun _ => ⟨0, 1⟩) ⟨.video, 0, 0⟩ (List.mem_singleton_self _) rfl
  have hzero : fps ⟨0, 1⟩ = some 0 := by decide +kernel
  rw [hzero] at hn
  cases hn
  omega

end Prepare

end LibraLive

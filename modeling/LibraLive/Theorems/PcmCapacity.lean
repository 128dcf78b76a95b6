import Mathlib.Tactic.Positivity
import LibraLive.OpenSl

/-!
# The capacity that `getPcm` announces

`out_buffers` holds one second of the output format. What `getPcm` tells `swr_convert` it may write is computed from the frame
and the samples the resampler still holds: it is what the buffer holds when these are one second of input at most.
-/

namespace LibraLive

/-- The bytes announced to `swr_convert` are in the buffer, the count survives its cast to `int`, and the size of what
`swr_convert` may return is computed without overflow. -/
def PcmFits (delays nb_samples sample_rate : Int) : Prop :=
  max_samples delays nb_samples sample_rate * out_channels * out_sample_size ≤ out_buffers_size ∧
    CInt.Fits (max_samples delays nb_samples sample_rate) ∧
    ∀ samples, 0 ≤ samples → samples ≤ max_samples delays nb_samples sample_rate →
      CInt.Fits (samples * out_sample_size) ∧ CInt.Fits (samples * out_sample_size * out_channels)

variable {delays nb_samples sample_rate samples : Int}

theorem max_samples_nonneg (hnb : 0 ≤ nb_samples) (hrate : 1 ≤ sample_rate) (hdelay : 0 ≤ delays) :
    0 ≤ max_samples delays nb_samples sample_rate := by
  have hrate : (0 : ℚ) ≤ sample_rate := by exact_mod_cast zero_le_one.trans hrate
  have hdelay : (0 : ℚ) ≤ delays := by exact_mod_cast hdelay
  have hnb : (0 : ℚ) ≤ nb_samples := by exact_mod_cast hnb
  refine Int.ceil_nonneg ?_
  push_cast [out_sample_rate]
  positivity

/-- A second of input is a second of output. -/
theorem max_samples_le_iff (hrate : 1 ≤ sample_rate) :
    max_samples delays nb_samples sample_rate ≤ out_sample_rate ↔ delays + nb_samples ≤ sample_rate := by
  have hpos : (0 : ℚ) < sample_rate := by exact_mod_cast Int.lt_of_lt_of_le Int.zero_lt_one hrate
  unfold max_samples av_rescale_up
  rw [Int.ceil_le, div_le_iff₀ hpos, mul_comm, mul_le_mul_iff_right₀ (by norm_num [out_sample_rate])]
  exact_mod_cast Iff.rfl

/-- The announced capacity is right exactly when the frame and the delayed samples last one second at most. -/
theorem pcmFits_iff (hnb : 0 ≤ nb_samples) (hrate : 1 ≤ sample_rate) (hdelay : 0 ≤ delays) :
    PcmFits delays nb_samples sample_rate ↔ delays + nb_samples ≤ sample_rate := by
  have hnonneg := max_samples_nonneg hnb hrate hdelay
  rw [← max_samples_le_iff hrate]
  unfold PcmFits CInt.Fits out_buffers_size out_channels out_sample_size out_sample_rate
  constructor
  · rintro ⟨hle, -, -⟩
    omega
  · intro hle
    refine ⟨by omega, by omega, fun samples hs hsle => ⟨by omega, by omega⟩⟩

/-- A frame of 1024 samples at 48 kHz, with 17 samples delayed. -/
theorem pcmFits_example : PcmFits 17 1024 48000 :=
  (pcmFits_iff (by norm_num) (by norm_num) (by norm_num)).mpr (by norm_num)

/-- A frame of 1024 samples at 1000 Hz is announced as 45159 samples of the 44100 the buffer holds. -/
theorem pcm_too_long : ¬ ∀ delays nb_samples sample_rate : Int, 0 ≤ nb_samples → 1 ≤ sample_rate → 0 ≤ delays →
    PcmFits delays nb_samples sample_rate := by
  intro h
  obtain ⟨hle, -, -⟩ := h 0 1024 1000 (by norm_num) (by norm_num) le_rfl
  revert hle
  decide +kernel

end LibraLive

import Mathlib.Data.Int.Basic

/-!
# What the player sees of FFmpeg

Packets, frames and the return codes the player compares with (`libavutil/error.h`). A packet and a frame are known by
their allocation: two of them are the same object exactly when their serials agree.
-/

namespace LibraLive

/-- `AVERROR(EAGAIN)`. -/
def AVERROR_EAGAIN : Int := -11

/-- `AVERROR(EINVAL)`. -/
def AVERROR_EINVAL : Int := -22

/-- `AVERROR_EOF`, `FFERRTAG('E','O','F',' ')`. -/
def AVERROR_EOF : Int := -541478725

/-- `AVERROR_INPUT_CHANGED`, `-0x636e6701`. -/
def AVERROR_INPUT_CHANGED : Int := -1668179713

/-- The codec types `init_prepare` tells apart. -/
inductive AVMediaType where
  | video
  | audio
  | other
  deriving DecidableEq, Repr

/-- A packet: the `av_packet_alloc` call it comes from, and the fields the player reads. -/
structure AVPacket where
  serial : Nat
  stream_index : Int
  flags : Int
  deriving DecidableEq, Repr

/-- A frame: the `av_frame_alloc` call it comes from, and the packet that had been sent to the codec last when a codec call
filled it; which of the packets sent so far its picture comes from is up to the codec. A frame that no successful codec or
filter call has filled has none. -/
structure AVFrame where
  serial : Nat
  sentLast : Option AVPacket
  deriving DecidableEq, Repr

end LibraLive

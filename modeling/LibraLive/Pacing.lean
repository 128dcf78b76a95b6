import LibraLive.CInt
import LibraLive.Change
import LibraLive.Channel

/-!
# The timing of `render`

The numbers behind the three branches of `VideoChannel::render`, where `Channel` only has the sign of `videoTime - audioTime`:
the frame rate that `init_prepare` passes to the video channel, the time of a frame, the delay, and what `av_usleep` is called
with. A `double` is an exact rational here, or `none` where it would be infinite or no number. `TimedChannel` is a video channel
whose `render` computes its decisions from them.
-/

namespace LibraLive

/-- `AVRational`. -/
structure AVRational where
  num : Int
  den : Int
  deriving DecidableEq, Repr

/-- `av_q2d`. -/
def av_q2d (a : AVRational) : Option ℚ := if a.den = 0 then none else some (a.num / a.den)

/-- `int fps = (int) av_q2d(avg_frame_rate)`, in `init_prepare`. -/
def fps (avg_frame_rate : AVRational) : Option Int := (av_q2d avg_frame_rate).bind CInt.ofDouble

namespace VideoChannel

/-- `double extra_delay = frame->repeat_pict`. -/
def extra_delay (repeat_pict : Int) : ℚ := repeat_pict

/-- `double base_delay = 1.0 / this->fps`. -/
def base_delay (fps : Int) : Option ℚ := if fps = 0 then none else some (1 / fps)

/-- `double result_delay = extra_delay + base_delay`. -/
def result_delay (fps repeat_pict : Int) : Option ℚ := (base_delay fps).map (extra_delay repeat_pict + ·)

/-- The argument of `av_usleep` when the picture is ahead: both casts bind before the multiplication. -/
def usleep (time_diff : ℚ) (fps repeat_pict : Int) : Option Int :=
  (result_delay fps repeat_pict).bind fun result_delay =>
    if 1 < time_diff then (CInt.ofDouble (result_delay * 2)).bind (CInt.mul · 1000000)
    else (CInt.ofDouble (time_diff + result_delay)).bind (CInt.mul · 1000000)

end VideoChannel

/-- What the timing reads of the frames, the value of `av_q2d(time_base)` and the member `fps`. -/
structure Timing where
  best_effort_timestamp : AVFrame → Int
  repeat_pict : AVFrame → Int
  time_base : ℚ
  fps : Int

/-- `videoTime`, in seconds. -/
def Timing.videoTime (T : Timing) (frame : AVFrame) : ℚ := T.best_effort_timestamp frame * T.time_base

/-- `videoTime - audioTime` for the frame in the variable. -/
def Timing.time_diff (T : Timing) (c : Channel) (audioTime : ℚ) : ℚ :=
  (c.outFrame.map T.videoTime).getD 0 - audioTime

/-- A call of `av_usleep`: the difference and the frame's `repeat_pict` it was computed from, and its argument. -/
structure Sleep where
  time_diff : ℚ
  repeat_pict : Int
  usec : Option Int

/-- A video channel with its clocks: the audio clock as `render` read it last, the frames that `frames.sync()` took off the
queue with the reading the decision was made on, and the calls of `av_usleep`. -/
structure TimedChannel where
  channel : Channel
  audioTime : ℚ
  dropped : List (AVFrame × ℚ)
  slept : List Sleep

namespace TimedChannel

/-- A step of `render` with what the audio clock says, or of another thread. -/
inductive Act where
  | render (audioTime : ℚ)
  | others (b : ChannelAct)

/-- The channel as constructed. -/
def new (id : Int) : TimedChannel where
  channel := Channel.new .video id
  audioTime := 0
  dropped := []
  slept := []

/-- `render` is at its decision, with an audio channel to read the clock of. -/
def deciding (t : TimedChannel) : Bool := t.channel.output = .audioTime && t.channel.audioChannel

/-- What the clocks answer a step of `render`. -/
def input (T : Timing) (t : TimedChannel) (audioTime : ℚ) : OutputInput where
  time_diff := compare (T.time_diff t.channel audioTime) 0
  samples := 0
  slResult := true

/-- The call of `av_usleep` in a decision, if there is one. -/
def sleeps (T : Timing) (t : TimedChannel) (audioTime : ℚ) : List Sleep :=
  let time_diff := T.time_diff t.channel audioTime
  let repeat_pict := (t.channel.outFrame.map T.repeat_pict).getD 0
  if t.deciding ∧ 0 < time_diff then [⟨time_diff, repeat_pict, VideoChannel.usleep time_diff T.fps repeat_pict⟩] else []

/-- One step. What `frames.sync()` took off the queue is what is not in it any more. -/
def step (T : Timing) (t : TimedChannel) : Act → Option TimedChannel
  | .render audioTime => (t.channel.step (.output (t.input T audioTime))).map fun c =>
    { channel := c
      audioTime := if t.deciding then audioTime else t.audioTime
      dropped := if t.channel.output = .sync then
          t.dropped ++ (Change.left t.channel.frames.queue.items c.frames.queue.items).map fun frame => (frame, t.audioTime)
        else t.dropped
      slept := t.slept ++ t.sleeps T audioTime }
  | .others (.output _) => none
  | .others b => (t.channel.step b).map fun c => { t with channel := c }

/-- A video channel with its clocks, from its constructor on. -/
def lts (T : Timing) : Lts TimedChannel Act where
  init t := ∃ id : Int, t = new id
  step t a t' := t.step T a = some t'

variable {T : Timing} {t t' : TimedChannel}

/-- A step of another thread leaves the clocks alone. -/
theorem others_step {b : ChannelAct} (h : t.step T (.others b) = some t') :
    (∀ i, b ≠ .output i) ∧ ∃ c, t.channel.step b = some c ∧ t' = { t with channel := c } := by
  cases b with
  | output i => cases h
  | _ =>
    obtain ⟨c, hc, rfl⟩ := Option.map_eq_some_iff.mp h
    exact ⟨by simp, c, hc, rfl⟩

/-- A run with clocks is a run of the channel. -/
theorem channel_reachable (h : (lts T).Reachable t) : (Channel.lts .video).Reachable t.channel := by
  induction h with
  | init hi =>
    obtain ⟨id, rfl⟩ := hi
    exact .init ⟨id, rfl⟩
  | @step t t' a _ hs ih =>
    cases a with
    | render audioTime =>
      obtain ⟨c, hc, rfl⟩ := Option.map_eq_some_iff.mp hs
      exact ih.step hc
    | others b =>
      obtain ⟨-, c, hc, rfl⟩ := others_step hs
      exact ih.step hc

end TimedChannel

end LibraLive

import Mathlib.Data.List.Basic
import LibraLive.Change
import LibraLive.Channel
import LibraLive.Ownership

/-!
# A render thread by itself

What `VideoChannel::render` does with the frames it takes, as far as it can be seen in the queue and in what was freed, and a
render thread whose surroundings do what they please: the frames queue may hold anything at any time, so that `pop` delivers
any frames, the audio clock may say anything, and `isPlaying` may be cleared at any time.
-/

namespace LibraLive

/-- What happens to a frame in `render`: `pop` takes it off the queue, `sws_scale` and the timing read it, it is found to be
late, it is freed. -/
inductive RenderEvent where
  | popped (frame : AVFrame)
  | used (frame : AVFrame)
  | late (frame : AVFrame)
  | released (frame : AVFrame)
  deriving DecidableEq, Repr

/-- The event as one of ownership. -/
def RenderEvent.own : RenderEvent → OwnEvent AVFrame
  | popped frame => .acquire frame
  | used frame | late frame => .use frame
  | released frame => .free frame

/-- What a step of `render` does with frames. A frame that it frees is released, unless it comes straight off the queue, as with
`frames.sync()`; one that it takes off the queue and does not free was popped. -/
def VideoChannel.renderEvents (c c' : Channel) : List RenderEvent :=
  let freed := Change.joined c.freedFrames c'.freedFrames
  let taken := Change.left c.frames.queue.items c'.frames.queue.items
  (if c.output = .audioTime then c.outFrame.toList.map .used else []) ++
    (if c'.output = .sync then c.outFrame.toList.map .late else []) ++
    (freed.diff taken).map .released ++ (taken.diff freed).map .popped

/-- The step with which something happens, of the render thread or of the others. -/
inductive RenderAct where
  | render (i : OutputInput)
  | others
  deriving DecidableEq, Repr

/-- What a step does with the frames `render` takes. -/
def Channel.renderEvents (c : Channel) (a : RenderAct) (c' : Channel) : List RenderEvent :=
  match a with
  | .render _ => VideoChannel.renderEvents c c'
  | .others => []

/-- The frame that `pop` is about to deliver to `render`. -/
def Channel.delivered (c : Channel) (a : RenderAct) : List AVFrame :=
  match a, c.output with
  | .render _, .pop .call | .render _, .pop .woken => c.frames.queue.items.head?.toList
  | _, _ => []

/-- What the other threads may do: anything but change the local variable of `render` and its place, except that they wake
it. -/
structure Channel.OutputMeddled (c c' : Channel) : Prop where
  kind : c'.kind = c.kind
  outFrame : c'.outFrame = c.outFrame
  output : c'.output = c.output ∨ c'.output = c.output.signalled

/-- A render thread from its first statement on, among threads that do as they please. -/
def Channel.renderLts : Lts Channel RenderAct where
  init c := c.kind = .video ∧ c.output = .enter ∧ c.outFrame = none
  step c a c' :=
    match a with
    | .render i => c.act (.output i) = some c'
    | .others => c.OutputMeddled c'

end LibraLive

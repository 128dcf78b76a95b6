import LibraLive.Lts

/-!
# `H264DeCodePlay.MyRun`

The thread that splits an H.264 file at its start codes and feeds the units to a `MediaCodec`, and the codec as this thread
sees it: buffers that are filled or free. The codec works on its own, and either dequeue may time out at any time.
-/

namespace LibraLive

/-- The file and the codec: how many input and output buffers there are, and how many bytes an input buffer holds. -/
structure H264DeCodePlay where
  bytes : List UInt8
  inputs : Nat
  outputs : Nat
  capacity : Nat
  inputs_pos : 0 < inputs

/-- Where `run` is: at the head of its loop, before `dequeueInputBuffer` with the start of the next unit, before it fills the
buffer it got, before `dequeueOutputBuffer`, before `releaseOutputBuffer`, done, or ended by the exception that `put` throws. -/
inductive RunPlace where
  | loop
  | dequeueInputBuffer (nextFrameStart : Nat)
  | queueInputBuffer (nextFrameStart : Nat)
  | dequeueOutputBuffer
  | releaseOutputBuffer
  | ended
  | thrown
  deriving DecidableEq, Repr

namespace RunPlace

/-- The output buffers that the thread has dequeued and not released. -/
def held : RunPlace → Nat
  | .releaseOutputBuffer => 1
  | _ => 0

end RunPlace

/-- The thread and the codec: what was queued so far, the input buffers that are filled, and the output buffers that hold a
frame nobody has dequeued. -/
structure MyRun where
  startIndex : Nat
  place : RunPlace
  queued : List (List UInt8)
  filled : Nat
  frames : Nat
  deriving DecidableEq, Repr

namespace MyRun

/-- Before the first round. -/
def new : MyRun where
  startIndex := 0
  place := .loop
  queued := []
  filled := 0
  frames := 0

end MyRun

/-- What happens next: a statement of `run` that asks the codec for nothing, a dequeue with its outcome, or the codec consumes
an input, with a frame to show for it or not. -/
inductive RunAct where
  | run
  | dequeueInputBuffer (ok : Bool)
  | dequeueOutputBuffer (ok : Bool)
  | consume (frame : Bool)
  deriving DecidableEq, Repr

namespace H264DeCodePlay

/-- A start code at `i`. -/
def startsAt (bytes : List UInt8) (i : Nat) : Bool :=
  bytes[i]? = some 0x00 && bytes[i + 1]? = some 0x00 && bytes[i + 2]? = some 0x00 && bytes[i + 3]? = some 0x01

/-- `findByFrame`; `none` is -1. -/
def findByFrame (bytes : List UInt8) (start totalSize : Nat) : Option Nat :=
  (List.range' start (totalSize - 4 - start)).find? (startsAt bytes)

/-- The next statement of `run`. -/
def run (d : H264DeCodePlay) (s : MyRun) : Option MyRun :=
  match s.place with
  | .loop =>
    let totalSize := d.bytes.length
    if totalSize = 0 ∨ totalSize ≤ s.startIndex then some { s with place := .ended }
    else
      match findByFrame d.bytes (s.startIndex + 1) totalSize with
      | none => some { s with place := .ended }
      | some nextFrameStart => some { s with place := .dequeueInputBuffer nextFrameStart }
  | .queueInputBuffer nextFrameStart =>
    let unit := (d.bytes.drop s.startIndex).take (nextFrameStart - s.startIndex)
    if unit.length ≤ d.capacity then
      some { s with
        startIndex := nextFrameStart
        place := .dequeueOutputBuffer
        queued := s.queued ++ [unit]
        filled := s.filled + 1 }
    else some { s with place := .thrown }
  | .releaseOutputBuffer => some { s with place := .loop }
  | _ => none

/-- A step of the thread or of the codec. -/
def step (d : H264DeCodePlay) (s : MyRun) : RunAct → Option MyRun
  | .run => d.run s
  | .dequeueInputBuffer ok =>
    match s.place with
    | .dequeueInputBuffer nextFrameStart =>
      if ok then
        if s.filled < d.inputs then some { s with place := .queueInputBuffer nextFrameStart } else none
      else some { s with place := .loop }
    | _ => none
  | .dequeueOutputBuffer ok =>
    match s.place with
    | .dequeueOutputBuffer =>
      if ok then
        if 0 < s.frames then
          some { s with
            place := .releaseOutputBuffer
            frames := s.frames - 1 }
        else none
      else some { s with place := .loop }
    | _ => none
  | .consume frame =>
    if 0 < s.filled ∧ s.frames + s.place.held < d.outputs then
      some { s with
        filled := s.filled - 1
        frames := if frame then s.frames + 1 else s.frames }
    else none

/-- The runs of the thread. -/
def lts (d : H264DeCodePlay) : Lts MyRun RunAct := Lts.ofFun .new d.step

end H264DeCodePlay

end LibraLive

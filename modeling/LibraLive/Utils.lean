import LibraLive.Lts

/-!
# `Utils.getPathFromUri`

The copy of a picked file, from Android 7 on: the stream of the content is read into a buffer, piece by piece, and each
piece is written to a file of the app. `read` returns as much as it likes, up to the length of the buffer. Every call may
throw an exception, which is caught.
-/

namespace LibraLive

/-- The content that the stream will deliver, and what `available` returns. -/
structure PickedFile where
  bytes : List UInt8
  available : Nat
  deriving DecidableEq, Repr

/-- Where `getPathFromUri` is: before it has its streams and its buffer, before `read`, before it writes what was read,
before it closes the streams; it has returned the path, or `null` after an exception. -/
inductive CopyPlace where
  | opening
  | read
  | write (read : Nat)
  | close
  | returned
  | caught
  deriving DecidableEq, Repr

/-- What the stream still has, the buffer, and the file. -/
structure CopyRun where
  place : CopyPlace
  rest : List UInt8
  buffers : List UInt8
  file : List UInt8
  deriving DecidableEq, Repr

/-- What happens next: a statement that asks the stream for nothing, `read` returns a number of bytes or -1, or a call
throws. -/
inductive CopyAct where
  | run
  | read (n : Nat)
  | endOfStream
  | exception
  deriving DecidableEq, Repr

namespace PickedFile

abbrev maxBufferSize : Nat := 1 * 1024 * 1024

/-- `ByteArray(bufferSize)`. -/
def bufferSize (f : PickedFile) : Nat := min f.available maxBufferSize

/-- Before anything was opened. -/
def start (f : PickedFile) : CopyRun where
  place := .opening
  rest := f.bytes
  buffers := []
  file := []

/-- The numbers that `read` may return for a buffer: nothing is read into an empty one, and one byte at least into any
other. -/
def mayRead (s : CopyRun) (n : Nat) : Bool :=
  if s.buffers.length = 0 then n = 0 else 1 ≤ n && n ≤ s.buffers.length && n ≤ s.rest.length

/-- A step of `getPathFromUri`. -/
def step (f : PickedFile) (s : CopyRun) : CopyAct → Option CopyRun
  | .run =>
    match s.place with
    | .opening => some { s with
        place := .read
        buffers := List.replicate f.bufferSize 0 }
    | .write n => some { s with
        place := .read
        file := s.file ++ s.buffers.take n }
    | .close => some { s with place := .returned }
    | _ => none
  | .read n =>
    if s.place = .read ∧ mayRead s n then
      some { s with
        place := .write n
        rest := s.rest.drop n
        buffers := s.rest.take n ++ s.buffers.drop n }
    else none
  | .endOfStream => if s.place = .read ∧ s.buffers.length ≠ 0 ∧ s.rest = [] then some { s with place := .close } else none
  | .exception => if s.place = .returned ∨ s.place = .caught then none else some { s with place := .caught }

/-- The runs for a picked file. -/
def lts (f : PickedFile) : Lts CopyRun CopyAct := Lts.ofFun f.start f.step

end PickedFile

end LibraLive

import LibraLive.BlockCopy
import LibraLive.CInt
import LibraLive.Ownership
import LibraLive.Window

/-!
# The window and the threads that use it

What `Window` takes as one operation, statement by statement: `native_setSurface`, `native_release` and `renderFrameCallBack`,
called by any threads at any time, with the mutex; and the bytes that `renderFrameCallBack` copies into a locked window.
-/

namespace LibraLive

/-! ## The pixels -/

/-- The two areas of memory: the picture that `render` passes, and the bits of the locked buffer. -/
inductive Area where
  | src_data
  | dst_data
  deriving DecidableEq, Repr

/-- `ANativeWindow_Buffer`: rows and columns of pixels, and the pixels that a row takes in memory. -/
structure ANativeWindow_Buffer where
  width : Int
  height : Int
  stride : Int
  deriving DecidableEq, Repr

/-- The copies of `renderFrameCallBack`, row by row, each as long as a row of the buffer; `none` if a product overflows. -/
def blit (windowBuffer : ANativeWindow_Buffer) (src_lineSize : Int) : Option (List (BlockCopy.Copy Area)) :=
  let dstLineSize := windowBuffer.stride * 4
  if CInt.Fits dstLineSize ∧ ∀ i < windowBuffer.height.toNat, CInt.Fits (i * dstLineSize) ∧ CInt.Fits (i * src_lineSize) then
    some (BlockCopy.rows .dst_data 0 dstLineSize .src_data 0 src_lineSize dstLineSize windowBuffer.height.toNat)
  else none

/-! ## The threads -/

/-- A call of one of the functions that use the window: for the object it is called for, and with what `ANativeWindow_lock`
returns in it. -/
inductive WindowFunction where
  | native_setSurface (object : Nat)
  | native_release (object : Nat)
  | renderFrameCallBack (object : Nat) (lock : Int)
  deriving DecidableEq, Repr

/-- The statements of these functions. -/
inductive WindowPc where
  | lock
  | testWindow
  | releaseWindow
  | clearWindow
  | fromSurface
  | getSize
  | setGeometry
  | lockWindow
  | draw
  | unlock
  | returned
  deriving DecidableEq, Repr

/-- The call has the mutex. -/
def WindowPc.inside : WindowPc → Bool
  | .lock | .returned => false
  | _ => true

/-- A call and where it is. -/
structure WindowCall where
  function : WindowFunction
  pc : WindowPc
  deriving DecidableEq, Repr

/-- Where `if (window)` leads. -/
def WindowFunction.afterTest (window : Option ANativeWindow) : WindowFunction → WindowPc
  | .native_setSurface _ => if window.isSome then .releaseWindow else .fromSurface
  | .native_release _ => if window.isSome then .releaseWindow else .unlock
  | .renderFrameCallBack _ _ => if window.isSome then .setGeometry else .unlock

/-- What follows `window = 0`. -/
def WindowFunction.afterClear : WindowFunction → WindowPc
  | .native_setSurface _ => .fromSurface
  | .native_release _ | .renderFrameCallBack _ _ => .unlock

/-- A statement between `pthread_mutex_lock` and `pthread_mutex_unlock`: where it leads and what it makes of the global data. -/
def WindowFunction.statement (f : WindowFunction) (s : Screen) : WindowPc → Option (WindowPc × Screen)
  | .testWindow => some (f.afterTest s.window, s)
  | .releaseWindow => some (.clearWindow, { s with released := s.released ++ s.window.toList })
  | .clearWindow => some (f.afterClear, { s with window := none })
  | .fromSurface =>
    match f with
    | .native_setSurface object => some (.getSize, { s with
        window := some ⟨object, s.acquired.length⟩, acquired := s.acquired ++ [⟨object, s.acquired.length⟩] })
    | _ => none
  | .getSize => some (.unlock, s)
  | .setGeometry => some (.lockWindow, s)
  | .lockWindow =>
    match f with
    | .renderFrameCallBack _ lock => some (if lock ≠ 0 then .releaseWindow else .draw, s)
    | _ => none
  | .draw =>
    match f with
    | .renderFrameCallBack object _ => some (.unlock, { s with drawn := s.drawn ++ s.window.toList.map (object, ·) })
    | _ => none
  | .lock | .unlock | .returned => none

/-- What a statement does with references to windows. -/
def WindowCall.events (s : Screen) (c : WindowCall) : List (OwnEvent ANativeWindow) :=
  match c.pc, c.function with
  | .releaseWindow, _ => s.window.toList.map .free
  | .fromSurface, .native_setSurface object => [.acquire ⟨object, s.acquired.length⟩]
  | .getSize, _ | .setGeometry, _ | .lockWindow, _ | .draw, _ => s.window.toList.map .use
  | _, _ => []

/-- The mutex with the call that has it, the global data, and the calls that were made. -/
structure WindowThreads where
  mutex : Option Nat
  screen : Screen
  calls : List WindowCall
  deriving DecidableEq, Repr

namespace WindowThreads

/-- As the library is loaded. -/
def new : WindowThreads where
  mutex := none
  screen := Screen.new
  calls := []

/-- A function is called, or a call executes its next statement. -/
inductive Act where
  | call (f : WindowFunction)
  | run (i : Nat)
  deriving DecidableEq, Repr

/-- The call is somewhere else. -/
def goto (s : WindowThreads) (i : Nat) (c : WindowCall) (pc : WindowPc) : WindowThreads :=
  { s with calls := s.calls.set i { c with pc := pc } }

/-- One step; `pthread_mutex_lock` is not passed while another call has the mutex. -/
def step (s : WindowThreads) : Act → Option WindowThreads
  | .call f => some { s with calls := s.calls ++ [⟨f, .lock⟩] }
  | .run i =>
    match s.calls[i]? with
    | none => none
    | some c =>
      match c.pc with
      | .lock => if s.mutex.isNone then some { s.goto i c .testWindow with mutex := some i } else none
      | .unlock => some { s.goto i c .returned with mutex := none }
      | pc => (c.function.statement s.screen pc).map fun next => { s.goto i c next.1 with screen := next.2 }

/-- What a step does with references to windows. -/
def events (s : WindowThreads) : Act → List (OwnEvent ANativeWindow)
  | .call _ => []
  | .run i => (s.calls[i]?.map (·.events s.screen)).getD []

/-- Any number of calls, made at any time. -/
def lts : Lts WindowThreads Act where
  init s := s = new
  step s a s' := s.step a = some s'

end WindowThreads

end LibraLive

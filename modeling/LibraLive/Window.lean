import LibraLive.App

/-!
# The window of `app_liveplayer.cpp`

The global `window` and what `native_setSurface`, `native_release` and `renderFrameCallBack` do with it, each under the one
mutex, for any number of `LibraLivePlayer` objects. `native_setSurface` gets no handle and `renderFrameCallBack` no player: the
object of an operation is recorded here, the source does not know it.
-/

namespace LibraLive

/-- A reference to a native window: the object whose surface it is of, and which call of `ANativeWindow_fromSurface` gave
it. -/
structure ANativeWindow where
  object : Nat
  serial : Nat
  deriving DecidableEq, Repr

/-- The global `window`, and the record of the run: the references acquired and released, and which object's player drew into
which window. -/
structure Screen where
  window : Option ANativeWindow
  acquired : List ANativeWindow
  released : List ANativeWindow
  drawn : List (Nat × ANativeWindow)
  deriving DecidableEq, Repr

/-- An operation on the window: a method of an object is called, its `surfaceChanged` is, or its native player renders a frame
and `ANativeWindow_lock` returns `lock`. -/
inductive WindowOp where
  | call (object : Nat) (method : Call)
  | surfaceChanged (object : Nat)
  | renderFrame (object : Nat) (lock : Int)
  deriving DecidableEq, Repr

namespace Screen

/-- As the library is loaded. -/
def new : Screen where
  window := none
  acquired := []
  released := []
  drawn := []

/-- `if (window) { ANativeWindow_release(window); window = 0; }`. -/
def releaseWindow (s : Screen) : Screen := { s with window := none, released := s.released ++ s.window.toList }

/-- `native_setSurface` with the surface of an object. -/
def setSurface (s : Screen) (object : Nat) : Screen :=
  { s.releaseWindow with
    window := some ⟨object, s.acquired.length⟩
    acquired := s.acquired ++ [⟨object, s.acquired.length⟩] }

/-- `renderFrameCallBack`, called by the player of an object. -/
def renderFrameCallBack (s : Screen) (object : Nat) (lock : Int) : Screen :=
  match s.window with
  | none => s
  | some window => if lock ≠ 0 then s.releaseWindow else { s with drawn := s.drawn ++ [(object, window)] }

/-- One operation. Of the native methods behind `prepare`, `start`, `stop` and `release` only `native_release` uses the
window. -/
def step (s : Screen) : WindowOp → Screen
  | .call _ .release => s.releaseWindow
  | .call _ _ => s
  | .surfaceChanged object => s.setSurface object
  | .renderFrame object lock => s.renderFrameCallBack object lock

/-- A sequence of operations, from the beginning. -/
def run (ops : List WindowOp) : Screen := ops.foldl step new

@[simp] theorem run_nil : run [] = new := rfl

theorem run_append (ops more : List WindowOp) : run (ops ++ more) = more.foldl step (run ops) := by
  rw [run, run, List.foldl_append]

@[simp] theorem run_snoc (ops : List WindowOp) (op : WindowOp) : run (ops ++ [op]) = (run ops).step op := by
  rw [run_append, List.foldl_cons, List.foldl_nil]

end Screen

end LibraLive

import LibraLive.Lts

/-!
# `EglSurfaceBase`, `WindowSurface` and `OffscreenSurface`

The two surfaces that are made with an `EglCore`, from their construction on. What EGL answers is a parameter of each
operation, and the calls of EGL are recorded. `EGL_NO_SURFACE` and a null pointer are `none`. A failed `assert` ends the
program, unless it is built with `NDEBUG`.
-/

namespace LibraLive

/-- What EGL gave the core when it was set up. -/
structure EglCore where
  mEGLDisplay : Nat
  mEGLContext : Nat
  mEGLConfig : Nat
  deriving DecidableEq, Repr

/-- A call of EGL, with what it answered where that is used, or of the reference count of a window. -/
inductive EglCall (S W : Type*) where
  | eglCreateWindowSurface (display config : Nat) (window : W) (surface : Option S)
  | eglCreatePbufferSurface (display config : Nat) (width height : Int32) (surface : Option S)
  | eglDestroySurface (display : Nat) (surface : Option S)
  | eglMakeCurrent (display : Nat) (draw read : Option S) (context : Nat)
  | eglSwapBuffers (display : Nat) (surface : Option S)
  | ANativeWindow_release (window : W)
  deriving DecidableEq, Repr

namespace EglCore

variable {S W : Type*}

/-- `releaseSurface`. -/
def releaseSurface (core : EglCore) (eglSurface : Option S) : List (EglCall S W) :=
  [.eglDestroySurface core.mEGLDisplay eglSurface]

/-- `createWindowSurface`. -/
def createWindowSurface (core : EglCore) (surface : Option W) (answer : Option S) : Option S × List (EglCall S W) :=
  match surface with
  | none => (none, [])
  | some window => (answer, [.eglCreateWindowSurface core.mEGLDisplay core.mEGLConfig window answer])

/-- `createOffscreenSurface`. -/
def createOffscreenSurface (core : EglCore) (width height : Int32) (answer : Option S) : Option S × List (EglCall S W) :=
  (answer, [.eglCreatePbufferSurface core.mEGLDisplay core.mEGLConfig width height answer])

/-- `makeCurrent`; a failure is only logged. -/
def makeCurrent (core : EglCore) (eglSurface : Option S) : List (EglCall S W) :=
  [.eglMakeCurrent core.mEGLDisplay eglSurface eglSurface core.mEGLContext]

/-- `swapBuffers`. -/
def swapBuffers (core : EglCore) (eglSurface : Option S) (answer : Bool) : Bool × List (EglCall S W) :=
  (answer, [.eglSwapBuffers core.mEGLDisplay eglSurface])

end EglCore

/-- `assert`: there is no result where the program ends. -/
def assertThat (ndebug condition : Bool) : Option Unit := if ndebug || condition then some () else none

structure EglSurfaceBase (S : Type*) where
  mEglCore : EglCore
  mEglSurface : Option S
  mWidth : Int32
  mHeight : Int32
  deriving DecidableEq, Repr

namespace EglSurfaceBase

variable {S W : Type*}

/-- The constructor. -/
def new (eglCore : EglCore) : EglSurfaceBase S where
  mEglCore := eglCore
  mEglSurface := none
  mWidth := -1
  mHeight := -1

/-- `createWindowSurface`. The assertion is about the window, and what the core returns is not kept. -/
def createWindowSurface (ndebug : Bool) (s : EglSurfaceBase S) (nativeWindow : Option W) (answer : Option S) :
    Option (EglSurfaceBase S × List (EglCall S W)) :=
  (assertThat ndebug nativeWindow.isNone).map fun _ =>
    if s.mEglSurface.isSome then (s, []) else (s, (s.mEglCore.createWindowSurface nativeWindow answer).2)

/-- `createOffscreenSurface`. -/
def createOffscreenSurface (ndebug : Bool) (s : EglSurfaceBase S) (width height : Int32) (answer : Option S) :
    Option (EglSurfaceBase S × List (EglCall S W)) :=
  (assertThat ndebug s.mEglSurface.isNone).map fun _ =>
    if s.mEglSurface.isSome then (s, [])
    else
      let (surface, calls) := s.mEglCore.createOffscreenSurface width height answer
      ({ s with mEglSurface := surface }, calls)

/-- `releaseEglSurface`. -/
def releaseEglSurface (s : EglSurfaceBase S) : EglSurfaceBase S × List (EglCall S W) :=
  ({ s with
      mEglSurface := none
      mWidth := -1
      mHeight := -1 },
    s.mEglCore.releaseSurface s.mEglSurface)

/-- `makeCurrent`. -/
def makeCurrent (s : EglSurfaceBase S) : List (EglCall S W) := s.mEglCore.makeCurrent s.mEglSurface

/-- `swapBuffers`, with its result. -/
def swapBuffers (s : EglSurfaceBase S) (answer : Bool) : Bool × List (EglCall S W) :=
  s.mEglCore.swapBuffers s.mEglSurface answer

end EglSurfaceBase

structure WindowSurface (S W : Type*) extends EglSurfaceBase S where
  mSurface : Option W
  mReleaseSurface : Bool
  deriving DecidableEq, Repr

namespace WindowSurface

variable {S W : Type*}

/-- The constructor with three arguments. -/
def new (ndebug : Bool) (eglCore : EglCore) (window : Option W) (releaseSurface : Bool) (answer : Option S) :
    Option (WindowSurface S W × List (EglCall S W)) :=
  ((EglSurfaceBase.new eglCore).createWindowSurface ndebug window answer).map fun (base, calls) =>
    ({ base with
        mSurface := window
        mReleaseSurface := releaseSurface }, calls)

/-- The constructor with two: `mReleaseSurface{false}`. -/
def newKept (ndebug : Bool) (eglCore : EglCore) (window : Option W) (answer : Option S) :
    Option (WindowSurface S W × List (EglCall S W)) :=
  new ndebug eglCore window false answer

/-- `release`. -/
def release (s : WindowSurface S W) : WindowSurface S W × List (EglCall S W) :=
  let (base, calls) := s.releaseEglSurface
  match s.mSurface with
  | none => ({ s with toEglSurfaceBase := base }, calls)
  | some window =>
    ({ s with
        toEglSurfaceBase := base
        mSurface := none },
      calls ++ [.ANativeWindow_release window])

/-- `recreate`. -/
def recreate (ndebug : Bool) (s : WindowSurface S W) (eglCore : EglCore) (answer : Option S) :
    Option (WindowSurface S W × List (EglCall S W)) :=
  (assertThat ndebug s.mSurface.isSome).bind fun _ =>
    if s.mSurface.isNone then some (s, [])
    else
      ({ s.toEglSurfaceBase with mEglCore := eglCore }.createWindowSurface ndebug s.mSurface answer).map
        fun (base, calls) => ({ s with toEglSurfaceBase := base }, calls)

end WindowSurface

structure OffscreenSurface (S : Type*) extends EglSurfaceBase S where
  deriving DecidableEq, Repr

namespace OffscreenSurface

variable {S W : Type*}

/-- The constructor. -/
def new (ndebug : Bool) (eglCore : EglCore) (width height : Int32) (answer : Option S) :
    Option (OffscreenSurface S × List (EglCall S W)) :=
  ((EglSurfaceBase.new eglCore).createOffscreenSurface ndebug width height answer).map fun (base, calls) => (⟨base⟩, calls)

/-- `release`. -/
def release (s : OffscreenSurface S) : OffscreenSurface S × List (EglCall S W) :=
  let (base, calls) := s.releaseEglSurface
  (⟨base⟩, calls)

end OffscreenSurface

/-! ## How they are used -/

/-- An object of one of the two classes. -/
inductive EglObject (S W : Type*) where
  | window (s : WindowSurface S W)
  | offscreen (s : OffscreenSurface S)
  deriving DecidableEq, Repr

/-- The constructors; where there is no `releaseSurface`, that with two arguments. -/
inductive EglConstruction (S W : Type*) where
  | windowSurface (eglCore : EglCore) (window : Option W) (releaseSurface : Option Bool) (answer : Option S)
  | offscreenSurface (eglCore : EglCore) (width height : Int32) (answer : Option S)
  deriving DecidableEq, Repr

/-- The operations; what EGL answers is a part of them. -/
inductive EglOp (S : Type*) where
  | makeCurrent (answer : Bool)
  | swapBuffers (answer : Bool)
  | release
  | recreate (eglCore : EglCore) (answer : Option S)
  deriving DecidableEq, Repr

namespace EglObject

variable {S W : Type*}

def base : EglObject S W → EglSurfaceBase S
  | .window s => s.toEglSurfaceBase
  | .offscreen s => s.toEglSurfaceBase

/-- A constructor is called. -/
def construct (ndebug : Bool) : EglConstruction S W → Option (EglObject S W × List (EglCall S W))
  | .windowSurface eglCore nativeWindow releaseSurface answer =>
    (match releaseSurface with
      | some releaseSurface => WindowSurface.new ndebug eglCore nativeWindow releaseSurface answer
      | none => WindowSurface.newKept ndebug eglCore nativeWindow answer).map fun (s, calls) => (.window s, calls)
  | .offscreenSurface eglCore width height answer =>
    (OffscreenSurface.new ndebug eglCore width height answer).map fun (s, calls) => (.offscreen s, calls)

/-- The object has the operation: only windows have `recreate`. -/
def has : EglObject S W → EglOp S → Bool
  | .offscreen _, .recreate _ _ => false
  | _, _ => true

/-- An operation is called. -/
def call (ndebug : Bool) (o : EglObject S W) : EglOp S → Option (EglObject S W × List (EglCall S W))
  | .makeCurrent _ => some (o, o.base.makeCurrent)
  | .swapBuffers answer => some (o, (o.base.swapBuffers answer).2)
  | .release =>
    match o with
    | .window s =>
      let (s, calls) := s.release
      some (.window s, calls)
    | .offscreen s =>
      let (s, calls) := s.release
      some (.offscreen s, calls)
  | .recreate eglCore answer =>
    match o with
    | .window s => (s.recreate ndebug eglCore answer).map fun (s, calls) => (.window s, calls)
    | .offscreen s => some (.offscreen s, [])

end EglObject

/-- The object, unless an assertion has failed, and the calls so far. -/
structure EglRun (S W : Type*) where
  object : Option (EglObject S W)
  calls : List (EglCall S W)
  deriving DecidableEq, Repr

namespace EglRun

variable {S W : Type*}

/-- After the constructor. -/
def start (ndebug : Bool) (c : EglConstruction S W) : EglRun S W :=
  match EglObject.construct ndebug c with
  | none => ⟨none, []⟩
  | some (o, calls) => ⟨some o, calls⟩

/-- One more operation. -/
def step (ndebug : Bool) (r : EglRun S W) (op : EglOp S) : Option (EglRun S W) :=
  match r.object with
  | none => none
  | some o =>
    if o.has op then
      match o.call ndebug op with
      | none => some { r with object := none }
      | some (o, calls) => some ⟨some o, r.calls ++ calls⟩
    else none

/-- The runs of one object. -/
def lts (ndebug : Bool) (c : EglConstruction S W) : Lts (EglRun S W) (EglOp S) := Lts.ofFun (start ndebug c) (step ndebug)

end EglRun

end LibraLive

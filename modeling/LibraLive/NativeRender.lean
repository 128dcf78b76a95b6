import LibraLive.ImageDef
import LibraLive.WindowThreads

/-!
# `NativeRender`

The renderer that draws into a native window: the size it gives the window for a video, and the rows of a picture that it copies
into the window. An operation on `int`s that has no value makes the call undefined.
-/

namespace LibraLive

/-- What a native window answers to `ANativeWindow_getWidth` and `ANativeWindow_getHeight`. -/
structure WindowSize where
  width : Int
  height : Int
  deriving DecidableEq, Repr

/-- `NativeRender`: `m_NativeWindowBuffer` is what the last `ANativeWindow_lock` has filled in. -/
structure NativeRender where
  m_NativeWindow : Option WindowSize
  m_NativeWindowBuffer : ANativeWindow_Buffer
  bits : Ptr
  m_DstWidth : Int
  m_DstHeight : Int
  deriving DecidableEq, Repr

/-- What `Init` sets outside of the renderer: the geometry of the buffers, and `dstSize`. -/
structure InitOutput where
  buffersGeometry : Option (Int × Int)
  dstSize : Option (Int × Int)
  deriving DecidableEq, Repr

namespace NativeRender

/-- The size for a video in a window, as `Init` computes it. -/
def fit (windowWidth windowHeight videoWidth videoHeight : Int) : Option (Int × Int) := do
  if windowWidth < (← CInt.div (← CInt.mul windowHeight videoWidth) videoHeight) then
    return (windowWidth, ← CInt.div (← CInt.mul windowWidth videoHeight) videoWidth)
  else
    return (← CInt.div (← CInt.mul windowHeight videoWidth) videoHeight, windowHeight)

/-- `Init`. -/
def init (r : NativeRender) (videoWidth videoHeight : Int) : Option (NativeRender × InitOutput) :=
  match r.m_NativeWindow with
  | none => some (r, ⟨none, none⟩)
  | some window => do
    let size ← fit window.width window.height videoWidth videoHeight
    return ({ r with m_DstWidth := size.1, m_DstHeight := size.2 }, ⟨some size, some size⟩)

/-- `RenderVideoFrame`, once the window is locked: what it copies. -/
def renderVideoFrame (r : NativeRender) (pImage : Option NativeImage) : Option (List Memcpy) :=
  match r.m_NativeWindow, pImage with
  | some _, some pImage => do
    let srcLineSize ← CInt.mul pImage.width 4
    let dstLineSize ← CInt.mul r.m_NativeWindowBuffer.stride 4
    (List.range r.m_DstHeight.toNat).mapM fun (i : Nat) => do
      return {
        dst := r.bits.add (← CInt.mul i dstLineSize)
        src := pImage.firstPlane.add (← CInt.mul i srcLineSize)
        length := srcLineSize }
  | _, _ => some []

end NativeRender

end LibraLive

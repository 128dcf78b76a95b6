import LibraLive.ImageDef

/-!
# The render image of `VideoGLRender`

`VideoGLRender::RenderVideoFrame` and the destructor, as far as they touch `m_RenderImage`; both run under one mutex or after
every other call.
-/

namespace LibraLive

/-- `VideoGLRender`, with the memory of its image. -/
structure VideoGLRender where
  m_RenderImage : NativeImage
  memory : Memory
  deriving DecidableEq, Repr

/-- A call of `RenderVideoFrame`: the image, if there is one, and what the `malloc`s find that it calls, in the function itself
and in `CopyNativeImage`. -/
structure RenderCall where
  pImage : Option NativeImage
  ok : Bool
  again : Bool
  deriving DecidableEq, Repr

namespace VideoGLRender

/-- After the constructor. -/
def new : VideoGLRender where
  m_RenderImage := .new
  memory := .new

/-- The image is made anew when its size is another one. -/
def resize (r : VideoGLRender) (pImage : NativeImage) (ok : Bool) : VideoGLRender :=
  if pImage.width ≠ r.m_RenderImage.width ∨ pImage.height ≠ r.m_RenderImage.height then
    let (memory, _) := r.m_RenderImage.free r.memory
    let (memory, m_RenderImage) := { NativeImage.new with
      format := pImage.format
      width := pImage.width
      height := pImage.height }.alloc memory ok
    { m_RenderImage, memory }
  else r

/-- `RenderVideoFrame`, with what it copies. -/
def renderVideoFrame (r : VideoGLRender) (c : RenderCall) : VideoGLRender × List Memcpy :=
  match c.pImage with
  | none => (r, [])
  | some pImage =>
    if pImage.firstPlane = .null then (r, [])
    else
      let r := r.resize pImage c.ok
      let (memory, m_RenderImage, copies) := pImage.copy r.m_RenderImage r.memory c.again
      ({ m_RenderImage, memory }, copies)

/-- `~VideoGLRender`. -/
def destroy (r : VideoGLRender) : VideoGLRender :=
  let (memory, m_RenderImage) := r.m_RenderImage.free r.memory
  { m_RenderImage, memory }

/-- The renderer after the calls. -/
def run (calls : List RenderCall) : VideoGLRender := calls.foldl (fun r c => (r.renderVideoFrame c).1) new

end VideoGLRender

end LibraLive

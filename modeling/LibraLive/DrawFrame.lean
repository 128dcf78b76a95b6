import LibraLive.VideoGLRender

/-!
# `VideoGLRender::OnDrawFrame`

What the render image becomes on the screen: the planes that are uploaded as textures, and what the shader is told about the
picture. OpenGL reads the rows of a texture as far apart as its unpack alignment wants them, which is never set here.
-/

namespace LibraLive

/-- The format of a texture of unsigned bytes. -/
inductive TexelFormat where
  | GL_RGBA
  | GL_LUMINANCE
  | GL_LUMINANCE_ALPHA
  deriving DecidableEq, Repr

/-- The bytes of a texel. -/
def TexelFormat.bytes : TexelFormat → Int
  | .GL_RGBA => 4
  | .GL_LUMINANCE => 1
  | .GL_LUMINANCE_ALPHA => 2

/-- A call of `glTexImage2D`, the texture of this number being bound in the unit of the same number. -/
structure TexImage2D where
  texture : Nat
  format : TexelFormat
  width : Int
  height : Int
  pixels : Ptr
  deriving DecidableEq, Repr

namespace TexImage2D

/-- `GL_UNPACK_ALIGNMENT`. -/
def unpackAlignment : Int := 4

/-- The distance between the rows that OpenGL reads. -/
def rowLength (t : TexImage2D) : Int :=
  (t.width * t.format.bytes + (unpackAlignment - 1)) / unpackAlignment * unpackAlignment

end TexImage2D

/-- What a frame is drawn from: the uploads, and the values of the uniforms that depend on the image. -/
structure DrawnFrame where
  uploads : List TexImage2D
  u_TexSize : Int × Int
  u_nImgType : Int
  deriving DecidableEq, Repr

abbrev GL_NONE : Nat := 0

namespace NativeImage

/-- The uploads of `OnDrawFrame`. -/
def uploads (m_RenderImage : NativeImage) : List TexImage2D :=
  if m_RenderImage.format = IMAGE_FORMAT_RGBA then
    [{ texture := 0, format := .GL_RGBA, width := m_RenderImage.width, height := m_RenderImage.height
       pixels := m_RenderImage.firstPlane }]
  else if m_RenderImage.format = IMAGE_FORMAT_NV21 ∨ m_RenderImage.format = IMAGE_FORMAT_NV12 then
    [{ texture := 0, format := .GL_LUMINANCE, width := m_RenderImage.width, height := m_RenderImage.height
       pixels := m_RenderImage.firstPlane },
     { texture := 1, format := .GL_LUMINANCE_ALPHA, width := m_RenderImage.width >>> (1 : Nat)
       height := m_RenderImage.height >>> (1 : Nat), pixels := m_RenderImage.secondPlane }]
  else if m_RenderImage.format = IMAGE_FORMAT_I420 then
    [{ texture := 0, format := .GL_LUMINANCE, width := m_RenderImage.width, height := m_RenderImage.height
       pixels := m_RenderImage.firstPlane },
     { texture := 1, format := .GL_LUMINANCE, width := m_RenderImage.width >>> (1 : Nat)
       height := m_RenderImage.height >>> (1 : Nat), pixels := m_RenderImage.secondPlane },
     { texture := 2, format := .GL_LUMINANCE, width := m_RenderImage.width >>> (1 : Nat)
       height := m_RenderImage.height >>> (1 : Nat), pixels := m_RenderImage.thirdPlane }]
  else []

end NativeImage

/-- `OnDrawFrame`: nothing is drawn without a program or an image. -/
def VideoGLRender.onDrawFrame (r : VideoGLRender) (m_ProgramObj : Nat) : Option DrawnFrame :=
  if m_ProgramObj = GL_NONE ∨ r.m_RenderImage.firstPlane = .null then none
  else some {
    uploads := r.m_RenderImage.uploads
    u_TexSize := (r.m_RenderImage.width, r.m_RenderImage.height)
    u_nImgType := r.m_RenderImage.format }

end LibraLive

import LibraLive.BlockCopy
import LibraLive.CInt
import LibraLive.ImageDef

/-!
# `DumpNativeImage`

The function of `NativeImageUtil` that writes an image to a file, as the calls it makes. A product that is not an `int`, and a path
that does not fit into `imgPath`, make the call undefined.
-/

namespace LibraLive

abbrev IMAGE_FORMAT_RGBA_EXT : String := "RGB32"
abbrev IMAGE_FORMAT_NV21_EXT : String := "NV21"
abbrev IMAGE_FORMAT_NV12_EXT : String := "NV12"
abbrev IMAGE_FORMAT_I420_EXT : String := "I420"

/-- A call of a function for files: `fwrite` of one element of `size` bytes. -/
inductive FileCall where
  | mkdir (path : String) (mode : Nat)
  | fopen (path mode : String)
  | fwrite (p : Ptr) (size : Nat)
  | fclose
  deriving DecidableEq, Repr

/-- `static_cast<size_t>`. -/
def size_t (n : Int) : Nat := (n % 0x10000000000000000).toNat

namespace NativeImage

/-- What the name of the file ends with. -/
def pExt (pSrcImg : NativeImage) : String :=
  if pSrcImg.format = IMAGE_FORMAT_I420 then IMAGE_FORMAT_I420_EXT
  else if pSrcImg.format = IMAGE_FORMAT_NV12 then IMAGE_FORMAT_NV12_EXT
  else if pSrcImg.format = IMAGE_FORMAT_NV21 then IMAGE_FORMAT_NV21_EXT
  else if pSrcImg.format = IMAGE_FORMAT_RGBA then IMAGE_FORMAT_RGBA_EXT
  else "Default"

/-- The path of the file; `index` is never counted up. -/
def imgPath (pSrcImg : NativeImage) (pPath pFileName : String) : String :=
  pPath ++ "/IMG_" ++ toString pSrcImg.width ++ "x" ++ toString pSrcImg.height ++ "_" ++ pFileName ++ "_" ++ toString 0 ++ "." ++
    pSrcImg.pExt

/-- What is written of the image. -/
def dumpPlanes (pSrcImg : NativeImage) : Option (List FileCall) :=
  if pSrcImg.format = IMAGE_FORMAT_I420 then do
    let luma ← CInt.mul pSrcImg.width pSrcImg.height
    let chroma ← CInt.mul (pSrcImg.width >>> (1 : Nat)) (pSrcImg.height >>> (1 : Nat))
    return [.fwrite pSrcImg.firstPlane (size_t luma), .fwrite pSrcImg.secondPlane (size_t chroma),
      .fwrite pSrcImg.thirdPlane (size_t chroma)]
  else if pSrcImg.format = IMAGE_FORMAT_NV21 ∨ pSrcImg.format = IMAGE_FORMAT_NV12 then do
    let luma ← CInt.mul pSrcImg.width pSrcImg.height
    let chroma ← CInt.mul pSrcImg.width (pSrcImg.height >>> (1 : Nat))
    return [.fwrite pSrcImg.firstPlane (size_t luma), .fwrite pSrcImg.secondPlane (size_t chroma)]
  else if pSrcImg.format = IMAGE_FORMAT_RGBA then do
    let pixels ← CInt.mul pSrcImg.width pSrcImg.height
    let bytes ← CInt.mul pixels 4
    return [.fwrite pSrcImg.firstPlane (size_t bytes)]
  else some []

end NativeImage

/-- `DumpNativeImage`; `found` is what `access` finds, and `fp` whether the file could be opened. -/
def dumpNativeImage (pSrcImg : Option NativeImage) (pPath pFileName : Option String) (found fp : Bool) : Option (List FileCall) :=
  match pSrcImg, pPath, pFileName with
  | some pSrcImg, some pPath, some pFileName =>
    let imgPath := pSrcImg.imgPath pPath pFileName
    if 256 ≤ imgPath.utf8ByteSize then none
    else do
      let writes ← if fp then pSrcImg.dumpPlanes.map (· ++ [.fclose]) else some []
      return (if found then [] else [.mkdir pPath 0o666]) ++ .fopen imgPath "wb" :: writes
  | _, _, _ => some []

/-- The places of the bytes that the calls write to the file. -/
def writtenPlaces (calls : List FileCall) : List (Base × Int) :=
  calls.flatMap fun
    | .fwrite p size => BlockCopy.places p.base p.offset size
    | _ => []

end LibraLive

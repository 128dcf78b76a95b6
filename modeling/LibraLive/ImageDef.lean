import Mathlib.Data.List.Basic

/-!
# `ImageDef.h`

`NativeImage` and the functions of `NativeImageUtil` that allocate, free and copy one. Memory is what these functions ask of
it: the blocks `malloc` returned, what was passed to `free`, and the calls of `memcpy` in their order. A pointer is an offset
from the block, or from the object of somebody else, that it was computed from.
-/

namespace LibraLive

/-- The value of an `int` expression: a result out of range wraps. -/
def int (x : Int) : Int := x.bmod 0x100000000

/-- What a pointer was computed from: nothing, a block that `malloc` returned, the blocks numbered in their order, or memory of
another owner. -/
inductive Base where
  | null
  | block (n : Nat)
  | other (object : Nat)
  deriving DecidableEq, Repr

/-- `uint8_t *`. -/
structure Ptr where
  base : Base
  offset : Int
  deriving DecidableEq, Repr

namespace Ptr

/-- `nullptr`. -/
def null : Ptr where
  base := .null
  offset := 0

/-- The first byte of a block. -/
def block (n : Nat) : Ptr where
  base := .block n
  offset := 0

/-- `p + n`. -/
def add (p : Ptr) (n : Int) : Ptr := { p with offset := p.offset + n }

end Ptr

/-- The blocks that `malloc` returned, by their sizes, and the pointers passed to `free`. -/
structure Memory where
  blocks : List Int
  freed : List Ptr
  deriving DecidableEq, Repr

namespace Memory

/-- Nothing was allocated. -/
def new : Memory where
  blocks := []
  freed := []

/-- `malloc`, which may fail. -/
def malloc (mem : Memory) (size : Int) (ok : Bool) : Memory × Ptr :=
  if ok then ({ mem with blocks := mem.blocks ++ [size] }, .block mem.blocks.length) else (mem, .null)

/-- `free`. -/
def free (mem : Memory) (p : Ptr) : Memory := { mem with freed := mem.freed ++ [p] }

/-- The blocks that were not freed. -/
def live (mem : Memory) : List Nat := (List.range mem.blocks.length).filter (.block · ∉ mem.freed)

end Memory

/-- A call of `memcpy`. -/
structure Memcpy where
  dst : Ptr
  src : Ptr
  length : Int
  deriving DecidableEq, Repr

abbrev IMAGE_FORMAT_RGBA : Int := 0x01
abbrev IMAGE_FORMAT_NV21 : Int := 0x02
abbrev IMAGE_FORMAT_NV12 : Int := 0x03
abbrev IMAGE_FORMAT_I420 : Int := 0x04

/-- `NativeImage`. -/
structure NativeImage where
  width : Int
  height : Int
  format : Int
  ppPlane : Vector Ptr 3
  pLineSize : Vector Int 3
  deriving DecidableEq, Repr

namespace NativeImage

/-- `ppPlane[0]`: null, if no memory was allocated. -/
abbrev firstPlane (pImage : NativeImage) : Ptr := pImage.ppPlane.get 0

abbrev secondPlane (pImage : NativeImage) : Ptr := pImage.ppPlane.get 1

abbrev thirdPlane (pImage : NativeImage) : Ptr := pImage.ppPlane.get 2

abbrev firstLineSize (pImage : NativeImage) : Int := pImage.pLineSize.get 0

/-- `NativeImage()`, and what `memset` to 0 leaves. -/
def new : NativeImage where
  width := 0
  height := 0
  format := 0
  ppPlane := #v[.null, .null, .null]
  pLineSize := #v[0, 0, 0]

/-- `AllocNativeImage`; `ok` is what its `malloc` finds. -/
def alloc (pImage : NativeImage) (mem : Memory) (ok : Bool) : Memory × NativeImage :=
  if pImage.height = 0 ∨ pImage.width = 0 then (mem, pImage)
  else if pImage.format = IMAGE_FORMAT_RGBA then
    let (mem, p) := mem.malloc (int (int (pImage.width * pImage.height) * 4)) ok
    (mem, { pImage with
      ppPlane := pImage.ppPlane.set 0 p
      pLineSize := #v[int (pImage.width * 4), 0, 0] })
  else if pImage.format = IMAGE_FORMAT_NV12 ∨ pImage.format = IMAGE_FORMAT_NV21 then
    let (mem, p) := mem.malloc ((3 * int (pImage.width * pImage.height)).tdiv 2) ok
    (mem, { pImage with
      ppPlane := (pImage.ppPlane.set 0 p).set 1 (p.add (int (pImage.width * pImage.height)))
      pLineSize := #v[pImage.width, pImage.width, 0] })
  else if pImage.format = IMAGE_FORMAT_I420 then
    let (mem, p) := mem.malloc ((3 * int (pImage.width * pImage.height)).tdiv 2) ok
    let u := p.add (int (pImage.width * pImage.height))
    (mem, { pImage with
      ppPlane := #v[p, u, u.add (int ((pImage.width >>> (1 : Nat)) * (pImage.height >>> (1 : Nat))))]
      pLineSize := #v[pImage.width, pImage.width.tdiv 2, pImage.width.tdiv 2] })
  else (mem, pImage)

@[simp] theorem first_mk (p q r : Ptr) : #v[p, q, r].get 0 = p := rfl

@[simp] theorem first_set (planes : Vector Ptr 3) (p : Ptr) : (planes.set 0 p).get 0 = p := Vector.getElem_set_self _

@[simp] theorem first_set_second (planes : Vector Ptr 3) (p : Ptr) : (planes.set 1 p).get 0 = planes.get 0 :=
  Vector.getElem_set_ne _ _ (by decide)

@[simp] theorem second_set (planes : Vector Ptr 3) (p : Ptr) : (planes.set 1 p).get 1 = p := Vector.getElem_set_self _

/-- `FreeNativeImage`. -/
def free (pImage : NativeImage) (mem : Memory) : Memory × NativeImage :=
  if pImage.firstPlane = .null then (mem, pImage)
  else (mem.free (pImage.firstPlane), { pImage with ppPlane := #v[.null, .null, .null] })

/-- The copy of one plane in `CopyNativeImage`: row by row where the line sizes differ, at once where they agree. -/
def copyPlane (pSrcImg pDstImg : NativeImage) (p : Fin 3) (rows row whole : Int) : List Memcpy :=
  if pSrcImg.pLineSize.get p ≠ pDstImg.pLineSize.get p then
    (List.range rows.toNat).map fun (i : Nat) =>
      { dst := (pDstImg.ppPlane.get p).add (int (↑i * pDstImg.pLineSize.get p))
        src := (pSrcImg.ppPlane.get p).add (int (↑i * pSrcImg.pLineSize.get p))
        length := row }
  else [{ dst := pDstImg.ppPlane.get p, src := pSrcImg.ppPlane.get p, length := whole }]

/-- What `CopyNativeImage` copies between images of one size and format. -/
def copyPlanes (pSrcImg pDstImg : NativeImage) : List Memcpy :=
  if pSrcImg.format = IMAGE_FORMAT_I420 then
    copyPlane pSrcImg pDstImg 0 pSrcImg.height pDstImg.width (int (pDstImg.pLineSize.get 0 * pSrcImg.height)) ++
      copyPlane pSrcImg pDstImg 1 (pSrcImg.height.tdiv 2) (pDstImg.width.tdiv 2)
        ((int (pDstImg.pLineSize.get 1 * pSrcImg.height)).tdiv 2) ++
      copyPlane pSrcImg pDstImg 2 (pSrcImg.height.tdiv 2) (pDstImg.width.tdiv 2)
        ((int (pDstImg.pLineSize.get 2 * pSrcImg.height)).tdiv 2)
  else if pSrcImg.format = IMAGE_FORMAT_NV21 ∨ pSrcImg.format = IMAGE_FORMAT_NV12 then
    copyPlane pSrcImg pDstImg 0 pSrcImg.height pDstImg.width (int (pDstImg.pLineSize.get 0 * pSrcImg.height)) ++
      copyPlane pSrcImg pDstImg 1 (pSrcImg.height.tdiv 2) pDstImg.width
        ((int (pDstImg.pLineSize.get 1 * pSrcImg.height)).tdiv 2)
  else if pSrcImg.format = IMAGE_FORMAT_RGBA then
    copyPlane pSrcImg pDstImg 0 pSrcImg.height (int (pDstImg.width * 4)) (int (pSrcImg.pLineSize.get 0 * pSrcImg.height))
  else []

/-- `CopyNativeImage`; `ok` is what the `malloc` finds that it calls for a destination without memory. -/
def copy (pSrcImg pDstImg : NativeImage) (mem : Memory) (ok : Bool) : Memory × NativeImage × List Memcpy :=
  if pSrcImg.firstPlane = .null then (mem, pDstImg, [])
  else if pSrcImg.format ≠ pDstImg.format ∨ pSrcImg.width ≠ pDstImg.width ∨ pSrcImg.height ≠ pDstImg.height then
    (mem, pDstImg, [])
  else
    let (mem, pDstImg) := if pDstImg.firstPlane = .null then pDstImg.alloc mem ok else (mem, pDstImg)
    (mem, pDstImg, copyPlanes pSrcImg pDstImg)

end NativeImage

end LibraLive

import Mathlib.Data.List.Induction
import LibraLive.Lts
import LibraLive.DrawFrame
import LibraLive.Theorems.CopyImage

/-!
# The latest frame

The render image is made anew when the size changes, and only then; so a picture of the same size in another format is not
copied, and the one before it stays on the screen.
-/

namespace LibraLive

/-- A picture is passed: of one pixel at least, in one of the four formats, in memory that is not the renderer's. -/
structure RenderCall.Passes (c : RenderCall) (img : NativeImage) : Prop where
  image : c.pImage = some img
  plane : img.firstPlane ≠ .null
  supported : img.supported = true
  width : 1 ≤ img.width
  height : 1 ≤ img.height
  foreign : ∀ p, p.val < img.planes → ∀ n, (img.ppPlane.get p).base ≠ .block n

namespace VideoGLRender

/-- The picture has another size than the render image. -/
def Resizes (r : VideoGLRender) (img : NativeImage) : Prop :=
  img.width ≠ r.m_RenderImage.width ∨ img.height ≠ r.m_RenderImage.height

/-- The call makes the render image the picture, in memory of its own, and what is drawn next is that. -/
structure Shows (r : VideoGLRender) (c : RenderCall) (img : NativeImage) : Prop where
  sizeFits : r.Resizes img → img.InRange
  copyFits : ∀ p, p.val < img.planes → NativeImage.ProductsFit img (r.renderVideoFrame c).1.m_RenderImage p
  alike : img.Alike (r.renderVideoFrame c).1.m_RenderImage
  laidOut : ∃ n, (r.renderVideoFrame c).1.m_RenderImage.LaidOut (r.renderVideoFrame c).1.memory n
  copied : ∀ m : Base → Int → UInt8, NativeImage.PictureCopied img (r.renderVideoFrame c).1.m_RenderImage m
    (BlockCopy.run m ((r.renderVideoFrame c).2.map Memcpy.toCopy))
  drawn : ∀ m_ProgramObj, m_ProgramObj ≠ GL_NONE → (r.renderVideoFrame c).1.onDrawFrame m_ProgramObj = some {
    uploads := (r.renderVideoFrame c).1.m_RenderImage.uploads
    u_TexSize := (img.width, img.height)
    u_nImgType := img.format }

/-- A picture of another size finds memory, whose size is an `int`, and one of the same size has the format of the render
image; in both cases the offset of the last row of each plane is an `int`. -/
def Accepts (r : VideoGLRender) (c : RenderCall) (img : NativeImage) : Prop :=
  (r.Resizes img → img.InRange ∧ (c.ok = true ∨ c.again = true)) ∧
  (¬ r.Resizes img → img.format = r.m_RenderImage.format) ∧
  ∀ p, p.val < img.planes → img.rows p = 0 ∨ CInt.Fits ((img.rows p - 1) * img.pLineSize.get p)

/-- The render image is as it was made, or a picture has been copied into it. -/
inductive Ready (r : VideoGLRender) : Prop where
  | new : r.m_RenderImage = .new → Ready r
  | laidOut (n : Nat) : r.m_RenderImage.LaidOut r.memory n → r.m_RenderImage.InRange → 1 ≤ r.m_RenderImage.width →
      1 ≤ r.m_RenderImage.height → Ready r

variable {r : VideoGLRender} {c : RenderCall} {img : NativeImage} {mem : Memory} {n : Nat}

/-! ## A call -/

/-- What a call with a picture does: a new size first, and then the copy. -/
theorem renderVideoFrame_eq (hc : c.Passes img) : r.renderVideoFrame c =
    ({ m_RenderImage := (img.copy (r.resize img c.ok).m_RenderImage (r.resize img c.ok).memory c.again).2.1
       memory := (img.copy (r.resize img c.ok).m_RenderImage (r.resize img c.ok).memory c.again).1 },
      (img.copy (r.resize img c.ok).m_RenderImage (r.resize img c.ok).memory c.again).2.2) := by
  unfold renderVideoFrame
  rw [hc.image]
  exact if_neg hc.plane

/-- The render image after its size was changed: it is like the picture, and has memory if some was found. -/
theorem resize_of_ne (hc : c.Passes img) (h : r.Resizes img) : img.Alike (r.resize img c.ok).m_RenderImage ∧
    (c.ok = true → img.InRange → ∃ n, (r.resize img c.ok).m_RenderImage.LaidOut (r.resize img c.ok).memory n) ∧
    (c.ok = false → (r.resize img c.ok).m_RenderImage.firstPlane = .null) := by
  let fresh : NativeImage := { NativeImage.new with format := img.format, width := img.width, height := img.height }
  have hresize : r.resize img c.ok = ⟨(fresh.alloc (r.m_RenderImage.free r.memory).1 c.ok).2,
      (fresh.alloc (r.m_RenderImage.free r.memory).1 c.ok).1⟩ := if_pos h
  obtain ⟨hwidth, hheight, hformat⟩ := NativeImage.alloc_same fresh (r.m_RenderImage.free r.memory).1 c.ok
  rw [hresize]
  refine ⟨⟨hformat.symm, hwidth.symm, hheight.symm⟩, fun hok hrange => ?_, fun hok => ?_⟩
  · have hfresh : fresh.InRange := ⟨hrange.pixels, hrange.rgba⟩
    rw [hok]
    exact ⟨_, (@NativeImage.alloc_ok fresh _ hc.width hc.height hfresh hc.supported).2.2⟩
  · exact (NativeImage.alloc_none _ rfl (Or.inl hok)).2

/-- The copy of a picture into an image that is like it. -/
theorem copy_laidOut {dst : NativeImage} {ok : Bool} (hc : c.Passes img) (h : img.Alike dst) (hrange : img.InRange)
    (hdst : (∃ n, dst.LaidOut mem n) ∨ dst.firstPlane = .null ∧ ok = true) :
    ∃ n, (img.copy dst mem ok).2.1.LaidOut (img.copy dst mem ok).1 n := by
  have hsame : ¬ (img.format ≠ dst.format ∨ img.width ≠ dst.width ∨ img.height ≠ dst.height) := by
    simp [h.format, h.width, h.height]
  unfold NativeImage.copy
  rw [if_neg hc.plane, if_neg hsame]
  rcases hdst with ⟨n, hlaid⟩ | ⟨hnull, rfl⟩
  · rw [if_neg (laidOut_block hlaid).2]
    exact ⟨n, hlaid⟩
  · have hsupported : dst.supported = true := by
      rw [NativeImage.supported, ← h.format]
      exact hc.supported
    have hdrange : dst.InRange := ⟨h.width ▸ h.height ▸ hrange.pixels, h.format ▸ h.width ▸ h.height ▸ hrange.rgba⟩
    rw [if_pos hnull]
    exact ⟨_, (NativeImage.alloc_ok mem (h.width ▸ hc.width) (h.height ▸ hc.height) hdrange hsupported).2.2⟩

/-- What is drawn from an image with memory. -/
theorem onDrawFrame_eq {m_ProgramObj : Nat} (h : r.m_RenderImage.LaidOut r.memory n) (hprogram : m_ProgramObj ≠ GL_NONE) :
    r.onDrawFrame m_ProgramObj = some {
      uploads := r.m_RenderImage.uploads
      u_TexSize := (r.m_RenderImage.width, r.m_RenderImage.height)
      u_nImgType := r.m_RenderImage.format } :=
  if_neg (not_or.mpr ⟨hprogram, (laidOut_block h).2⟩)

/-- A call whose copy is to an image with memory that is like the picture shows the picture, if nothing overflows. -/
theorem shows_of_laidOut (hc : c.Passes img) (halike : img.Alike (r.resize img c.ok).m_RenderImage)
    (hsize : r.Resizes img → img.InRange) (hrange : img.InRange)
    (hdst : (∃ n, (r.resize img c.ok).m_RenderImage.LaidOut (r.resize img c.ok).memory n) ∨
      (r.resize img c.ok).m_RenderImage.firstPlane = .null ∧ c.again = true)
    (hlast : ∀ p, p.val < img.planes → img.rows p = 0 ∨ CInt.Fits ((img.rows p - 1) * img.pLineSize.get p)) : r.Shows c img := by
  obtain ⟨n, hlaid⟩ := copy_laidOut hc halike hrange hdst
  have hcopy := @NativeImage.copy_target _ _ (r.resize img c.ok).memory c.again halike hc.plane
  have halike' := halike.target (r.resize img c.ok).memory c.again
  have hrender := renderVideoFrame_eq (r := r) hc
  rw [hcopy] at hrender hlaid
  have hfits : ∀ p, p.val < img.planes → NativeImage.ProductsFit img
      ((r.resize img c.ok).m_RenderImage.target (r.resize img c.ok).memory c.again) p := by
    intro p hp
    have hline := (hlaid.plane (halike'.planes ▸ hp)).2
    rw [← halike'.rowBytes] at hline
    exact (NativeImage.productsFit_iff hc.width hc.height hrange hline).mpr (hlast p hp)
  have hwidth := hc.width
  have hheight := hc.height
  constructor
  · exact hsize
  · rw [hrender]
    exact hfits
  · rw [hrender]
    exact halike'
  · rw [hrender]
    exact ⟨n, hlaid⟩
  · intro m
    rw [hrender]
    exact NativeImage.copyPlanes_copied halike' (by omega) (by omega) hlaid hfits (fun p hp => hc.foreign p hp n) m
  · intro m_ProgramObj hprogram
    rw [hrender, halike'.width, halike'.height, halike'.format]
    exact onDrawFrame_eq hlaid hprogram

/-- A picture of the size of the render image: that has memory, and its size is an `int` in its own format. -/
theorem ready_same (hready : Ready r) (hc : c.Passes img) (hsize : ¬ r.Resizes img) :
    (∃ n, r.m_RenderImage.LaidOut r.memory n) ∧ (img.format = r.m_RenderImage.format → img.InRange) := by
  have hwidth := hc.width
  simp only [Resizes, not_or, ne_eq, not_not] at hsize
  cases hready with
  | new hnew =>
    rw [hnew] at hsize
    have hzero : NativeImage.new.width = 0 := rfl
    omega
  | laidOut n hlaid hrange =>
    exact ⟨⟨n, hlaid⟩, fun hformat => ⟨hsize.1 ▸ hsize.2 ▸ hrange.pixels, hformat ▸ hsize.1 ▸ hsize.2 ▸ hrange.rgba⟩⟩

/-- A call shows its picture exactly if it is accepted. -/
theorem shows_iff (hready : Ready r) (hc : c.Passes img) : r.Shows c img ↔ r.Accepts c img := by
  have hwidth := hc.width
  have hheight := hc.height
  -- the offsets of the rows, once the render image is laid out like the picture
  have hlast : img.InRange → r.Shows c img →
      ∀ p, p.val < img.planes → img.rows p = 0 ∨ CInt.Fits ((img.rows p - 1) * img.pLineSize.get p) := by
    intro hrange hshows p hp
    obtain ⟨n, hlaid⟩ := hshows.laidOut
    have hline := (hlaid.plane (hshows.alike.planes ▸ hp)).2
    rw [← hshows.alike.rowBytes] at hline
    exact (NativeImage.productsFit_iff hc.width hc.height hrange hline).mp (hshows.copyFits p hp)
  by_cases hsize : r.Resizes img
  · obtain ⟨halike, hok, hfail⟩ := resize_of_ne hc hsize
    constructor
    · intro hshows
      refine ⟨fun _ => ⟨hshows.sizeFits hsize, ?_⟩, fun h => absurd hsize h, hlast (hshows.sizeFits hsize) hshows⟩
      by_contra hnone
      simp only [not_or, Bool.not_eq_true] at hnone
      obtain ⟨n, hlaid⟩ := hshows.laidOut
      rw [renderVideoFrame_eq hc, NativeImage.copy_target halike hc.plane, NativeImage.target, if_pos (hfail hnone.1), hnone.2] at hlaid
      exact (laidOut_block hlaid).2 (NativeImage.alloc_none _ (hfail hnone.1) (Or.inl rfl)).2
    · rintro ⟨hfound, -, hlast⟩
      obtain ⟨hrange, hfound⟩ := hfound hsize
      refine shows_of_laidOut hc halike (fun _ => hrange) hrange ?_ hlast
      by_cases hc' : c.ok = true
      · exact Or.inl (hok hc' hrange)
      · exact Or.inr ⟨hfail (by simpa using hc'), hfound.resolve_left hc'⟩
  · have hresize : r.resize img c.ok = r := if_neg hsize
    obtain ⟨hlaid, himg⟩ := ready_same hready hc hsize
    constructor
    · intro hshows
      have hformat : img.format = r.m_RenderImage.format := by
        by_contra hne
        have hrefused : (img.copy r.m_RenderImage r.memory c.again).2.1 = r.m_RenderImage := by
          unfold NativeImage.copy
          rw [if_neg hc.plane, if_pos (Or.inl hne)]
        have halike := hshows.alike
        rw [renderVideoFrame_eq hc, hresize, hrefused] at halike
        exact hne halike.format
      exact ⟨fun h => absurd h hsize, fun _ => hformat, hlast (himg hformat) hshows⟩
    · rintro ⟨-, hformat, hlast⟩
      refine shows_of_laidOut hc ?_ (fun h => absurd h hsize) (himg (hformat hsize)) ?_ hlast
      · rw [hresize]
        simp only [Resizes, not_or, ne_eq, not_not] at hsize
        exact ⟨hformat (by simp [Resizes, hsize]), hsize.1, hsize.2⟩
      · rw [hresize]
        exact Or.inl hlaid

/-- After a call that is accepted the render image is ready for the next. -/
theorem ready_step (hready : Ready r) (hc : c.Passes img) (haccepts : r.Accepts c img) : Ready (r.renderVideoFrame c).1 := by
  have hrange : img.InRange := by
    by_cases hsize : r.Resizes img
    · exact (haccepts.1 hsize).1
    · exact (ready_same hready hc hsize).2 (haccepts.2.1 hsize)
  obtain ⟨-, -, halike, ⟨n, hlaid⟩, -, -⟩ := (shows_iff hready hc).mpr haccepts
  exact .laidOut n hlaid ⟨halike.width ▸ halike.height ▸ hrange.pixels, halike.format ▸ halike.width ▸ halike.height ▸ hrange.rgba⟩
    (halike.width ▸ hc.width) (halike.height ▸ hc.height)

/-! ## Every sequence of calls -/

/-- For each call with a picture: `Q` holds of the renderer before it and the call. -/
def Always (Q : VideoGLRender → RenderCall → NativeImage → Prop) (calls : List RenderCall) : Prop :=
  ∀ before c after, calls = before ++ c :: after → ∀ img, c.pImage = some img → Q (run before) c img

theorem always_snoc {Q : VideoGLRender → RenderCall → NativeImage → Prop} {calls : List RenderCall} :
    Always Q (calls ++ [c]) ↔ Always Q calls ∧ ∀ img, c.pImage = some img → Q (run calls) c img := by
  constructor
  · intro h
    refine ⟨fun before c' after hcalls => h before c' (after ++ [c]) ?_, h calls c [] rfl⟩
    rw [hcalls, List.append_assoc, List.cons_append]
  · rintro ⟨hcalls, hlast⟩ before c' after heq
    obtain ⟨rfl, rfl, -⟩ | ⟨rest, -, hrest⟩ := Lts.snoc_cases heq
    · exact hlast
    · exact hcalls before c' rest hrest

/-- Every call of a sequence shows its picture exactly if every call is accepted: memory is found for new sizes, nothing
overflows, and no picture comes in another format than one of its size before it. -/
theorem latest_frame (calls : List RenderCall) (hcalls : ∀ c ∈ calls, ∃ img, c.Passes img) :
    Always Shows calls ↔ Always Accepts calls := by
  suffices h : (Always Shows calls ↔ Always Accepts calls) ∧ (Always Accepts calls → Ready (run calls)) from h.1
  induction calls using List.reverseRecOn with
  | nil =>
    have hnone : ∀ Q, Always Q [] := fun Q before c after h => absurd h (by simp)
    exact ⟨iff_of_true (hnone _) (hnone _), fun _ => .new rfl⟩
  | append_singleton calls c ih =>
    obtain ⟨hiff, hready⟩ := ih fun c' hc' => hcalls c' (List.mem_append_left _ hc')
    obtain ⟨img, hc⟩ := hcalls c (List.mem_append_right _ List.mem_cons_self)
    have honly : ∀ img', c.pImage = some img' → img' = img := fun img' h => Option.some.inj (h.symm.trans hc.image)
    have hone : ∀ Q : VideoGLRender → RenderCall → NativeImage → Prop,
        (∀ img', c.pImage = some img' → Q (run calls) c img') ↔ Q (run calls) c img :=
      fun Q => ⟨fun h => h img hc.image, fun h img' himg' => honly img' himg' ▸ h⟩
    rw [always_snoc, always_snoc, hone, hone, hiff, run_snoc]
    exact ⟨and_congr_right fun hbefore => shows_iff (hready hbefore) hc, fun h => ready_step (hready h.1) hc h.2⟩

/-- A grey picture of a size, in memory of its own. -/
def grey (width height : Int) : NativeImage where
  width := width
  height := height
  format := IMAGE_FORMAT_NV21
  ppPlane := #v[⟨.other 1, 0⟩, ⟨.other 2, 0⟩, .null]
  pLineSize := #v[width, width, 0]

theorem passes_pixel : (RenderCall.mk (some pixel) true true).Passes pixel :=
  ⟨rfl, by decide, rfl, by decide, by decide, fun p hp n => by
    have hplanes : pixel.planes = 1 := rfl
    obtain rfl : p = 0 := by omega
    exact fun h => Base.noConfusion h⟩

theorem passes_grey {width height : Int} (hw : 1 ≤ width) (hh : 1 ≤ height) :
    (RenderCall.mk (some (grey width height)) true true).Passes (grey width height) := by
  refine ⟨rfl, fun h => Base.noConfusion (congrArg Ptr.base h), rfl, hw, hh, fun p hp n => ?_⟩
  have hplanes : (grey width height).planes = 2 := rfl
  obtain rfl | rfl : p = 0 ∨ p = 1 := by omega
  · exact fun h => Base.noConfusion h
  · exact fun h => Base.noConfusion h

/-- Two pictures of different sizes and formats. -/
theorem latest_frame_example : Always Shows [⟨some pixel, true, true⟩, ⟨some (grey 2 2), true, true⟩] := by
  refine (latest_frame [⟨some pixel, true, true⟩, ⟨some (grey 2 2), true, true⟩] fun c hc => ?_).mpr ?_
  · rcases List.mem_cons.mp hc with rfl | hc
    · exact ⟨_, passes_pixel⟩
    · rw [List.mem_singleton.mp hc]
      exact ⟨_, passes_grey (by decide) (by decide)⟩
  · show Always Accepts (([] ++ [⟨some pixel, true, true⟩]) ++ [⟨some (grey 2 2), true, true⟩])
    refine always_snoc.mpr ⟨always_snoc.mpr ⟨?_, ?_⟩, ?_⟩
    · exact fun before c after h => absurd h (by simp)
    · intro img himg
      obtain rfl := Option.some.inj himg
      refine ⟨fun _ => ⟨.of_small (by decide) (by decide) (by decide), Or.inl rfl⟩, fun h => ?_, by decide⟩
      exact absurd (Or.inl (by decide)) h
    · intro img himg
      obtain rfl := Option.some.inj himg
      refine ⟨fun _ => ⟨.of_small (by decide) (by decide) (by decide), Or.inl rfl⟩, fun h => ?_, by decide⟩
      exact absurd (Or.inl (by decide)) h

/-- A picture of one pixel in colours, and then a grey one of the same size: the render image stays as it is. -/
theorem stale_frame : ¬ ∀ calls : List RenderCall, (∀ c ∈ calls, ∃ img, c.Passes img) → Always Shows calls := by
  intro h
  have hshows := h [⟨some pixel, true, true⟩, ⟨some (grey 1 1), true, true⟩] (fun c hc => by
    rcases List.mem_cons.mp hc with rfl | hc
    · exact ⟨_, passes_pixel⟩
    · rw [List.mem_singleton.mp hc]
      exact ⟨_, passes_grey le_rfl le_rfl⟩) [⟨some pixel, true, true⟩] _ [] rfl (grey 1 1) rfl
  exact absurd hshows.alike.format (by decide)

end VideoGLRender

end LibraLive

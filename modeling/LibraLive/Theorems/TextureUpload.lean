import LibraLive.DrawFrame
import LibraLive.Theorems.CopyImage

/-!
# The rows that OpenGL reads

The render image has no gaps between its rows, but OpenGL takes the rows of a texture from multiples of four bytes. The two agree
where a row is such a multiple, or where there is one row only.
-/

namespace LibraLive

/-- The upload of a plane reads its rows from where the image has them, and no byte beyond the plane or its block. -/
structure TexImage2D.ReadsPlane (t : TexImage2D) (img : NativeImage) (mem : Memory) (p : Fin 3) : Prop where
  texture : t.texture = p.val
  pixels : t.pixels = img.ppPlane.get p
  rows : ∀ y, 0 ≤ y → y < t.height → y * t.rowLength = y * img.pLineSize.get p
  inside : 0 < t.width → 0 < t.height → ∃ n size, t.pixels.base = .block n ∧ mem.blocks[n]? = some size ∧ 0 ≤ t.pixels.offset ∧
    (t.height - 1) * t.rowLength + t.width * t.format.bytes - 1 < img.rows p * img.pLineSize.get p ∧
    t.pixels.offset + ((t.height - 1) * t.rowLength + t.width * t.format.bytes - 1) < size

/-- `OnDrawFrame` uploads the planes of the render image, each as it is. -/
def VideoGLRender.UploadsRight (r : VideoGLRender) (m_ProgramObj : Nat) : Prop :=
  ∃ frame, r.onDrawFrame m_ProgramObj = some frame ∧ frame.uploads.length = r.m_RenderImage.planes ∧
    ∀ (p : Fin 3) t, frame.uploads[p.val]? = some t → t.ReadsPlane r.m_RenderImage r.memory p

namespace NativeImage

/-- The sizes for which the rows of every plane are multiples of four bytes, or the only ones. -/
def RowsAligned (img : NativeImage) : Prop :=
  img.format = IMAGE_FORMAT_RGBA ∨ img.height = 1 ∨
    4 ∣ img.width ∧ (img.format = IMAGE_FORMAT_I420 → img.height ≤ 3 ∨ 8 ∣ img.width)

/-- The format of the texture of a plane. -/
def texelFormat (img : NativeImage) (p : Fin 3) : TexelFormat :=
  if img.format = IMAGE_FORMAT_RGBA then .GL_RGBA
  else if img.format ≠ IMAGE_FORMAT_I420 ∧ p.val = 1 then .GL_LUMINANCE_ALPHA
  else .GL_LUMINANCE

/-- The upload of a plane. -/
def upload (img : NativeImage) (p : Fin 3) : TexImage2D where
  texture := p.val
  format := img.texelFormat p
  width := if p.val = 0 then img.width else img.width / 2
  height := img.rows p
  pixels := img.ppPlane.get p

variable {img : NativeImage} {mem : Memory} {n : Nat} {p : Fin 3}

theorem uploads_eq (hsupported : img.supported = true) :
    img.uploads.length = img.planes ∧ ∀ (p : Fin 3) t, img.uploads[p.val]? = some t ↔ p.val < img.planes ∧ t = img.upload p := by
  have hshift : ∀ x : Int, x >>> (1 : Nat) = x / 2 := fun x => by rw [Int.shiftRight_eq_div_pow]; rfl
  have hthree : ∀ p : Fin 3, p = 0 ∨ p = 1 ∨ p = 2 := by decide
  simp only [supported, List.mem_cons, List.not_mem_nil, or_false, decide_eq_true_eq] at hsupported
  unfold uploads
  rw [hshift, hshift]
  rcases hsupported with hf | hf | hf | hf
  all_goals
    refine ⟨by simp [planes, hf], fun p t => ?_⟩
    obtain rfl | rfl | rfl := hthree p
  all_goals simp [planes, upload, texelFormat, rows, hf, eq_comm]

theorem planes_pos (hsupported : img.supported = true) : 0 < img.planes := by
  simp only [supported, List.mem_cons, List.not_mem_nil, or_false, decide_eq_true_eq] at hsupported
  unfold planes
  split_ifs <;> omega

/-! ## A plane -/

/-- Every plane of an image that is laid out ends in its block. -/
theorem LaidOut.inside (h : img.LaidOut mem n) (hw : 0 ≤ img.width) (hh : 0 ≤ img.height) (hp : p.val < img.planes) :
    ∃ size, mem.blocks[n]? = some size ∧ 0 ≤ (img.ppPlane.get p).offset ∧
      (img.ppPlane.get p).offset + img.rows p * img.pLineSize.get p ≤ size := by
  have hpos : 0 ≤ img.width * img.height := Int.mul_nonneg hw hh
  have hcomm : img.height * img.width = img.width * img.height := Int.mul_comm _ _
  obtain ⟨hhalf0, hhalf⟩ := half_mul_le hh hw
  cases h with
  | rgba hf hsize hp0 hl =>
    have h0 : img.ppPlane.get 0 = .block n := hp0
    have hplanes : img.planes = 1 := by simp [planes, hf]
    have hbytes : img.height * (img.width * 4) = img.width * img.height * 4 := by ring
    obtain rfl : p = 0 := by omega
    refine ⟨_, hsize, ?_⟩
    rw [h0, hl]
    show 0 ≤ 0 ∧ 0 + img.height * (img.width * 4) ≤ img.width * img.height * 4
    omega
  | nv hf hsize hp0 hp1 hl =>
    have h0 : img.ppPlane.get 0 = .block n := hp0
    have hi420 : img.format ≠ IMAGE_FORMAT_I420 := by rcases hf with hf | hf <;> rw [hf] <;> decide
    have hplanes : img.planes = 2 := by simp [planes, hi420, hf.symm]
    refine ⟨_, hsize, ?_⟩
    obtain rfl | rfl : p = 0 ∨ p = 1 := by omega
    · rw [h0, hl]
      show 0 ≤ 0 ∧ 0 + img.height * img.width ≤ 3 * (img.width * img.height) / 2
      omega
    · rw [hp1, hl]
      show 0 ≤ 0 + img.width * img.height ∧
        0 + img.width * img.height + img.height / 2 * img.width ≤ 3 * (img.width * img.height) / 2
      omega
  | i420 hf hsize hp0 hp1 hp2 hl =>
    have h0 : img.ppPlane.get 0 = .block n := hp0
    obtain ⟨hquarter0, hquarter⟩ := half_mul_le hh (by omega : 0 ≤ img.width / 2)
    obtain ⟨-, hquarter'⟩ := half_mul_le hw hh
    have hswap : img.height * (img.width / 2) = img.width / 2 * img.height := Int.mul_comm _ _
    have hswap' : img.height / 2 * (img.width / 2) = img.width / 2 * (img.height / 2) := Int.mul_comm _ _
    refine ⟨_, hsize, ?_⟩
    obtain rfl | rfl | rfl : p = 0 ∨ p = 1 ∨ p = 2 := by omega
    · rw [h0, hl]
      show 0 ≤ 0 ∧ 0 + img.height * img.width ≤ 3 * (img.width * img.height) / 2
      omega
    · rw [hp1, hl]
      show 0 ≤ 0 + img.width * img.height ∧
        0 + img.width * img.height + img.height / 2 * (img.width / 2) ≤ 3 * (img.width * img.height) / 2
      omega
    · rw [hp2, hl]
      show 0 ≤ 0 + (img.width * img.height + img.width / 2 * (img.height / 2)) ∧
        0 + (img.width * img.height + img.width / 2 * (img.height / 2)) + img.height / 2 * (img.width / 2) ≤
          3 * (img.width * img.height) / 2
      omega

/-- The texels of a row are in a row of the image. -/
theorem upload_row (hw : 0 ≤ img.width) : (img.upload p).width * (img.texelFormat p).bytes ≤ img.rowBytes p := by
  unfold upload texelFormat rowBytes
  dsimp only
  split_ifs <;> simp only [TexelFormat.bytes] <;> omega

/-- A plane of an image that is laid out is read as it is, if OpenGL takes the distance of its rows for what it is, or there is one
row at most. -/
theorem readsPlane_iff (h : img.LaidOut mem n) (hw : 0 ≤ img.width) (hh : 0 ≤ img.height) (hp : p.val < img.planes) :
    (img.upload p).ReadsPlane img mem p ↔ img.rows p ≤ 1 ∨ (img.upload p).rowLength = img.rowBytes p := by
  obtain ⟨hbase, hline⟩ := h.plane hp
  obtain ⟨size, hsize, hoffset, hend⟩ := h.inside hw hh hp
  have hrow : (img.upload p).width * (img.upload p).format.bytes ≤ img.rowBytes p := upload_row hw
  have hheight : (img.upload p).height = img.rows p := rfl
  rw [← hline] at hrow ⊢
  constructor
  · intro hreads
    by_cases hone : img.rows p ≤ 1
    · exact Or.inl hone
    · have hsecond := hreads.rows 1 (by omega) (by omega)
      exact Or.inr (by omega)
  · intro hcond
    have hrows : ∀ y, 0 ≤ y → y < img.rows p → y * (img.upload p).rowLength = y * img.pLineSize.get p := by
      intro y hy hlt
      rcases hcond with hone | heq
      · obtain rfl : y = 0 := by omega
        simp
      · rw [heq]
    refine ⟨rfl, rfl, hrows, fun _ hpos => ⟨n, size, hbase, hsize, hoffset, ?_⟩⟩
    have hlast := hrows (img.rows p - 1) (by omega) (by omega)
    have hsub : (img.rows p - 1) * img.pLineSize.get p = img.rows p * img.pLineSize.get p - img.pLineSize.get p := by ring
    rw [hheight, hlast, hsub]
    show _ ∧ (img.ppPlane.get p).offset + _ < size
    omega

theorem rows_rgba (hf : img.format = IMAGE_FORMAT_RGBA) :
    ∀ p, p.val < img.planes → img.rows p ≤ 1 ∨ (img.upload p).rowLength = img.rowBytes p := by
  intro p hp
  have hplanes : img.planes = 1 := by simp [planes, hf]
  obtain rfl : p = 0 := by omega
  have hlength : (img.upload 0).rowLength = (img.width * 4 + (4 - 1)) / 4 * 4 := by
    simp [upload, texelFormat, TexImage2D.rowLength, TexImage2D.unpackAlignment, TexelFormat.bytes, hf]
  have hbytes : img.rowBytes 0 = img.width * 4 := by simp [rowBytes, hf]
  omega

theorem rows_nv (hf : img.format = IMAGE_FORMAT_NV21 ∨ img.format = IMAGE_FORMAT_NV12) :
    (∀ p, p.val < img.planes → img.rows p ≤ 1 ∨ (img.upload p).rowLength = img.rowBytes p) ↔
      (img.height ≤ 1 ∨ (img.width + 3) / 4 * 4 = img.width) ∧
        (img.height / 2 ≤ 1 ∨ (img.width / 2 * 2 + 3) / 4 * 4 = img.width) := by
  rcases hf with hf | hf <;>
    simp [Fin.forall_fin_succ, planes, rows, rowBytes, upload, texelFormat, TexImage2D.rowLength, TexImage2D.unpackAlignment,
      TexelFormat.bytes, hf]

theorem rows_i420 (hf : img.format = IMAGE_FORMAT_I420) :
    (∀ p, p.val < img.planes → img.rows p ≤ 1 ∨ (img.upload p).rowLength = img.rowBytes p) ↔
      (img.height ≤ 1 ∨ (img.width + 3) / 4 * 4 = img.width) ∧
        (img.height / 2 ≤ 1 ∨ (img.width / 2 + 3) / 4 * 4 = img.width / 2) := by
  simp [Fin.forall_fin_succ, planes, rows, rowBytes, upload, texelFormat, TexImage2D.rowLength, TexImage2D.unpackAlignment,
    TexelFormat.bytes, hf]

/-- The planes together. -/
theorem uploads_iff (h : img.LaidOut mem n) (hsupported : img.supported = true) (hw : 1 ≤ img.width) (hh : 1 ≤ img.height) :
    (∀ p, p.val < img.planes → (img.upload p).ReadsPlane img mem p) ↔ img.RowsAligned := by
  have hiff : (∀ p, p.val < img.planes → (img.upload p).ReadsPlane img mem p) ↔
      ∀ p, p.val < img.planes → (img.rows p ≤ 1 ∨ (img.upload p).rowLength = img.rowBytes p) :=
    forall₂_congr fun p hp => readsPlane_iff h (by omega) (by omega) hp
  rw [hiff]
  simp only [supported, List.mem_cons, List.not_mem_nil, or_false, decide_eq_true_eq] at hsupported
  rcases hsupported with hf | hf | hf | hf
  · exact iff_of_true (rows_rgba hf) (Or.inl hf)
  -- the second plane of the two NV formats asks for no more than the first one, whose rows are as many bytes and twice as many
  · have haligned : img.RowsAligned ↔ img.height = 1 ∨ 4 ∣ img.width := by simp [RowsAligned, hf]
    rw [rows_nv (Or.inl hf), haligned]
    omega
  · have haligned : img.RowsAligned ↔ img.height = 1 ∨ 4 ∣ img.width := by simp [RowsAligned, hf]
    rw [rows_nv (Or.inr hf), haligned]
    omega
  · have haligned : img.RowsAligned ↔ img.height = 1 ∨ 4 ∣ img.width ∧ (img.height ≤ 3 ∨ 8 ∣ img.width) := by
      simp [RowsAligned, hf]
    rw [rows_i420 hf, haligned]
    omega

/-! ## The size of the block -/

/-- The first plane begins the block, whatever size was computed for it. -/
theorem alloc_first (mem : Memory) (hw : img.width ≠ 0) (hh : img.height ≠ 0) (hsupported : img.supported = true) :
    (img.alloc mem true).2.firstPlane = .block mem.blocks.length ∧
      (img.alloc mem true).1.blocks[mem.blocks.length]? = some (if img.format = IMAGE_FORMAT_RGBA then
        int (int (img.width * img.height) * 4) else (3 * int (img.width * img.height)).tdiv 2) := by
  have hzero : ¬ (img.height = 0 ∨ img.width = 0) := by tauto
  have hblock : ∀ x : Int, (mem.blocks ++ [x])[mem.blocks.length]? = some x := fun x => List.getElem?_concat_length
  simp only [supported, List.mem_cons, List.not_mem_nil, or_false, decide_eq_true_eq] at hsupported
  unfold alloc
  rw [if_neg hzero]
  by_cases hrgba : img.format = IMAGE_FORMAT_RGBA
  · rw [if_pos hrgba, if_pos hrgba]
    exact ⟨first_set _ _, hblock _⟩
  rw [if_neg hrgba, if_neg hrgba]
  by_cases hnv : img.format = IMAGE_FORMAT_NV12 ∨ img.format = IMAGE_FORMAT_NV21
  · rw [if_pos hnv]
    exact ⟨(first_set_second _ _).trans (first_set _ _), hblock _⟩
  · rw [if_neg hnv, if_pos (by tauto)]
    exact ⟨rfl, hblock _⟩

/-- One and a half times a number of pixels is as much only if the number was an `int`. -/
theorem pixels_of_size {pixels : Int} (h0 : 0 ≤ pixels) (h : pixels ≤ (3 * int pixels).tdiv 2) : pixels < 0x80000000 := by
  have hint : int pixels < 0x80000000 ∧ (pixels < 0x100000000 → 0x80000000 ≤ pixels → int pixels < 0) := by
    rw [int, Int.bmod_def]
    omega
  obtain hneg | hpos := lt_or_ge (int pixels) 0
  · have hle : (3 * int pixels).tdiv 2 ≤ 0 := by
      have := Int.tdiv_nonneg (a := - (3 * int pixels)) (b := 2) (by omega) (by omega)
      rw [Int.neg_tdiv] at this
      omega
    omega
  · rw [Int.tdiv_eq_ediv_of_nonneg (by omega)] at h
    omega

/-- If the first plane is in its block, the block is as large as it was meant to be. -/
theorem inRange_of_first (hw : 1 ≤ img.width) (hh : 1 ≤ img.height) (hsupported : img.supported = true)
    (h : ((img.alloc mem true).2.upload 0).ReadsPlane (img.alloc mem true).2 (img.alloc mem true).1 0) : img.InRange := by
  obtain ⟨hsamew, hsameh, hsamef⟩ := alloc_same img mem true
  obtain ⟨hfirst, hblock⟩ := alloc_first mem (by omega) (by omega) hsupported
  have hfirst' : (img.alloc mem true).2.ppPlane.get 0 = .block mem.blocks.length := hfirst
  have hwidth : ((img.alloc mem true).2.upload 0).width = img.width := hsamew
  have hheight : ((img.alloc mem true).2.upload 0).height = img.height := hsameh
  have hpixels : ((img.alloc mem true).2.upload 0).pixels = .block mem.blocks.length := hfirst'
  have hpos : 0 ≤ img.width * img.height := Int.mul_nonneg (by omega) (by omega)
  obtain ⟨n, size, hbase, hsize, -, -, hlast⟩ := h.inside (by omega) (by omega)
  rw [hpixels] at hbase hlast
  obtain rfl : mem.blocks.length = n := Base.block.inj hbase
  rw [hblock, Option.some.injEq] at hsize
  rw [hwidth, hheight] at hlast
  -- the last byte is not before the last one of as many rows without a gap
  have hrow : ∀ bytes, img.width * bytes ≤ ((img.alloc mem true).2.upload 0).rowLength →
      img.width * bytes * img.height ≤ (img.height - 1) * ((img.alloc mem true).2.upload 0).rowLength + img.width * bytes := by
    intro bytes hle
    have hstep := Int.mul_le_mul_of_nonneg_left hle (by omega : 0 ≤ img.height - 1)
    have hsplit : img.width * bytes * img.height = (img.height - 1) * (img.width * bytes) + img.width * bytes := by ring
    omega
  have hlength : img.width * ((img.alloc mem true).2.upload 0).format.bytes ≤ ((img.alloc mem true).2.upload 0).rowLength := by
    rw [TexImage2D.rowLength, TexImage2D.unpackAlignment, hwidth]
    omega
  have hbytes := hrow _ hlength
  have hzero : (Ptr.block mem.blocks.length).offset = 0 := rfl
  rw [hzero, ← hsize] at hlast
  have hformat : ((img.alloc mem true).2.upload 0).format =
      if img.format = IMAGE_FORMAT_RGBA then .GL_RGBA else .GL_LUMINANCE := by
    show (img.alloc mem true).2.texelFormat 0 = _
    simp [texelFormat, hsamef]
  rw [hformat] at hlast hbytes
  by_cases hrgba : img.format = IMAGE_FORMAT_RGBA
  · have hfour : img.width * 4 * img.height = 4 * (img.width * img.height) := by ring
    rw [if_pos hrgba, if_pos hrgba] at hlast
    rw [if_pos hrgba] at hbytes
    simp only [TexelFormat.bytes, int, Int.bmod_def] at hlast hbytes
    exact ⟨by omega, fun _ => by omega⟩
  · rw [if_neg hrgba, if_neg hrgba] at hlast
    rw [if_neg hrgba] at hbytes
    simp only [TexelFormat.bytes, Int.mul_one] at hlast hbytes
    exact ⟨pixels_of_size hpos (by omega), fun h => absurd h hrgba⟩

end NativeImage

namespace VideoGLRender

/-- The renderer with an image that was allocated for a format and a size. -/
def withImage (format width height : Int) (memory : Memory) : VideoGLRender :=
  let (memory, m_RenderImage) := { NativeImage.new with format := format, width := width, height := height }.alloc memory true
  { m_RenderImage, memory }

/-- For every format and size: OpenGL reads the planes as they are exactly if the size of the block is an `int` and the rows are
aligned or alone. -/
theorem texture_upload (format width height : Int) (memory : Memory) (m_ProgramObj : Nat)
    (hformat : format ∈ [IMAGE_FORMAT_RGBA, IMAGE_FORMAT_NV21, IMAGE_FORMAT_NV12, IMAGE_FORMAT_I420]) (hw : 1 ≤ width)
    (hh : 1 ≤ height) (hprogram : m_ProgramObj ≠ GL_NONE) : (withImage format width height memory).UploadsRight m_ProgramObj ↔
      NativeImage.InRange { NativeImage.new with format := format, width := width, height := height } ∧
      NativeImage.RowsAligned { NativeImage.new with format := format, width := width, height := height } := by
  let img : NativeImage := { NativeImage.new with format := format, width := width, height := height }
  have hsupported : img.supported = true := decide_eq_true hformat
  obtain ⟨hsamew, hsameh, hsamef⟩ := NativeImage.alloc_same img memory true
  have hsupported' : (img.alloc memory true).2.supported = true := by
    rw [NativeImage.supported, hsamef]
    exact hsupported
  obtain ⟨hfirst, -⟩ := NativeImage.alloc_first memory (show img.width ≠ 0 by show width ≠ 0; omega)
    (show img.height ≠ 0 by show height ≠ 0; omega) hsupported
  obtain ⟨hlength, huploads⟩ := NativeImage.uploads_eq hsupported'
  have haligned : (img.alloc memory true).2.RowsAligned ↔ img.RowsAligned := by
    unfold NativeImage.RowsAligned
    rw [hsamew, hsameh, hsamef]
  have hdrawn : (withImage format width height memory).onDrawFrame m_ProgramObj = some {
      uploads := (img.alloc memory true).2.uploads
      u_TexSize := ((img.alloc memory true).2.width, (img.alloc memory true).2.height)
      u_nImgType := (img.alloc memory true).2.format } := by
    refine if_neg (not_or.mpr ⟨hprogram, ?_⟩)
    show (img.alloc memory true).2.firstPlane ≠ .null
    rw [hfirst]
    exact fun h => Base.noConfusion (congrArg Ptr.base h)
  have hplanes : (withImage format width height memory).UploadsRight m_ProgramObj ↔
      ∀ p, p.val < (img.alloc memory true).2.planes →
        ((img.alloc memory true).2.upload p).ReadsPlane (img.alloc memory true).2 (img.alloc memory true).1 p := by
    unfold UploadsRight
    simp only [hdrawn, Option.some.injEq, exists_eq_left', huploads]
    exact ⟨fun h p hp => h.2 p _ ⟨hp, rfl⟩, fun h => ⟨hlength, fun p t ht => ht.2 ▸ h p ht.1⟩⟩
  rw [hplanes]
  by_cases hrange : img.InRange
  · obtain ⟨-, -, hlaid⟩ := NativeImage.alloc_ok memory hw hh hrange hsupported
    rw [NativeImage.uploads_iff hlaid hsupported' (hsamew ▸ hw) (hsameh ▸ hh), haligned]
    exact ⟨fun h => ⟨hrange, h⟩, fun h => h.2⟩
  · refine ⟨fun h => absurd (NativeImage.inRange_of_first hw hh hsupported (h 0 ?_)) hrange, fun h => absurd h.1 hrange⟩
    exact NativeImage.planes_pos hsupported'

theorem texture_upload_example : (withImage IMAGE_FORMAT_NV21 4 2 .new).UploadsRight 1 :=
  (texture_upload IMAGE_FORMAT_NV21 4 2 .new 1 (by decide) (by decide) (by decide) (by decide)).mpr
    ⟨.of_small (by decide) (by decide) (by decide), Or.inr (Or.inr ⟨by decide, fun h => absurd h (by decide)⟩)⟩

/-- The second row of a picture that is six bytes wide begins at byte six, and is read from byte eight on. -/
theorem skewed_upload : ¬ ∀ (format width height : Int) (memory : Memory) (m_ProgramObj : Nat),
    format ∈ [IMAGE_FORMAT_RGBA, IMAGE_FORMAT_NV21, IMAGE_FORMAT_NV12, IMAGE_FORMAT_I420] → 1 ≤ width → 1 ≤ height →
    m_ProgramObj ≠ GL_NONE → (withImage format width height memory).UploadsRight m_ProgramObj := by
  intro h
  obtain ⟨frame, hframe, -, hplanes⟩ := h IMAGE_FORMAT_I420 6 2 .new 1 (by decide) (by decide) (by decide) (by decide)
  obtain rfl := Option.some.inj hframe
  have hsecond := (hplanes 0 _ rfl).rows 1 (by decide) (by decide)
  exact absurd hsecond (by decide)

end VideoGLRender

end LibraLive

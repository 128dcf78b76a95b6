import LibraLive.Lemmas.CopyPlanes
import LibraLive.Theorems.RenderImage

/-!
# The picture is copied

Whichever way each plane takes. What a plane that is copied at once writes beyond its rows is in the next plane, which is copied
later; so the rows of every plane are in the end as in the source.
-/

namespace LibraLive

namespace NativeImage

open BlockCopy

/-- Every byte of the picture is at its place in the destination: memory was `m` and is `m'`. -/
def PictureCopied (src dst : NativeImage) (m m' : Base → Int → UInt8) : Prop :=
  ∀ p, p.val < src.planes → ∀ y x, 0 ≤ y → y < src.rows p → 0 ≤ x → x < src.rowBytes p →
    m' (dst.ppPlane.get p).base ((dst.ppPlane.get p).offset + y * dst.pLineSize.get p + x) =
      m (src.ppPlane.get p).base ((src.ppPlane.get p).offset + y * src.pLineSize.get p + x)

variable {src dst : NativeImage} {p q : Fin 3} {mem : Memory} {n : Nat} {m : Base → Int → UInt8}

/-! ## One plane -/

/-- Nothing is written before the plane. -/
theorem plane_writes {c : Copy Base} (hp : p.val < src.planes) (hfit : ProductsFit src dst p) (hw : 0 ≤ src.width)
    (hh : 0 ≤ src.height) (hline : 0 ≤ dst.pLineSize.get p) (hc : c ∈ (planeCopies src dst p).map Memcpy.toCopy) :
    c.dst = (dst.ppPlane.get p).base ∧ (dst.ppPlane.get p).offset ≤ c.dstOffset := by
  by_cases heq : src.pLineSize.get p = dst.pLineSize.get p
  · rw [planeCopies_whole hp heq hfit hh (heq ▸ hline), List.mem_singleton] at hc
    subst hc
    exact ⟨rfl, le_rfl⟩
  · rw [planeCopies_rows hp heq hfit hw] at hc
    obtain ⟨i, -, rfl⟩ := mem_rows.mp hc
    have hrow : 0 ≤ (i : Int) * dst.pLineSize.get p := Int.mul_nonneg (by omega) hline
    exact ⟨rfl, by dsimp only; omega⟩

/-- The rows are part of what is copied at once. -/
theorem row_in_whole {y x : Int} (hh : 0 ≤ src.height) (hy : 0 ≤ y) (hrows : y < src.rows p) (hx : 0 ≤ x)
    (hlt : x < src.pLineSize.get p) : 0 ≤ y * src.pLineSize.get p + x ∧ y * src.pLineSize.get p + x < src.wholeBytes p := by
  have hrow := row_le (by omega : y + 1 ≤ src.rows p) (by omega : 0 ≤ src.pLineSize.get p)
  have hfirst : 0 ≤ y * src.pLineSize.get p := Int.mul_nonneg hy (by omega)
  have hwhole : src.rows p * src.pLineSize.get p ≤ src.wholeBytes p := by
    obtain ⟨-, hhalf⟩ := half_mul_le hh (by omega : 0 ≤ src.pLineSize.get p)
    have hcomm : src.height * src.pLineSize.get p = src.pLineSize.get p * src.height := Int.mul_comm _ _
    unfold rows wholeBytes
    split
    · exact le_of_eq hcomm
    · omega
  omega

/-- A plane is copied, where nothing else is. -/
theorem plane_copied {y x : Int} (hp : p.val < src.planes) (hfit : ProductsFit src dst p) (hw : 0 ≤ src.width)
    (hh : 0 ≤ src.height) (hdst : src.rowBytes p ≤ dst.pLineSize.get p) (hapart : (src.ppPlane.get p).base ≠ (dst.ppPlane.get p).base)
    (hy : 0 ≤ y) (hrows : y < src.rows p) (hx : 0 ≤ x) (hlt : x < src.rowBytes p) :
    run m ((planeCopies src dst p).map Memcpy.toCopy) (dst.ppPlane.get p).base
        ((dst.ppPlane.get p).offset + y * dst.pLineSize.get p + x) =
      m (src.ppPlane.get p).base ((src.ppPlane.get p).offset + y * src.pLineSize.get p + x) := by
  by_cases heq : src.pLineSize.get p = dst.pLineSize.get p
  · obtain ⟨hfrom, hto⟩ := row_in_whole hh hy hrows hx (heq ▸ hlt.trans_le hdst)
    rw [planeCopies_whole hp heq hfit hh (by omega), run_cons, run_nil, ← heq,
      exec_of_writes ⟨rfl, by dsimp only; omega, by dsimp only; omega⟩]
    congr 1
    dsimp only
    omega
  · rw [planeCopies_rows hp heq hfit hw]
    obtain ⟨i, rfl⟩ := Int.eq_ofNat_of_zero_le hy
    exact run_rows (by omega) hx hlt hdst hapart

/-! ## The planes of an image that is laid out -/

/-- The planes of the destination are in its block, without padding. -/
theorem LaidOut.plane (h : dst.LaidOut mem n) (hp : p.val < dst.planes) :
    (dst.ppPlane.get p).base = .block n ∧ dst.pLineSize.get p = dst.rowBytes p := by
  cases h with
  | rgba hf _ hp0 hl =>
    have hplanes : dst.planes = 1 := by simp [planes, hf]
    obtain rfl : p = 0 := by omega
    exact ⟨congrArg Ptr.base hp0, by rw [hl, rowBytes, if_pos hf]; rfl⟩
  | nv hf _ hp0 hp1 hl =>
    have hi420 : dst.format ≠ IMAGE_FORMAT_I420 := by rcases hf with hf | hf <;> rw [hf] <;> decide
    have hrgba : dst.format ≠ IMAGE_FORMAT_RGBA := by rcases hf with hf | hf <;> rw [hf] <;> decide
    have hplanes : dst.planes = 2 := by simp [planes, hi420, hf.symm]
    rw [hl, rowBytes, if_neg hrgba, if_neg (by simp [hi420])]
    obtain rfl | rfl : p = 0 ∨ p = 1 := by omega
    · exact ⟨congrArg Ptr.base hp0, rfl⟩
    · exact ⟨congrArg Ptr.base hp1, rfl⟩
  | i420 hf _ hp0 hp1 hp2 hl =>
    have hrgba : dst.format ≠ IMAGE_FORMAT_RGBA := by rw [hf]; decide
    rw [hl, rowBytes, if_neg hrgba]
    obtain rfl | rfl | rfl : p = 0 ∨ p = 1 ∨ p = 2 := by omega
    · exact ⟨congrArg Ptr.base hp0, by rw [if_neg (by simp)]; rfl⟩
    · exact ⟨congrArg Ptr.base hp1, by rw [if_pos ⟨hf, by simp⟩]; rfl⟩
    · exact ⟨congrArg Ptr.base hp2, by rw [if_pos ⟨hf, by simp⟩]; rfl⟩

/-- The rows of a plane end before the next plane. -/
theorem LaidOut.before (h : dst.LaidOut mem n) (hw : 0 ≤ dst.width) (hh : 0 ≤ dst.height) (hq : q.val < dst.planes) (hlt : p < q) :
    (dst.ppPlane.get p).offset + dst.rows p * dst.pLineSize.get p ≤ (dst.ppPlane.get q).offset := by
  have hcomm : dst.height * dst.width = dst.width * dst.height := Int.mul_comm _ _
  cases h with
  | rgba hf =>
    have hplanes : dst.planes = 1 := by simp [planes, hf]
    omega
  | nv hf _ hp0 hp1 hl =>
    have hi420 : dst.format ≠ IMAGE_FORMAT_I420 := by rcases hf with hf | hf <;> rw [hf] <;> decide
    have hplanes : dst.planes = 2 := by simp [planes, hi420, hf.symm]
    obtain ⟨rfl, rfl⟩ : p = 0 ∧ q = 1 := by omega
    have h0 : dst.ppPlane.get 0 = .block n := hp0
    rw [h0, hp1, hl]
    show 0 + dst.height * dst.width ≤ 0 + dst.width * dst.height
    omega
  | i420 hf _ hp0 hp1 hp2 hl =>
    have h0 : dst.ppPlane.get 0 = .block n := hp0
    have hquarter : 0 ≤ dst.width / 2 * (dst.height / 2) := Int.mul_nonneg (by omega) (by omega)
    have hswap : dst.height / 2 * (dst.width / 2) = dst.width / 2 * (dst.height / 2) := Int.mul_comm _ _
    obtain ⟨rfl, rfl⟩ | ⟨rfl, rfl⟩ | ⟨rfl, rfl⟩ : p = 0 ∧ q = 1 ∨ p = 0 ∧ q = 2 ∨ p = 1 ∧ q = 2 := by omega
    · rw [h0, hp1, hl]
      show 0 + dst.height * dst.width ≤ 0 + dst.width * dst.height
      omega
    · rw [h0, hp2, hl]
      show 0 + dst.height * dst.width ≤ 0 + (dst.width * dst.height + dst.width / 2 * (dst.height / 2))
      omega
    · rw [hp1, hp2, hl]
      show 0 + dst.width * dst.height + dst.height / 2 * (dst.width / 2) ≤
        0 + (dst.width * dst.height + dst.width / 2 * (dst.height / 2))
      omega

/-- The bytes of a plane are an `int` if those of the picture are. -/
theorem InRange.plane (h : src.InRange) (hw : 0 ≤ src.width) (hh : 0 ≤ src.height) (p : Fin 3) :
    src.height * src.rowBytes p < 0x80000000 := by
  have hpixels := h.pixels
  have hcomm : src.height * src.width = src.width * src.height := Int.mul_comm _ _
  by_cases hrgba : src.format = IMAGE_FORMAT_RGBA
  · have hbytes := h.rgba hrgba
    have hfour : src.height * (src.width * 4) = 4 * (src.width * src.height) := by ring
    rw [rowBytes, if_pos hrgba]
    omega
  · have hrow : src.rowBytes p ≤ src.width := by
      rw [rowBytes, if_neg hrgba]
      split <;> omega
    have := Int.mul_le_mul_of_nonneg_left hrow hh
    omega

/-- The size of the picture keeps the products for the destination in range, and the last rows of the source those for the source. -/
theorem productsFit_iff (hw : 1 ≤ src.width) (hh : 1 ≤ src.height) (hrange : src.InRange)
    (hdst : dst.pLineSize.get p = src.rowBytes p) :
    ProductsFit src dst p ↔ src.rows p = 0 ∨ CInt.Fits ((src.rows p - 1) * src.pLineSize.get p) := by
  have hrow0 : 0 ≤ src.rowBytes p := rowBytes_nonneg (by omega)
  have hrows0 : 0 ≤ src.rows p := rows_nonneg (by omega)
  have hheight : src.rows p ≤ src.height := by
    unfold rows
    split <;> omega
  have hplane : src.height * src.rowBytes p < 0x80000000 := hrange.plane (by omega) (by omega) p
  have hpart : ∀ i : Int, 0 ≤ i → i ≤ src.height → CInt.Fits (i * src.rowBytes p) := by
    intro i hi hle
    have hprod : i * src.rowBytes p ≤ src.height * src.rowBytes p := Int.mul_le_mul_of_nonneg_right hle hrow0
    have hprod0 : 0 ≤ i * src.rowBytes p := Int.mul_nonneg hi hrow0
    exact ⟨by omega, by omega⟩
  unfold ProductsFit
  split
  · rename_i heq
    rw [heq, hdst, Int.mul_comm (src.rowBytes p)]
    refine iff_of_true (hpart _ (by omega) le_rfl) ?_
    by_cases hnone : src.rows p = 0
    · exact Or.inl hnone
    · exact Or.inr (hpart _ (by omega) (by omega))
  · constructor
    · intro hall
      by_cases hnone : src.rows p = 0
      · exact Or.inl hnone
      · have hlast := (hall (src.rows p - 1).toNat (by omega)).2.1
        rw [Int.toNat_of_nonneg (by omega)] at hlast
        exact Or.inr hlast
    · intro hlast i hi
      have hlast := hlast.resolve_left (by omega)
      have hone := hpart 1 (by omega) hh
      rw [Int.one_mul] at hone
      refine ⟨hdst ▸ hpart i (by omega) (by omega), ?_, hone⟩
      unfold CInt.Fits at hlast ⊢
      obtain hneg | hpos := le_total (src.pLineSize.get p) 0
      · have hle : (src.rows p - 1) * src.pLineSize.get p ≤ i * src.pLineSize.get p :=
          Int.mul_le_mul_of_nonpos_right (by omega) hneg
        have hle0 : (i : Int) * src.pLineSize.get p ≤ 0 := Int.mul_nonpos_of_nonneg_of_nonpos (by omega) hneg
        omega
      · have hle : (i : Int) * src.pLineSize.get p ≤ (src.rows p - 1) * src.pLineSize.get p :=
          Int.mul_le_mul_of_nonneg_right (by omega) hpos
        have hle0 : 0 ≤ (i : Int) * src.pLineSize.get p := Int.mul_nonneg (by omega) hpos
        omega

/-! ## The image -/

/-- The planes of two images that are alike. -/
theorem Alike.planes (h : src.Alike dst) : src.planes = dst.planes := by
  unfold NativeImage.planes
  rw [h.format]

theorem Alike.rows (h : src.Alike dst) (p : Fin 3) : src.rows p = dst.rows p := by
  unfold NativeImage.rows
  rw [h.height]

theorem Alike.rowBytes (h : src.Alike dst) (p : Fin 3) : src.rowBytes p = dst.rowBytes p := by
  unfold NativeImage.rowBytes
  rw [h.format, h.width]

/-- The planes of a source that can be copied to block `n`: the rows are as long as those of the picture at least, the offsets of
the rows are `int`s, and the block is the destination's. -/
structure Copyable (src : NativeImage) (n : Nat) (p : Fin 3) : Prop where
  line : src.rowBytes p ≤ src.pLineSize.get p
  last : (src.rows p - 1) * src.pLineSize.get p < 0x80000000
  apart : (src.ppPlane.get p).base ≠ .block n

/-- A plane is not written by the copies of later ones. -/
theorem copyPlanes_copied (h : src.Alike dst) (hw : 0 ≤ src.width) (hh : 0 ≤ src.height) (hlaid : dst.LaidOut mem n)
    (hfits : ∀ p, p.val < src.planes → ProductsFit src dst p)
    (haparts : ∀ p, p.val < src.planes → (src.ppPlane.get p).base ≠ .block n) (m : Base → Int → UInt8) :
    PictureCopied src dst m (run m ((copyPlanes src dst).map Memcpy.toCopy)) := by
  have hplane : ∀ q, q.val < src.planes → (dst.ppPlane.get q).base = .block n ∧ dst.pLineSize.get q = src.rowBytes q ∧
      ProductsFit src dst q := by
    intro q hq
    obtain ⟨hbase, hline⟩ := hlaid.plane (h.planes ▸ hq)
    rw [← h.rowBytes] at hline
    exact ⟨hbase, hline, hfits q hq⟩
  have hwrites : ∀ q, ∀ c ∈ (planeCopies src dst q).map Memcpy.toCopy, q.val < src.planes ∧ c.dst = .block n ∧
      (dst.ppPlane.get q).offset ≤ c.dstOffset := by
    intro q c hc
    by_cases hq : q.val < src.planes
    · obtain ⟨hbase, hline, hfit⟩ := hplane q hq
      obtain ⟨hdst, hle⟩ := plane_writes hq hfit (by omega) (by omega) (hline ▸ rowBytes_nonneg (by omega)) hc
      exact ⟨hq, hdst.trans hbase, hle⟩
    · rw [planeCopies_of_le (by omega)] at hc
      cases hc
  intro p hp y x hy hrows hx hlt
  obtain ⟨hbase, hline, hfit⟩ := hplane p hp
  have hapart : (src.ppPlane.get p).base ≠ .block n := haparts p hp
  obtain ⟨earlier, later, hsplit⟩ := List.append_of_mem (List.mem_finRange p)
  have hsorted : (earlier ++ p :: later).Pairwise (· < ·) := hsplit ▸ List.pairwise_lt_finRange 3
  rw [copyPlanes_eq h (by omega) (by omega), List.map_flatMap, hsplit, List.flatMap_append, List.flatMap_cons, run_append,
    run_append, run_of_unwritten, plane_copied hp hfit (by omega) (by omega) (le_of_eq hline.symm) (hbase ▸ hapart) hy hrows hx
    hlt, run_of_other]
  · -- the source is not written
    intro c hc
    obtain ⟨q, -, hc⟩ := List.mem_flatMap.mp hc
    exact (hwrites q c hc).2.1 ▸ hapart.symm
  · -- a later plane begins after the rows of this one
    intro c hc hw'
    obtain ⟨q, hq, hc⟩ := List.mem_flatMap.mp hc
    have hpq : p < q := (List.pairwise_cons.mp (List.pairwise_append.mp hsorted).2.1).1 q hq
    obtain ⟨hqplanes, -, hle⟩ := hwrites q c hc
    have hend := hlaid.before (h.width ▸ by omega) (h.height ▸ by omega) (h.planes ▸ hqplanes) hpq
    have hrow := row_le (by omega : y + 1 ≤ src.rows p) (hline ▸ rowBytes_nonneg (by omega) : 0 ≤ dst.pLineSize.get p)
    rw [h.rows] at hrow
    have hfrom := hw'.2.1
    omega

/-! ## A call -/

/-- The destination when the copies begin: one without memory was allocated. -/
def target (pDstImg : NativeImage) (mem : Memory) (ok : Bool) : NativeImage :=
  if pDstImg.firstPlane = .null then (pDstImg.alloc mem ok).2 else pDstImg

theorem Alike.target (h : src.Alike dst) (mem : Memory) (ok : Bool) : src.Alike (dst.target mem ok) := by
  obtain ⟨hw, hh, hf⟩ := alloc_same dst mem ok
  unfold NativeImage.target
  split
  · exact ⟨h.format.trans hf.symm, h.width.trans hw.symm, h.height.trans hh.symm⟩
  · exact h

/-- A call with images that are alike copies the planes to the target. -/
theorem copy_target {ok : Bool} (h : src.Alike dst) (hnull : src.firstPlane ≠ .null) :
    (src.copy dst mem ok).2 = (dst.target mem ok, copyPlanes src (dst.target mem ok)) := by
  have hsame : ¬ (src.format ≠ dst.format ∨ src.width ≠ dst.width ∨ src.height ≠ dst.height) := by
    simp [h.format, h.width, h.height]
  unfold copy target
  rw [if_neg hnull, if_neg hsame]
  by_cases hd : dst.firstPlane = .null
  · rw [if_pos hd, if_pos hd]
  · rw [if_neg hd, if_neg hd]

/-- The target is laid out if the destination is, or is allocated. -/
theorem target_laidOut {ok : Bool} (hw : 1 ≤ dst.width) (hh : 1 ≤ dst.height)
    (hsmall : 4 * (dst.width * dst.height) < 0x80000000) (hsupported : dst.supported = true)
    (hdst : dst.LaidOut mem n ∨ dst.firstPlane = .null ∧ ok = true ∧ n = mem.blocks.length) :
    ∃ mem', (dst.target mem ok).LaidOut mem' n := by
  unfold target
  rcases hdst with hlaid | ⟨hnull, rfl, rfl⟩
  · rw [if_neg (VideoGLRender.laidOut_block hlaid).2]
    exact ⟨mem, hlaid⟩
  · rw [if_pos hnull]
    exact ⟨_, (alloc_ok mem hw hh (.of_small (by omega) (by omega) hsmall) hsupported).2.2⟩

/-- `CopyNativeImage` copies the picture into a destination that `AllocNativeImage` laid out, before the call or in it. -/
theorem copy_image {ok : Bool} (h : src.Alike dst) (hsupported : src.supported = true) (hw : 1 ≤ src.width) (hh : 1 ≤ src.height)
    (hsmall : 4 * (src.width * src.height) < 0x80000000) (hnull : src.firstPlane ≠ .null)
    (hdst : dst.LaidOut mem n ∨ dst.firstPlane = .null ∧ ok = true ∧ n = mem.blocks.length)
    (hsrc : ∀ p, p.val < src.planes → src.Copyable n p) (m : Base → Int → UInt8) :
    PictureCopied src (src.copy dst mem ok).2.1 m (run m ((src.copy dst mem ok).2.2.map Memcpy.toCopy)) := by
  have hdsupported : dst.supported = true := by rwa [supported, ← h.format]
  obtain ⟨mem', hlaid⟩ := target_laidOut (h.width ▸ hw) (h.height ▸ hh) (h.width ▸ h.height ▸ hsmall) hdsupported hdst
  have halike := h.target mem ok
  rw [copy_target h hnull]
  refine copyPlanes_copied halike (by omega) (by omega) hlaid (fun p hp => ?_) (fun p hp => (hsrc p hp).apart) m
  have hline := (hlaid.plane (halike.planes ▸ hp)).2
  rw [← halike.rowBytes] at hline
  have hlast := (hsrc p hp).last
  have hpos : 0 ≤ src.pLineSize.get p := (rowBytes_nonneg (by omega)).trans (hsrc p hp).line
  refine (productsFit_iff hw hh (.of_small (by omega) (by omega) hsmall) hline).mpr ?_
  by_cases hnone : src.rows p = 0
  · exact Or.inl hnone
  · have hrows : 0 ≤ src.rows p := rows_nonneg (by omega)
    have hfrom : 0 ≤ (src.rows p - 1) * src.pLineSize.get p := Int.mul_nonneg (by omega) hpos
    exact Or.inr ⟨by omega, by omega⟩

/-- An odd picture: its luma is copied row by row, and its chroma planes at once. -/
def oddPicture : NativeImage where
  width := 5
  height := 3
  format := IMAGE_FORMAT_I420
  ppPlane := #v[⟨.other 0, 0⟩, ⟨.other 1, 0⟩, ⟨.other 2, 0⟩]
  pLineSize := #v[8, 2, 2]

/-- An image of that size, without memory. -/
def oddImage : NativeImage := { NativeImage.new with width := 5, height := 3, format := IMAGE_FORMAT_I420 }

theorem copy_image_example : PictureCopied oddPicture (oddPicture.copy oddImage .new true).2.1 (fun _ offset => .ofNat offset.toNat)
    (run (fun _ offset => .ofNat offset.toNat) ((oddPicture.copy oddImage .new true).2.2.map Memcpy.toCopy)) := by
  have halike : oddPicture.Alike oddImage := ⟨rfl, rfl, rfl⟩
  have hdst : oddImage.LaidOut .new 0 ∨ oddImage.firstPlane = .null ∧ true = true ∧ 0 = Memory.new.blocks.length :=
    Or.inr ⟨rfl, rfl, rfl⟩
  have hsrc : ∀ p, p.val < oddPicture.planes → oddPicture.Copyable 0 p := by
    intro p _
    obtain rfl | rfl | rfl : p = 0 ∨ p = 1 ∨ p = 2 := by omega
    all_goals exact ⟨by decide, by decide, by decide⟩
  exact copy_image halike rfl (by decide) (by decide) (by decide) (by decide) hdst hsrc _

/-- A picture of three rows of one pixel, in rows that are a gibibyte apart: the offset of the last is out of the range of `int`. -/
def farRows : NativeImage := { VideoGLRender.pixel with height := 3, pLineSize := #v[0x40000000, 0, 0] }

/-- An image of that size, without memory. -/
def threeRows : NativeImage := { NativeImage.new with width := 1, height := 3, format := IMAGE_FORMAT_RGBA }

/-- The last row of such a picture is not copied. -/
theorem far_row_not_copied : ¬ ∀ (src dst : NativeImage) (mem : Memory) (n : Nat) (m : Base → Int → UInt8), src.Alike dst →
    src.supported = true → 1 ≤ src.width → 1 ≤ src.height → 4 * (src.width * src.height) < 0x80000000 →
    src.firstPlane ≠ .null → dst.LaidOut mem n →
    (∀ p, p.val < src.planes → src.rowBytes p ≤ src.pLineSize.get p ∧ (src.ppPlane.get p).base ≠ .block n) →
    PictureCopied src dst m (run m ((src.copy dst mem true).2.2.map Memcpy.toCopy)) := by
  intro h
  obtain ⟨-, -, hlaid⟩ := @alloc_ok threeRows .new (by decide) (by decide)
    (.of_small (by decide) (by decide) (by decide)) rfl
  have hcopied := h farRows (threeRows.alloc .new true).2 _ _ (fun _ offset => if offset = 0x80000000 then 1 else 0)
    ⟨rfl, rfl, rfl⟩ rfl (by decide) (by decide) (by decide) (by decide) hlaid (by decide) 0 (by decide) 2 0 (by decide) (by decide)
    (by decide) (by decide)
  exact absurd hcopied (by decide)

end NativeImage

end LibraLive

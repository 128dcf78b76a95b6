import LibraLive.DumpImage
import LibraLive.NativeRender
import LibraLive.Theorems.CopyImage

/-!
# Who honours the line sizes

`CopyNativeImage` takes every row from where the line size puts it. `DumpNativeImage` and `NativeRender::RenderVideoFrame`
take the rows as if they followed one another, so they agree with it on images without a gap between the rows only.
-/

namespace LibraLive

open BlockCopy

/-- The renderer has a window of the size of the picture, in memory of its own. -/
structure NativeRender.Shows (r : NativeRender) (img : NativeImage) : Prop where
  window : r.m_NativeWindow.isSome
  width : r.m_DstWidth = img.width
  height : r.m_DstHeight = img.height
  stride : r.m_DstWidth ≤ r.m_NativeWindowBuffer.stride
  apart : img.firstPlane.base ≠ r.bits.base

namespace NativeImage

/-- The places of the samples of a plane, row by row. -/
def visiblePlane (img : NativeImage) (p : Fin 3) : List (Base × Int) :=
  if p.val < img.planes then rowPlaces (img.ppPlane.get p).base (img.ppPlane.get p).offset (img.pLineSize.get p)
    (img.rows p).toNat (img.rowBytes p).toNat
  else []

/-- The places of the samples of a picture, plane by plane. -/
def visible (img : NativeImage) : List (Base × Int) := (List.finRange 3).flatMap img.visiblePlane

/-- The places of as many bytes from the first of a plane on as the plane has samples. -/
def leadingPlane (img : NativeImage) (p : Fin 3) : List (Base × Int) :=
  if p.val < img.planes then places (img.ppPlane.get p).base (img.ppPlane.get p).offset
    ((img.rows p).toNat * (img.rowBytes p).toNat)
  else []

/-- Between the rows of a plane is no gap, or no place for one. -/
def Tight (img : NativeImage) (p : Fin 3) : Prop :=
  img.rows p ≤ 1 ∨ img.rowBytes p = 0 ∨ img.pLineSize.get p = img.rowBytes p

/-- `DumpNativeImage` opens the file and writes the samples of the picture to it, in their order, and nothing else. -/
def Dumped (img : NativeImage) (pPath pFileName : String) (found : Bool) : Prop :=
  ∃ calls, dumpNativeImage (some img) (some pPath) (some pFileName) found true = some calls ∧
    ∀ m : Base × Int → UInt8, (writtenPlaces calls).map m = img.visible.map m

/-- `NativeRender::RenderVideoFrame` puts every sample of the picture into its row of the window, and writes nothing else. -/
def Drawn (img : NativeImage) (r : NativeRender) : Prop :=
  ∃ copies, r.renderVideoFrame (some img) = some copies ∧ ∀ m : Base → Int → UInt8,
    (∀ y x, 0 ≤ y → y < img.height → 0 ≤ x → x < img.width * 4 →
      run m (copies.map Memcpy.toCopy) r.bits.base (r.bits.offset + y * (r.m_NativeWindowBuffer.stride * 4) + x) =
        m img.firstPlane.base (img.firstPlane.offset + y * img.firstLineSize + x)) ∧
    ∀ b offset, (∀ y x, 0 ≤ y → y < img.height → 0 ≤ x → x < img.width * 4 →
      (b, offset) ≠ (r.bits.base, r.bits.offset + y * (r.m_NativeWindowBuffer.stride * 4) + x)) →
      run m (copies.map Memcpy.toCopy) b offset = m b offset

variable {img src dst : NativeImage} {p : Fin 3} {calls : List FileCall} {r : NativeRender} {mem : Memory} {n : Nat}

/-! ## The samples -/

theorem length_visiblePlane (img : NativeImage) (p : Fin 3) : (img.visiblePlane p).length = (img.leadingPlane p).length := by
  unfold visiblePlane leadingPlane
  split <;> simp

theorem visiblePlane_eq (hp : p.val < img.planes) (hw : 0 ≤ img.width) : img.visiblePlane p = img.leadingPlane p ↔ img.Tight p := by
  have hrow : 0 ≤ img.rowBytes p := rowBytes_nonneg hw
  unfold visiblePlane leadingPlane Tight
  rw [if_pos hp, if_pos hp, rowPlaces_eq_places]
  have hcast : ((img.rowBytes p).toNat : Int) = img.rowBytes p := Int.toNat_of_nonneg hrow
  rw [hcast]
  omega

/-- Planes of the same lengths are the same together when each one is. -/
theorem flatMap_eq_iff {A : Type} {f g : Fin 3 → List A} (hlength : ∀ p, (f p).length = (g p).length) (ps : List (Fin 3)) :
    ps.flatMap f = ps.flatMap g ↔ ∀ p ∈ ps, f p = g p := by
  induction ps with
  | nil => simp
  | cons p ps ih =>
    rw [List.flatMap_cons, List.flatMap_cons, List.forall_mem_cons, ← ih]
    exact ⟨fun h => List.append_inj h (hlength p), fun ⟨hp, hps⟩ => by rw [hp, hps]⟩

/-- The samples are the leading bytes of their planes exactly in images without gaps. -/
theorem leading_eq_visible (hw : 0 ≤ img.width) :
    (List.finRange 3).flatMap img.leadingPlane = img.visible ↔ ∀ p, p.val < img.planes → img.Tight p := by
  unfold visible
  rw [flatMap_eq_iff fun p => (length_visiblePlane img p).symm]
  constructor
  · intro h p hp
    exact (visiblePlane_eq hp hw).mp (h p (List.mem_finRange p)).symm
  · intro h p _
    by_cases hp : p.val < img.planes
    · exact ((visiblePlane_eq hp hw).mpr (h p hp)).symm
    · rw [visiblePlane, leadingPlane, if_neg hp, if_neg hp]

/-! ## The file -/

theorem size_t_of_fits {x : Int} (h0 : 0 ≤ x) (h : CInt.Fits x) : size_t x = x.toNat := by
  obtain ⟨-, hle⟩ := h
  unfold size_t
  omega

theorem writtenPlaces_fwrite (p : Ptr) (size : Nat) (calls : List FileCall) :
    writtenPlaces (.fwrite p size :: calls) = places p.base p.offset size ++ writtenPlaces calls := rfl

/-- As many bytes as the rows of a plane have. -/
theorem places_leading {size : Int} (hp : p.val < img.planes) (hw : 0 ≤ img.width) (hh : 0 ≤ img.height)
    (hsize : size = img.rows p * img.rowBytes p) (hfit : CInt.Fits size) :
    places (img.ppPlane.get p).base (img.ppPlane.get p).offset (size_t size) = img.leadingPlane p := by
  have hrows : 0 ≤ img.rows p := rows_nonneg hh
  have hrow : 0 ≤ img.rowBytes p := rowBytes_nonneg hw
  rw [leadingPlane, if_pos hp, size_t_of_fits (hsize ▸ Int.mul_nonneg hrows hrow) hfit, hsize, Int.toNat_mul hrows hrow]

theorem leadingPlane_of_le (h : img.planes ≤ p.val) : img.leadingPlane p = [] := if_neg (by omega)

/-- The planes are dumped if the largest product is an `int`, each from its first byte on. -/
theorem dumpPlanes_eq (hsupported : img.supported = true) (hw : 0 ≤ img.width) (hh : 0 ≤ img.height)
    (hfit : CInt.Fits (img.rowBytes 0 * img.height)) :
    ∃ calls, img.dumpPlanes = some calls ∧ writtenPlaces calls = (List.finRange 3).flatMap img.leadingPlane := by
  have hrange : (List.finRange 3).flatMap img.leadingPlane =
      img.leadingPlane 0 ++ (img.leadingPlane 1 ++ img.leadingPlane 2) := by
    simp [List.finRange_succ]
  have hshift : ∀ x : Int, x >>> (1 : Nat) = x / 2 := fun x => by rw [Int.shiftRight_eq_div_pow]; rfl
  have hpos : 0 ≤ img.width * img.height := Int.mul_nonneg hw hh
  obtain ⟨hhalf0, hhalf⟩ := half_mul_le hh hw
  have hcomm : img.height / 2 * img.width = img.width * (img.height / 2) := Int.mul_comm _ _
  have hcomm' : img.height * img.width = img.width * img.height := Int.mul_comm _ _
  unfold dumpPlanes
  rw [hrange, hshift, hshift]
  split_ifs with hi420 hnv hrgba
  · have hplanes : img.planes = 3 := if_pos hi420
    have hnot : img.format ≠ IMAGE_FORMAT_RGBA := by rw [hi420]; decide
    have hrow0 : img.rowBytes 0 = img.width := by simp [rowBytes, hnot]
    obtain ⟨hquarter0, hquarter⟩ := half_mul_le hw (by omega : 0 ≤ img.height / 2)
    rw [hrow0] at hfit
    have hfit' : CInt.Fits (img.width / 2 * (img.height / 2)) := hfit.of_le hquarter0 (by omega)
    rw [CInt.mul_of_fits hfit, CInt.mul_of_fits hfit']
    refine ⟨_, rfl, ?_⟩
    rw [writtenPlaces_fwrite, writtenPlaces_fwrite, writtenPlaces_fwrite,
      places_leading (by simp [hplanes]) hw hh (by rw [hrow0]; exact hcomm'.symm) hfit,
      places_leading (by simp [hplanes]) hw hh (by simp [rows, rowBytes, hi420, Int.mul_comm]) hfit',
      places_leading (by simp [hplanes]) hw hh (by simp [rows, rowBytes, hi420, Int.mul_comm]) hfit']
    simp [writtenPlaces]
  · have hplanes : img.planes = 2 := by simp [planes, hi420, hnv]
    have hnot : img.format ≠ IMAGE_FORMAT_RGBA := by rcases hnv with hf | hf <;> rw [hf] <;> decide
    have hrow : ∀ p, img.rowBytes p = img.width := fun p => by simp [rowBytes, hnot, hi420]
    rw [hrow] at hfit
    have hfit' : CInt.Fits (img.width * (img.height / 2)) := hfit.of_le (by omega) (by omega)
    rw [CInt.mul_of_fits hfit, CInt.mul_of_fits hfit']
    refine ⟨_, rfl, ?_⟩
    rw [writtenPlaces_fwrite, writtenPlaces_fwrite,
      places_leading (by simp [hplanes]) hw hh (by rw [hrow]; exact hcomm'.symm) hfit,
      places_leading (by simp [hplanes]) hw hh (by rw [hrow]; exact hcomm.symm) hfit',
      leadingPlane_of_le (p := 2) (by simp [hplanes])]
    rfl
  · have hplanes : img.planes = 1 := by simp [planes, hrgba]
    have hrow0 : img.rowBytes 0 = img.width * 4 := if_pos hrgba
    have hbytes : img.width * 4 * img.height = img.width * img.height * 4 := by ring
    rw [hrow0, hbytes] at hfit
    rw [CInt.mul_of_fits (hfit.of_le hpos (by omega))]
    simp only [Option.bind_eq_bind, Option.bind_some, CInt.mul_of_fits hfit]
    refine ⟨_, rfl, ?_⟩
    rw [writtenPlaces_fwrite, places_leading (by simp [hplanes]) hw hh (by rw [hrow0]; show _ = img.height * _; ring) hfit,
      leadingPlane_of_le (p := 1) (by simp [hplanes]), leadingPlane_of_le (p := 2) (by simp [hplanes])]
    rfl
  · simp only [supported, List.mem_cons, List.not_mem_nil, or_false, decide_eq_true_eq] at hsupported
    tauto

theorem dumpPlanes_none (hsupported : img.supported = true)
    (hfit : ¬ CInt.Fits (img.rowBytes 0 * img.height)) : img.dumpPlanes = none := by
  unfold dumpPlanes
  split_ifs with hi420 hnv hrgba
  · have hrow0 : img.rowBytes 0 = img.width := by simp [rowBytes, hi420]
    rw [hrow0] at hfit
    rw [CInt.mul_of_not_fits hfit]
    rfl
  · have hrow0 : img.rowBytes 0 = img.width := by
      rcases hnv with hf | hf <;> simp [rowBytes, hf]
    rw [hrow0] at hfit
    rw [CInt.mul_of_not_fits hfit]
    rfl
  · have hrow0 : img.rowBytes 0 = img.width * 4 := if_pos hrgba
    have hbytes : img.width * 4 * img.height = img.width * img.height * 4 := by ring
    rw [hrow0, hbytes] at hfit
    by_cases hpixels : CInt.Fits (img.width * img.height)
    · rw [CInt.mul_of_fits hpixels]
      simp only [Option.bind_eq_bind, Option.bind_some, CInt.mul_of_not_fits hfit, Option.bind_none]
    · rw [CInt.mul_of_not_fits hpixels]
      rfl
  · simp only [supported, List.mem_cons, List.not_mem_nil, or_false, decide_eq_true_eq] at hsupported
    tauto

/-- The file has the samples exactly if its path fits, the number of bytes is an `int`, and there are no gaps. -/
theorem dumped_iff {pPath pFileName : String} {found : Bool} (hsupported : img.supported = true) (hw : 0 ≤ img.width)
    (hh : 0 ≤ img.height) : img.Dumped pPath pFileName found ↔ (img.imgPath pPath pFileName).utf8ByteSize < 256 ∧
      CInt.Fits (img.rowBytes 0 * img.height) ∧ ∀ p, p.val < img.planes → img.Tight p := by
  unfold Dumped dumpNativeImage
  dsimp only
  by_cases hpath : 256 ≤ (img.imgPath pPath pFileName).utf8ByteSize
  · rw [if_pos hpath]
    simp only [reduceCtorEq, false_and, exists_false, false_iff]
    omega
  rw [if_neg hpath, ← leading_eq_visible hw]
  by_cases hfit : CInt.Fits (img.rowBytes 0 * img.height)
  · obtain ⟨writes, hwrites, hplaces⟩ := dumpPlanes_eq hsupported hw hh hfit
    have hwritten : writtenPlaces ((if found = true then [] else [.mkdir pPath 0o666]) ++
        .fopen (img.imgPath pPath pFileName) "wb" :: (writes ++ [.fclose])) = (List.finRange 3).flatMap img.leadingPlane := by
      rw [← hplaces]
      cases found <;> simp [writtenPlaces]
    simp only [if_true, hwrites, Option.map_some, Option.bind_eq_bind, Option.bind_some, Option.pure_def, Option.some.injEq,
      exists_eq_left', hwritten, map_eq_map_iff]
    exact ⟨fun h => ⟨by omega, hfit, h⟩, fun h => h.2.2⟩
  · simp only [if_true, dumpPlanes_none hsupported hfit, Option.map_none, Option.bind_eq_bind, Option.bind_none, reduceCtorEq,
      false_and, exists_false, false_iff]
    exact fun h => hfit h.2.1

/-! ## The window -/

/-- What a call copies that has no overflow. -/
theorem renderVideoFrame_eq_some {copies : List Memcpy} (hr : r.Shows img) : r.renderVideoFrame (some img) = some copies ↔
    CInt.Fits (img.width * 4) ∧ CInt.Fits (r.m_NativeWindowBuffer.stride * 4) ∧
    (∀ i ∈ List.range img.height.toNat, CInt.Fits (i * (r.m_NativeWindowBuffer.stride * 4)) ∧ CInt.Fits (i * (img.width * 4))) ∧
    copies = (List.range img.height.toNat).map fun (i : Nat) =>
      { dst := r.bits.add (i * (r.m_NativeWindowBuffer.stride * 4))
        src := img.firstPlane.add (i * (img.width * 4))
        length := img.width * 4 } := by
  obtain ⟨window, hwindow⟩ := Option.isSome_iff_exists.mp hr.window
  unfold NativeRender.renderVideoFrame
  rw [hwindow, hr.height]
  by_cases hsrc : CInt.Fits (img.width * 4)
  case neg => simp [CInt.mul_of_not_fits hsrc, hsrc]
  by_cases hdst : CInt.Fits (r.m_NativeWindowBuffer.stride * 4)
  case neg => simp [CInt.mul_of_fits hsrc, CInt.mul_of_not_fits hdst, hdst]
  simp only [CInt.mul_of_fits hsrc, CInt.mul_of_fits hdst, Option.bind_eq_bind, Option.bind_some, hsrc, hdst, true_and]
  refine CInt.mapM_eq_some fun i => ?_
  by_cases hi : CInt.Fits (i * (r.m_NativeWindowBuffer.stride * 4))
  · by_cases hi' : CInt.Fits (i * (img.width * 4))
    · simp [CInt.mul_of_fits hi, CInt.mul_of_fits hi', hi, hi']
    · simp [CInt.mul_of_fits hi, CInt.mul_of_not_fits hi', hi']
  · simp [CInt.mul_of_not_fits hi, hi]

/-- The rows as copies of bytes: those of the picture are read as if they followed one another. -/
theorem drawn_rows (hw : 0 ≤ img.width) (hfit : CInt.Fits (img.width * 4)) :
    ((List.range img.height.toNat).map fun (i : Nat) => Memcpy.mk (r.bits.add (i * (r.m_NativeWindowBuffer.stride * 4)))
      (img.firstPlane.add (i * (img.width * 4))) (img.width * 4)).map Memcpy.toCopy =
      BlockCopy.rows r.bits.base r.bits.offset (r.m_NativeWindowBuffer.stride * 4) img.firstPlane.base img.firstPlane.offset
        (img.width * 4) (img.width * 4) img.height.toNat := by
  have hsize : img.width * 4 % 0x10000000000000000 = img.width * 4 := by
    obtain ⟨-, hle⟩ := hfit
    omega
  unfold BlockCopy.rows
  rw [List.map_map]
  refine List.map_congr_left fun i _ => ?_
  simp only [Function.comp_apply, Memcpy.toCopy, Ptr.add, hsize]

/-- The offsets of the rows are `int`s if that of the last row is, of shorter rows too. -/
theorem fits_of_last {pitch row : Int} {rows i : Nat} (hrow : 0 ≤ row) (hle : row ≤ pitch)
    (hlast : (rows : Int) ≤ 1 ∨ CInt.Fits ((rows - 1) * pitch)) (hi : i < rows) :
    CInt.Fits (i * pitch) ∧ CInt.Fits (i * row) := by
  have hpos : 0 ≤ (i : Int) * row := Int.mul_nonneg (by omega) hrow
  have hmono : (i : Int) * row ≤ i * pitch := Int.mul_le_mul_of_nonneg_left hle (by omega)
  have hfits : CInt.Fits (i * pitch) := by
    rcases hlast with hone | hlast
    · obtain rfl : i = 0 := by omega
      rw [Nat.cast_zero, Int.zero_mul]
      decide
    · exact hlast.of_le (by omega) (Int.mul_le_mul_of_nonneg_right (by omega) (by omega))
  exact ⟨hfits, hfits.of_le hpos hmono⟩

/-- If the second row of the window has that of the image in every memory, it is where the first one ends. -/
theorem line_of_second (hw : 0 < img.width) (hh : 1 < img.height) (hr : r.Shows img)
    (hsecond : ∀ m : Base → Int → UInt8, run m (BlockCopy.rows r.bits.base r.bits.offset (r.m_NativeWindowBuffer.stride * 4)
      img.firstPlane.base img.firstPlane.offset (img.width * 4) (img.width * 4) img.height.toNat) r.bits.base
        (r.bits.offset + 1 * (r.m_NativeWindowBuffer.stride * 4) + 0) =
      m img.firstPlane.base (img.firstPlane.offset + 1 * img.firstLineSize + 0)) : img.firstLineSize = img.width * 4 := by
  have hstride : img.width ≤ r.m_NativeWindowBuffer.stride := hr.width ▸ hr.stride
  by_contra hgap
  -- a memory with a single one, where the second row of the image begins
  have hbyte := hsecond fun _ offset => if offset = img.firstPlane.offset + img.firstLineSize then 1 else 0
  have hread : run (fun _ offset => if offset = img.firstPlane.offset + img.firstLineSize then (1 : UInt8) else 0)
      (BlockCopy.rows r.bits.base r.bits.offset (r.m_NativeWindowBuffer.stride * 4) img.firstPlane.base img.firstPlane.offset
        (img.width * 4) (img.width * 4) img.height.toNat) r.bits.base
      (r.bits.offset + ((1 : Nat) : Int) * (r.m_NativeWindowBuffer.stride * 4) + 0) =
      if img.firstPlane.offset + ((1 : Nat) : Int) * (img.width * 4) + 0 = img.firstPlane.offset + img.firstLineSize then 1
      else 0 :=
    run_rows (by omega) le_rfl (by omega) (by omega) hr.apart
  rw [Nat.cast_one] at hread
  rw [hread, if_neg (by omega), if_pos (by omega)] at hbyte
  exact absurd hbyte (by decide)

/-- The window has the samples exactly if the offsets are `int`s and there are no gaps. -/
theorem drawn_iff (hrgba : img.format = IMAGE_FORMAT_RGBA) (hw : 0 ≤ img.width) (hh : 0 ≤ img.height) (hr : r.Shows img) :
    img.Drawn r ↔ CInt.Fits (r.m_NativeWindowBuffer.stride * 4) ∧
      (img.height ≤ 1 ∨ CInt.Fits ((img.height - 1) * (r.m_NativeWindowBuffer.stride * 4))) ∧ img.Tight 0 := by
  have hrows : img.rows 0 = img.height := rfl
  have hline : img.pLineSize.get 0 = img.firstLineSize := rfl
  have hrow : img.rowBytes 0 = img.width * 4 := if_pos hrgba
  have hstride : img.width ≤ r.m_NativeWindowBuffer.stride := hr.width ▸ hr.stride
  have hcast : (img.height.toNat : Int) = img.height := Int.toNat_of_nonneg hh
  unfold Drawn Tight
  simp only [renderVideoFrame_eq_some hr, hrows, hrow, hline]
  constructor
  · rintro ⟨copies, ⟨hfit, hfits, hall, rfl⟩, hcopied⟩
    refine ⟨hfits, ?_, ?_⟩
    · by_cases hone : img.height ≤ 1
      · exact Or.inl hone
      · have hlast := (hall (img.height.toNat - 1) (List.mem_range.mpr (by omega))).1
        have hcast : ((img.height.toNat - 1 : Nat) : Int) = img.height - 1 := by omega
        exact Or.inr (hcast ▸ hlast)
    · by_cases hone : img.height ≤ 1
      · exact Or.inl hone
      by_cases hempty : img.width * 4 = 0
      · exact Or.inr (Or.inl hempty)
      have hsecond := fun m => (hcopied m).1 1 0 (by omega) (by omega) le_rfl (by omega)
      rw [drawn_rows hw hfit] at hsecond
      exact Or.inr (Or.inr (line_of_second (by omega) (by omega) hr hsecond))
  · rintro ⟨hfits, hlast, htight⟩
    have hfit : CInt.Fits (img.width * 4) := hfits.of_le (by omega) (by omega)
    rw [← hcast] at hlast
    refine ⟨_, ⟨hfit, hfits, fun i hi => fits_of_last (by omega) (by omega) hlast (List.mem_range.mp hi), rfl⟩, fun m => ?_⟩
    rw [drawn_rows hw hfit]
    constructor
    · intro y x hy hyh hx hxw
      obtain ⟨i, rfl⟩ := Int.eq_ofNat_of_zero_le hy
      have hsame : (i : Int) * img.firstLineSize = i * (img.width * 4) := by
        rcases htight with hone | hempty | hline
        · obtain rfl : i = 0 := by omega
          simp
        · omega
        · rw [hline]
      rw [hsame]
      exact run_rows (by omega) hx hxw (by omega) hr.apart
    · intro b offset hother
      refine run_of_unwritten fun c hc hwrites => ?_
      obtain ⟨i, hi, rfl⟩ := mem_rows.mp hc
      obtain ⟨rfl, hle, hlt⟩ := hwrites
      dsimp only at hle hlt
      refine hother i (offset - (r.bits.offset + i * (r.m_NativeWindowBuffer.stride * 4))) (by omega) (by omega) (by omega)
        (by omega) ?_
      congr 1
      omega

/-- An image is dumped and drawn with its line sizes exactly if nothing overflows and no plane has gaps between its rows. -/
theorem line_sizes (img : NativeImage) (pPath pFileName : String) (found : Bool) (r : NativeRender)
    (hsupported : img.supported = true) (hw : 0 ≤ img.width) (hh : 0 ≤ img.height)
    (hr : img.format = IMAGE_FORMAT_RGBA → r.Shows img) :
    (img.Dumped pPath pFileName found ∧ (img.format = IMAGE_FORMAT_RGBA → img.Drawn r)) ↔
      (img.imgPath pPath pFileName).utf8ByteSize < 256 ∧ CInt.Fits (img.rowBytes 0 * img.height) ∧
      (img.format = IMAGE_FORMAT_RGBA → CInt.Fits (r.m_NativeWindowBuffer.stride * 4) ∧
        (img.height ≤ 1 ∨ CInt.Fits ((img.height - 1) * (r.m_NativeWindowBuffer.stride * 4)))) ∧
      ∀ p, p.val < img.planes → img.Tight p := by
  rw [dumped_iff hsupported hw hh]
  constructor
  · rintro ⟨⟨hpath, hfit, htight⟩, hdrawn⟩
    refine ⟨hpath, hfit, fun hrgba => ?_, htight⟩
    obtain ⟨hstride, hlast, -⟩ := (drawn_iff hrgba hw hh (hr hrgba)).mp (hdrawn hrgba)
    exact ⟨hstride, hlast⟩
  · rintro ⟨hpath, hfit, hwindow, htight⟩
    refine ⟨⟨hpath, hfit, htight⟩, fun hrgba => (drawn_iff hrgba hw hh (hr hrgba)).mpr ?_⟩
    obtain ⟨hstride, hlast⟩ := hwindow hrgba
    exact ⟨hstride, hlast, htight 0 (by simp [planes, hrgba])⟩

/-- A picture of two rows of one pixel, with the line size given. -/
def twoRows (line : Int) : NativeImage := { VideoGLRender.pixel with height := 2, pLineSize := #v[line, 0, 0] }

/-- A renderer whose window is as large. -/
def twoRowsWindow : NativeRender where
  m_NativeWindow := some ⟨1, 2⟩
  m_NativeWindowBuffer := ⟨1, 2, 1⟩
  bits := ⟨.other 1, 0⟩
  m_DstWidth := 1
  m_DstHeight := 2

theorem shows_twoRows (line : Int) : twoRowsWindow.Shows (twoRows line) :=
  ⟨rfl, rfl, rfl, le_rfl, by show Base.other 0 ≠ Base.other 1; decide⟩

theorem line_sizes_example : (twoRows 4).Dumped "dump" "frame" true ∧
    ((twoRows 4).format = IMAGE_FORMAT_RGBA → (twoRows 4).Drawn twoRowsWindow) := by
  have htight : ∀ p, p.val < (twoRows 4).planes → (twoRows 4).Tight p := by
    intro p hp
    have hplanes : (twoRows 4).planes = 1 := rfl
    obtain rfl : p = 0 := by omega
    exact Or.inr (Or.inr rfl)
  exact (line_sizes (twoRows 4) "dump" "frame" true twoRowsWindow rfl (by decide) (by decide) fun _ => shows_twoRows 4).mpr
    ⟨by decide, by decide, fun _ => ⟨by decide, Or.inr (by decide)⟩, htight⟩

/-- With four bytes between the rows, the second row is written from the wrong place. -/
theorem padded_not_dumped : ¬ ∀ (img : NativeImage) (pPath pFileName : String) (found : Bool) (r : NativeRender),
    img.supported = true → 0 ≤ img.width → 0 ≤ img.height → (∀ p, p.val < img.planes → img.rowBytes p ≤ img.pLineSize.get p) →
    (img.format = IMAGE_FORMAT_RGBA → r.Shows img) →
    img.Dumped pPath pFileName found ∧ (img.format = IMAGE_FORMAT_RGBA → img.Drawn r) := by
  intro h
  have hline : ∀ p, p.val < (twoRows 8).planes → (twoRows 8).rowBytes p ≤ (twoRows 8).pLineSize.get p := by
    intro p hp
    have hplanes : (twoRows 8).planes = 1 := rfl
    obtain rfl : p = 0 := by omega
    decide
  obtain ⟨hdumped, -⟩ := h (twoRows 8) "dump" "frame" true twoRowsWindow rfl (by decide) (by decide) hline
    fun _ => shows_twoRows 8
  have htight := ((dumped_iff rfl (by decide) (by decide)).mp hdumped).2.2 0 (by decide)
  rcases htight with hrows | hempty | hgap
  · exact absurd hrows (by decide)
  · exact absurd hempty (by decide)
  · exact absurd hgap (by decide)

end NativeImage

end LibraLive

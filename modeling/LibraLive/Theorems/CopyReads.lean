import LibraLive.Theorems.CopyImage

/-!
# What is read of the source

Row by row a plane is read as far as its rows go. At once it is read as far as half of all rows of the picture go, which is half a
row more for a chroma plane of an odd picture.
-/

namespace LibraLive

namespace NativeImage

open BlockCopy

/-- The copy of a plane is computed without overflow and reads only the rows of the plane. -/
def ReadsRows (src dst : NativeImage) (p : Fin 3) : Prop :=
  ProductsFit src dst p ∧ ∀ c ∈ (planeCopies src dst p).map Memcpy.toCopy, ∀ base offset, c.Reads base offset →
    base = (src.ppPlane.get p).base ∧ (src.ppPlane.get p).offset ≤ offset ∧
      offset < (src.ppPlane.get p).offset + src.rows p * src.pLineSize.get p

/-- What `CopyNativeImage` copies is what it copies of the planes, and reads only the rows of each. -/
def ReadsOnlyRows (src dst : NativeImage) (mem : Memory) (ok : Bool) : Prop :=
  (src.copy dst mem ok).2.2 = (List.finRange 3).flatMap (planeCopies src (dst.target mem ok)) ∧
    ∀ p, p.val < src.planes → ReadsRows src (dst.target mem ok) p

/-- The rows that are copied are those of the plane: at once if half of the rows of the picture are whole rows, or a row has one
byte at most; one by one if they are not longer than a line. The offsets are `int`s. -/
def RowsMatch (src dst : NativeImage) (p : Fin 3) : Prop :=
  (src.pLineSize.get p = dst.pLineSize.get p → CInt.Fits (src.pLineSize.get p * src.height) ∧
    (p.val = 0 ∨ src.height % 2 = 0 ∨ src.pLineSize.get p ≤ 1)) ∧
  (src.pLineSize.get p ≠ dst.pLineSize.get p → src.rows p = 0 ∨ src.rowBytes p ≤ src.pLineSize.get p ∧
    CInt.Fits ((src.rows p - 1) * dst.pLineSize.get p) ∧ CInt.Fits ((src.rows p - 1) * src.pLineSize.get p))

instance (src dst : NativeImage) (p : Fin 3) : Decidable (RowsMatch src dst p) :=
  inferInstanceAs (Decidable ((_ = _ → _) ∧ (_ ≠ _ → _)))

variable {src dst : NativeImage} {p : Fin 3} {mem : Memory}

/-- The copies of a call are those of the planes. -/
theorem copy_copies {ok : Bool} (h : src.Alike dst) (hw : 0 ≤ src.width) (hh : 0 ≤ src.height) (hnull : src.firstPlane ≠ .null) :
    (src.copy dst mem ok).2.2 = (List.finRange 3).flatMap (planeCopies src (dst.target mem ok)) := by
  rw [copy_target h hnull]
  exact copyPlanes_eq (h.target mem ok) hw hh

/-! ## At once -/

/-- What is copied at once is in the rows of the plane. -/
theorem wholeBytes_le (hline : 0 ≤ src.pLineSize.get p) :
    src.wholeBytes p ≤ src.rows p * src.pLineSize.get p ↔ p.val = 0 ∨ src.height % 2 = 0 ∨ src.pLineSize.get p ≤ 1 := by
  have hcomm : src.pLineSize.get p * src.height = src.height * src.pLineSize.get p := Int.mul_comm _ _
  unfold wholeBytes rows
  split
  · rename_i hp
    simp [hp, hcomm]
  · have hparts : src.height * src.pLineSize.get p =
        2 * (src.height / 2 * src.pLineSize.get p) + src.height % 2 * src.pLineSize.get p := by
      rw [← Int.mul_assoc, ← Int.add_mul, Int.mul_ediv_add_emod]
    rcases Int.emod_two_eq src.height with hmod | hmod <;> rw [hmod] at hparts ⊢ <;> omega

theorem whole_reads_iff (hp : p.val < src.planes) (heq : src.pLineSize.get p = dst.pLineSize.get p) (hh : 0 ≤ src.height)
    (hline : 0 ≤ src.pLineSize.get p) : ReadsRows src dst p ↔
      CInt.Fits (src.pLineSize.get p * src.height) ∧ (p.val = 0 ∨ src.height % 2 = 0 ∨ src.pLineSize.get p ≤ 1) := by
  have hfits : ProductsFit src dst p ↔ CInt.Fits (src.pLineSize.get p * src.height) := by rw [ProductsFit, if_pos heq]
  rw [← wholeBytes_le hline, ReadsRows, hfits]
  refine and_congr_right fun hfit => ?_
  have hrows : 0 ≤ src.rows p * src.pLineSize.get p := Int.mul_nonneg (rows_nonneg hh) hline
  rw [planeCopies_whole hp heq (hfits.mpr hfit) hh hline]
  constructor
  · intro hreads
    by_contra hlong
    -- the last byte is not in the plane
    obtain ⟨-, -, hlast⟩ := hreads _ List.mem_cons_self (src.ppPlane.get p).base
      ((src.ppPlane.get p).offset + src.wholeBytes p - 1) ⟨rfl, by dsimp only; omega, by dsimp only; omega⟩
    omega
  · intro hle c hc base offset hr
    obtain rfl := List.mem_singleton.mp hc
    obtain ⟨rfl, hfrom, hto⟩ := hr
    dsimp only at hfrom hto ⊢
    exact ⟨rfl, hfrom, by omega⟩

/-! ## Row by row -/

/-- The offsets of all rows are in range when that of the last is. -/
theorem rows_fit {rows line : Int} (hrows : 1 ≤ rows) :
    (∀ i : Nat, (i : Int) < rows → CInt.Fits (i * line)) ↔ CInt.Fits ((rows - 1) * line) := by
  constructor
  · intro h
    have hlast := h (rows - 1).toNat (by omega)
    rwa [Int.toNat_of_nonneg (by omega)] at hlast
  · intro h i hi
    unfold CInt.Fits at h ⊢
    rcases Int.le_total 0 line with hline | hline
    · have hle : (i : Int) * line ≤ (rows - 1) * line := Int.mul_le_mul_of_nonneg_right (by omega) hline
      have hfirst : 0 ≤ (i : Int) * line := Int.mul_nonneg (by omega) hline
      omega
    · have hle : (rows - 1) * line ≤ (i : Int) * line := Int.mul_le_mul_of_nonpos_right (by omega) hline
      have hfirst : (i : Int) * line ≤ 0 := Int.mul_nonpos_of_nonneg_of_nonpos (by omega) hline
      omega

theorem rows_reads_iff (hp : p.val < src.planes) (hne : src.pLineSize.get p ≠ dst.pLineSize.get p) (hw : 0 ≤ src.width)
    (hh : 0 ≤ src.height) (hline : 0 ≤ src.pLineSize.get p) (hint : CInt.Fits (src.pLineSize.get p)) :
    ReadsRows src dst p ↔ src.rows p = 0 ∨ src.rowBytes p ≤ src.pLineSize.get p ∧
      CInt.Fits ((src.rows p - 1) * dst.pLineSize.get p) ∧ CInt.Fits ((src.rows p - 1) * src.pLineSize.get p) := by
  have hrows := rows_nonneg (p := p) hh
  have hrow := rowBytes_nonneg (p := p) hw
  constructor
  · rintro ⟨hfit, hreads⟩
    obtain hzero | hpos := hrows.eq_or_lt
    · exact Or.inl hzero.symm
    rw [planeCopies_rows hp hne hfit hw] at hreads
    rw [ProductsFit, if_neg hne] at hfit
    refine Or.inr ⟨?_, (rows_fit hpos).mp fun i hi => (hfit i hi).1, (rows_fit hpos).mp fun i hi => (hfit i hi).2.1⟩
    by_contra hlong
    -- the last byte of the last row is not in the plane
    have hlast : (src.rows p).toNat - 1 < (src.rows p).toNat := by omega
    have hcast : (((src.rows p).toNat - 1 : Nat) : Int) = src.rows p - 1 := by omega
    obtain ⟨-, -, hend⟩ := hreads _ (mem_rows.mpr ⟨_, hlast, rfl⟩) (src.ppPlane.get p).base
      ((src.ppPlane.get p).offset + (src.rows p - 1) * src.pLineSize.get p + src.rowBytes p - 1)
      ⟨rfl, by dsimp only; rw [hcast]; omega, by dsimp only; rw [hcast]; omega⟩
    rw [Int.sub_mul, Int.one_mul] at hend
    omega
  · intro hcond
    have hall : ∀ i : Nat, (i : Int) < src.rows p → CInt.Fits (i * dst.pLineSize.get p) ∧
        CInt.Fits (i * src.pLineSize.get p) ∧ src.rowBytes p ≤ src.pLineSize.get p := by
      intro i hi
      obtain ⟨hle, hdst, hsrc⟩ := hcond.resolve_left (by omega)
      exact ⟨(rows_fit (by omega)).mpr hdst i hi, (rows_fit (by omega)).mpr hsrc i hi, hle⟩
    have hfit : ProductsFit src dst p := by
      rw [ProductsFit, if_neg hne]
      intro i hi
      obtain ⟨hdst, hsrc, hle⟩ := hall i hi
      exact ⟨hdst, hsrc, by unfold CInt.Fits at hint ⊢; omega⟩
    refine ⟨hfit, ?_⟩
    rw [planeCopies_rows hp hne hfit hw]
    intro c hc base offset hr
    obtain ⟨i, hi, rfl⟩ := mem_rows.mp hc
    obtain ⟨rfl, hfrom, hto⟩ := hr
    obtain ⟨-, -, hle⟩ := hall i (by omega)
    have hend := row_le (by omega : (i : Int) + 1 ≤ src.rows p) hline
    have hfirst : 0 ≤ (i : Int) * src.pLineSize.get p := Int.mul_nonneg (by omega) hline
    dsimp only at hfrom hto ⊢
    exact ⟨rfl, by omega, by omega⟩

/-! ## Every plane -/

/-- `CopyNativeImage` reads only the rows of the planes exactly when the rows that it copies of each plane are the plane's. -/
theorem reads_only_rows_iff {ok : Bool} (h : src.Alike dst) (hw : 1 ≤ src.width) (hh : 1 ≤ src.height)
    (hnull : src.firstPlane ≠ .null) (hline : ∀ p, 0 ≤ src.pLineSize.get p) (hint : ∀ p, CInt.Fits (src.pLineSize.get p)) :
    ReadsOnlyRows src dst mem ok ↔ ∀ p, p.val < src.planes → RowsMatch src (dst.target mem ok) p := by
  unfold ReadsOnlyRows
  rw [and_iff_right (copy_copies h (by omega) (by omega) hnull)]
  refine forall_congr' fun p => forall_congr' fun hp => ?_
  by_cases heq : src.pLineSize.get p = (dst.target mem ok).pLineSize.get p
  · rw [whole_reads_iff hp heq (by omega) (hline p)]
    exact ⟨fun hwhole => ⟨fun _ => hwhole, fun hne => absurd heq hne⟩, fun hmatch => hmatch.1 heq⟩
  · rw [rows_reads_iff hp heq (by omega) (by omega) (hline p) (hint p)]
    exact ⟨fun hrows => ⟨fun hne => absurd hne heq, fun _ => hrows⟩, fun hmatch => hmatch.2 heq⟩

/-- A picture of four rows: its luma is copied row by row, and its chroma planes at once. -/
def evenPicture : NativeImage := { oddPicture with height := 4 }

/-- An image of that size, without memory. -/
def evenImage : NativeImage := { oddImage with height := 4 }

theorem reads_only_rows_example : ReadsOnlyRows evenPicture evenImage .new true := by
  have hplanes : ∀ p : Fin 3, p = 0 ∨ p = 1 ∨ p = 2 := by omega
  have halike : evenPicture.Alike evenImage := ⟨rfl, rfl, rfl⟩
  have hline : ∀ p, 0 ≤ evenPicture.pLineSize.get p := by decide
  have hint : ∀ p, CInt.Fits (evenPicture.pLineSize.get p) := by decide
  refine (reads_only_rows_iff halike (by decide) (by decide) (by decide) hline hint).mpr fun p _ => ?_
  obtain rfl | rfl | rfl := hplanes p
  all_goals decide

/-- Of a picture of three rows half a row more is read of the first chroma plane than it has. -/
theorem odd_picture_overrun : ¬ ∀ (src dst : NativeImage) (mem : Memory) (ok : Bool), src.Alike dst → src.supported = true →
    1 ≤ src.width → 1 ≤ src.height → src.firstPlane ≠ .null → (∀ p, 0 ≤ src.pLineSize.get p) →
    (∀ p, CInt.Fits (src.pLineSize.get p)) → ReadsOnlyRows src dst mem ok := by
  intro h
  obtain ⟨-, hreads⟩ := h oddPicture oddImage .new true ⟨rfl, rfl, rfl⟩ rfl (by decide) (by decide) (by decide) (by decide)
    (by decide)
  have hlast := (hreads 1 (by decide)).2 ⟨.block 0, 15, .other 1, 0, 3⟩ (by decide) (.other 1) 2 (by decide)
  exact absurd hlast.2.2 (by decide)

end NativeImage

end LibraLive

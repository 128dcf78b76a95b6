import Mathlib.Data.List.Induction
import LibraLive.VideoGLRender

/-!
# The render image is one block, and copies stay in it

`AllocNativeImage`, `FreeNativeImage` and `CopyNativeImage` agree on the sizes, for odd pictures as well, and on who frees
what. What nobody looks at is whether the second `malloc` for an image found memory.
-/

namespace LibraLive

/-- The image lies in a block as `AllocNativeImage` puts it there. -/
inductive NativeImage.LaidOut (img : NativeImage) (mem : Memory) (n : Nat) : Prop where
  | rgba : img.format = IMAGE_FORMAT_RGBA → mem.blocks[n]? = some (img.width * img.height * 4) →
      img.firstPlane = .block n → img.pLineSize = #v[img.width * 4, 0, 0] → LaidOut img mem n
  | nv : img.format = IMAGE_FORMAT_NV12 ∨ img.format = IMAGE_FORMAT_NV21 →
      mem.blocks[n]? = some (3 * (img.width * img.height) / 2) → img.firstPlane = .block n →
      img.ppPlane.get 1 = (Ptr.block n).add (img.width * img.height) → img.pLineSize = #v[img.width, img.width, 0] →
      LaidOut img mem n
  | i420 : img.format = IMAGE_FORMAT_I420 → mem.blocks[n]? = some (3 * (img.width * img.height) / 2) →
      img.firstPlane = .block n → img.ppPlane.get 1 = (Ptr.block n).add (img.width * img.height) →
      img.ppPlane.get 2 = (Ptr.block n).add (img.width * img.height + img.width / 2 * (img.height / 2)) →
      img.pLineSize = #v[img.width, img.width / 2, img.width / 2] → LaidOut img mem n

/-- The image has one of the four formats. -/
def NativeImage.supported (img : NativeImage) : Bool :=
  img.format ∈ [IMAGE_FORMAT_RGBA, IMAGE_FORMAT_NV21, IMAGE_FORMAT_NV12, IMAGE_FORMAT_I420]

/-- The products that `AllocNativeImage` computes for an image are `int`s. -/
structure NativeImage.InRange (img : NativeImage) : Prop where
  pixels : img.width * img.height < 0x80000000
  rgba : img.format = IMAGE_FORMAT_RGBA → 4 * (img.width * img.height) < 0x80000000

/-- The destination lies in a block that is not freed. -/
def Memcpy.InBounds (m : Memcpy) (mem : Memory) : Prop :=
  ∃ n size, m.dst.base = .block n ∧ n ∈ mem.live ∧ mem.blocks[n]? = some size ∧ 0 ≤ m.dst.offset ∧ 0 ≤ m.length ∧
    m.dst.offset + m.length ≤ size

/-- Only blocks were freed, each at most once. -/
structure Memory.Sound (mem : Memory) : Prop where
  once : mem.freed.Nodup
  blocks : ∀ p ∈ mem.freed, ∃ n < mem.blocks.length, p = .block n

/-- `m_RenderImage` has no memory, or it lies in the one block that is not freed. -/
structure VideoGLRender.Consistent (r : VideoGLRender) : Prop where
  memory : r.memory.Sound
  image : r.m_RenderImage.firstPlane = .null ∧ r.memory.live = [] ∨
    ∃ n, r.memory.live = [n] ∧ r.m_RenderImage.LaidOut r.memory n

/-- An image that may be passed: of one pixel at least, and so that its size in bytes is an `int`. -/
def RenderCall.Valid (c : RenderCall) : Prop :=
  ∀ img, c.pImage = some img → 1 ≤ img.width ∧ 1 ≤ img.height ∧ 4 * (img.width * img.height) < 0x80000000

namespace VideoGLRender

/-- After every call the render image is in order and the call copied into it only; after the destructor everything is freed,
once. -/
structure RunSound (calls : List RenderCall) : Prop where
  call : ∀ before c after, calls = before ++ c :: after → (run (before ++ [c])).Consistent ∧
    ∀ m ∈ ((run before).renderVideoFrame c).2, m.InBounds (run (before ++ [c])).memory
  destroyed : (run calls).destroy.memory.live = [] ∧ (run calls).destroy.memory.Sound

/-- A picture in one of the four formats is passed for which the render image has no memory, since `malloc` failed when the
image was made for the size, in this call or an earlier one, and the `malloc` of `CopyNativeImage` fails too. -/
def unallocated (r : VideoGLRender) (c : RenderCall) : Bool :=
  c.pImage.any fun img => img.firstPlane ≠ .null && img.supported && !c.again &&
    if img.width ≠ r.m_RenderImage.width ∨ img.height ≠ r.m_RenderImage.height then !c.ok
    else img.format = r.m_RenderImage.format && r.m_RenderImage.firstPlane = .null

end VideoGLRender

/-! ## `int` and halves -/

/-- A value in range is itself. -/
theorem int_eq {x : Int} (h0 : 0 ≤ x) (h : x < 0x80000000) : int x = x := by
  rw [int, Int.bmod_def]
  omega

/-- Rows of `l` bytes end before the rows do. -/
theorem row_le {i rows l : Int} (hi : i + 1 ≤ rows) (hl : 0 ≤ l) : i * l + l ≤ rows * l := by
  have h := Int.mul_le_mul_of_nonneg_right hi hl
  rw [Int.add_mul, Int.one_mul] at h
  exact h

/-- Half the rows are half the bytes at most. -/
theorem half_mul_le {a b : Int} (ha : 0 ≤ a) (hb : 0 ≤ b) : 0 ≤ a / 2 * b ∧ 2 * (a / 2 * b) ≤ a * b := by
  have h2 : 2 * (a / 2) ≤ a := by omega
  have hpos : 0 ≤ a / 2 := by omega
  have h := Int.mul_le_mul_of_nonneg_right h2 hb
  rw [Int.mul_assoc] at h
  exact ⟨Int.mul_nonneg hpos hb, h⟩

namespace NativeImage

variable {src dst : NativeImage} {mem : Memory} {n : Nat} {size : Int}

/-! ## Copies -/

/-- A copy of a plane stays in the block if the rows of the destination do, and the whole plane where it is copied at once. -/
theorem copyPlane_inBounds {p : Fin 3} {rows row whole o : Int} (hplane : dst.ppPlane.get p = ⟨.block n, o⟩) (ho : 0 ≤ o)
    (hrow : 0 ≤ row) (hline : row ≤ dst.pLineSize.get p) (hrows : o + rows * dst.pLineSize.get p ≤ size)
    (hsmall : rows * dst.pLineSize.get p < 0x80000000)
    (hwhole : src.pLineSize.get p = dst.pLineSize.get p → 0 ≤ whole ∧ o + whole ≤ size) :
    ∀ m ∈ copyPlane src dst p rows row whole, m.dst.base = .block n ∧ 0 ≤ m.dst.offset ∧ 0 ≤ m.length ∧
      m.dst.offset + m.length ≤ size := by
  intro m hm
  unfold copyPlane at hm
  split at hm
  case isTrue =>
    obtain ⟨i, hi, rfl⟩ := List.mem_map.mp hm
    have hi : (i : Int) + 1 ≤ rows := by
      have := List.mem_range.mp hi
      omega
    have hle := row_le hi (by omega : 0 ≤ dst.pLineSize.get p)
    have hpos : 0 ≤ (i : Int) * dst.pLineSize.get p := Int.mul_nonneg (by omega) (by omega)
    rw [int_eq hpos (by omega), hplane]
    exact ⟨rfl, by simp only [Ptr.add]; omega, hrow, by simp only [Ptr.add]; omega⟩
  case isFalse heq =>
    obtain rfl := List.mem_singleton.mp hm
    obtain ⟨hpos, hle⟩ := hwhole (by simpa using heq)
    rw [hplane]
    exact ⟨rfl, ho, hpos, hle⟩

/-- The copy into an image that is laid out stays in its block. -/
theorem copyPlanes_inBounds (hformat : src.format = dst.format) (hheight : src.height = dst.height) (hw : 1 ≤ dst.width)
    (hh : 1 ≤ dst.height) (hsmall : 4 * (dst.width * dst.height) < 0x80000000) (hlaid : dst.LaidOut mem n) :
    ∃ size, mem.blocks[n]? = some size ∧ ∀ m ∈ copyPlanes src dst, m.dst.base = .block n ∧ 0 ≤ m.dst.offset ∧
      0 ≤ m.length ∧ m.dst.offset + m.length ≤ size := by
  have hpos : 0 ≤ dst.width * dst.height := Int.mul_nonneg (by omega) (by omega)
  have hcomm : dst.height * dst.width = dst.width * dst.height := Int.mul_comm _ _
  obtain ⟨hhalfw0, hhalfw⟩ := half_mul_le (a := dst.width) (b := dst.height) (by omega) (by omega)
  obtain ⟨hhalfh0, hhalfh⟩ := half_mul_le (a := dst.height) (b := dst.width) (by omega) (by omega)
  have hle : dst.width ≤ dst.width * dst.height := by
    have := Int.mul_le_mul_of_nonneg_left hh (by omega : 0 ≤ dst.width)
    omega
  unfold copyPlanes
  rw [hformat, hheight]
  cases hlaid with
  | rgba hf hsize hp hl =>
    have h0 : dst.ppPlane.get 0 = ⟨.block n, 0⟩ := hp
    have hl0 : dst.pLineSize.get 0 = dst.width * 4 := by rw [hl]; rfl
    have hrows : dst.height * (dst.width * 4) = 4 * (dst.width * dst.height) := by
      rw [← Int.mul_assoc, hcomm, Int.mul_comm]
    refine ⟨_, hsize, ?_⟩
    rw [hf, if_neg (by decide), if_neg (by decide), if_pos rfl, int_eq (by omega) (by omega)]
    refine copyPlane_inBounds h0 (Int.le_refl 0) (by omega) (by omega) (by rw [hl0]; omega) (by rw [hl0]; omega) ?_
    intro heq
    have hsrc : src.pLineSize.get 0 = dst.width * 4 := heq.trans hl0
    rw [hsrc, Int.mul_comm, hrows, int_eq (by omega) hsmall]
    omega
  | nv hf hsize hp hp1 hl =>
    have h0 : dst.ppPlane.get 0 = ⟨.block n, 0⟩ := hp
    have h1 : dst.ppPlane.get 1 = ⟨.block n, 0 + dst.width * dst.height⟩ := hp1
    have hl0 : dst.pLineSize.get 0 = dst.width := by rw [hl]; rfl
    have hl1 : dst.pLineSize.get 1 = dst.width := by rw [hl]; rfl
    have hnot : ¬ dst.format = IMAGE_FORMAT_I420 := by
      rcases hf with hf | hf <;> rw [hf] <;> decide
    refine ⟨_, hsize, ?_⟩
    rw [if_neg hnot, if_pos hf.symm]
    intro m hm
    rcases List.mem_append.mp hm with hm | hm
    · refine copyPlane_inBounds h0 (Int.le_refl 0) (by omega) (by omega) (by rw [hl0]; omega) (by rw [hl0]; omega)
        (fun _ => ?_) m hm
      rw [hl0, int_eq hpos (by omega)]
      omega
    · rw [Int.tdiv_eq_ediv_of_nonneg (by omega : 0 ≤ dst.height)] at hm
      refine copyPlane_inBounds h1 (by omega) (by omega) (by omega) (by rw [hl1]; omega) (by rw [hl1]; omega)
        (fun _ => ?_) m hm
      rw [hl1, int_eq hpos (by omega), Int.tdiv_eq_ediv_of_nonneg hpos]
      omega
  | i420 hf hsize hp hp1 hp2 hl =>
    have h0 : dst.ppPlane.get 0 = ⟨.block n, 0⟩ := hp
    have h1 : dst.ppPlane.get 1 = ⟨.block n, 0 + dst.width * dst.height⟩ := hp1
    have h2 : dst.ppPlane.get 2 =
        ⟨.block n, 0 + (dst.width * dst.height + dst.width / 2 * (dst.height / 2))⟩ := hp2
    have hl0 : dst.pLineSize.get 0 = dst.width := by rw [hl]; rfl
    have hl1 : dst.pLineSize.get 1 = dst.width / 2 := by rw [hl]; rfl
    have hl2 : dst.pLineSize.get 2 = dst.width / 2 := by rw [hl]; rfl
    -- a chroma plane has a quarter of the pixels at most
    obtain ⟨hquarter0, hquarter⟩ := half_mul_le (a := dst.height) (b := dst.width / 2) (by omega) (by omega)
    have hswap : dst.width / 2 * (dst.height / 2) = dst.height / 2 * (dst.width / 2) := Int.mul_comm _ _
    have hswap' : dst.height * (dst.width / 2) = dst.width / 2 * dst.height := Int.mul_comm _ _
    refine ⟨_, hsize, ?_⟩
    rw [if_pos hf, Int.tdiv_eq_ediv_of_nonneg (by omega : 0 ≤ dst.height),
      Int.tdiv_eq_ediv_of_nonneg (by omega : 0 ≤ dst.width)]
    intro m hm
    rcases List.mem_append.mp hm with hm | hm
    · rcases List.mem_append.mp hm with hm | hm
      · refine copyPlane_inBounds h0 (Int.le_refl 0) (by omega) (by omega) (by rw [hl0]; omega) (by rw [hl0]; omega)
          (fun _ => ?_) m hm
        rw [hl0, int_eq hpos (by omega)]
        omega
      · refine copyPlane_inBounds h1 (by omega) (by omega) (by omega) (by rw [hl1]; omega) (by rw [hl1]; omega)
          (fun _ => ?_) m hm
        rw [hl1, int_eq hhalfw0 (by omega), Int.tdiv_eq_ediv_of_nonneg hhalfw0]
        omega
    · refine copyPlane_inBounds h2 (by omega) (by omega) (by omega) (by rw [hl2]; omega) (by rw [hl2]; omega)
        (fun _ => ?_) m hm
      rw [hl2, int_eq hhalfw0 (by omega), Int.tdiv_eq_ediv_of_nonneg hhalfw0]
      omega

/-- A copy into an image without memory writes to the null page. -/
theorem copyPlanes_null (hsupported : src.supported = true) (hh : 1 ≤ src.height) (hnull : dst.firstPlane = .null) :
    ∃ m ∈ copyPlanes src dst, m.dst.base = .null := by
  have hplane : ∀ row whole, ∃ m ∈ copyPlane src dst 0 src.height row whole, m.dst.base = .null := by
    intro row whole
    unfold copyPlane
    split
    · refine ⟨_, List.mem_map.mpr ⟨0, List.mem_range.mpr (by omega), rfl⟩, ?_⟩
      show (dst.firstPlane).base = .null
      rw [hnull]
      rfl
    · refine ⟨_, List.mem_singleton.mpr rfl, ?_⟩
      show (dst.firstPlane).base = .null
      rw [hnull]
      rfl
  unfold copyPlanes
  split
  · obtain ⟨m, hm, hbase⟩ := hplane dst.width (int (dst.pLineSize.get 0 * src.height))
    exact ⟨m, List.mem_append_left _ (List.mem_append_left _ hm), hbase⟩
  · split
    · obtain ⟨m, hm, hbase⟩ := hplane dst.width (int (dst.pLineSize.get 0 * src.height))
      exact ⟨m, List.mem_append_left _ hm, hbase⟩
    · split
      · exact hplane _ _
      · simp_all [supported]

/-- An image in another format is not copied. -/
theorem copyPlanes_unsupported (hsupported : src.supported = false) : copyPlanes src dst = [] := by
  unfold copyPlanes
  simp only [supported, List.mem_cons, List.not_mem_nil, or_false, decide_eq_false_iff_not, not_or] at hsupported
  rw [if_neg hsupported.2.2.2, if_neg (by tauto), if_neg hsupported.1]

/-! ## Allocation -/

theorem InRange.of_small {img : NativeImage} (hw : 0 ≤ img.width) (hh : 0 ≤ img.height)
    (hsmall : 4 * (img.width * img.height) < 0x80000000) : img.InRange := by
  have hpos : 0 ≤ img.width * img.height := Int.mul_nonneg hw hh
  exact ⟨by omega, fun _ => hsmall⟩

/-- Memory is found: a block is added, and the image is laid out in it. -/
theorem alloc_ok {img : NativeImage} (mem : Memory) (hw : 1 ≤ img.width) (hh : 1 ≤ img.height) (hrange : img.InRange)
    (hsupported : img.supported = true) :
    (img.alloc mem true).1.freed = mem.freed ∧ (∃ size, (img.alloc mem true).1.blocks = mem.blocks ++ [size]) ∧
      (img.alloc mem true).2.LaidOut (img.alloc mem true).1 mem.blocks.length := by
  have hpos : 0 ≤ img.width * img.height := Int.mul_nonneg (by omega) (by omega)
  have hle : img.width ≤ img.width * img.height := by
    have := Int.mul_le_mul_of_nonneg_left hh (by omega : 0 ≤ img.width)
    omega
  obtain ⟨hhalfw0, hhalfw⟩ := half_mul_le (a := img.width) (b := img.height) (by omega) (by omega)
  obtain ⟨hquarter0, hquarter⟩ := half_mul_le (a := img.height) (b := img.width / 2) (by omega) (by omega)
  have hswap : img.width / 2 * (img.height / 2) = img.height / 2 * (img.width / 2) := Int.mul_comm _ _
  have hswap' : img.height * (img.width / 2) = img.width / 2 * img.height := Int.mul_comm _ _
  have hpixels := hrange.pixels
  have hint : int (img.width * img.height) = img.width * img.height := int_eq hpos hpixels
  have hzero : ¬ (img.height = 0 ∨ img.width = 0) := by omega
  have hhalf : ∀ x : Int, x >>> (1 : Nat) = x / 2 := fun x => by rw [Int.shiftRight_eq_div_pow]; rfl
  have htdiv : ∀ x : Int, 0 ≤ x → x.tdiv 2 = x / 2 := fun x hx => Int.tdiv_eq_ediv_of_nonneg hx
  have hrow : ∀ x : Int, (mem.blocks ++ [x])[mem.blocks.length]? = some x := fun x => List.getElem?_concat_length
  by_cases hrgba : img.format = IMAGE_FORMAT_RGBA
  · have hbytes := hrange.rgba hrgba
    unfold alloc
    rw [if_neg hzero, if_pos hrgba, hint, int_eq (by omega) (by omega), int_eq (by omega) (by omega)]
    exact ⟨rfl, ⟨_, rfl⟩, .rgba hrgba (hrow _) (first_set _ _) rfl⟩
  by_cases hnv : img.format = IMAGE_FORMAT_NV12 ∨ img.format = IMAGE_FORMAT_NV21
  · unfold alloc
    rw [if_neg hzero, if_neg hrgba, if_pos hnv, hint, htdiv _ (by omega)]
    exact ⟨rfl, ⟨_, rfl⟩, .nv hnv (hrow _) ((first_set_second _ _).trans (first_set _ _)) (second_set _ _) rfl⟩
  · have hi420 : img.format = IMAGE_FORMAT_I420 := by
      simp only [supported, List.mem_cons, List.not_mem_nil, or_false, decide_eq_true_eq] at hsupported
      tauto
    unfold alloc
    rw [if_neg hzero, if_neg hrgba, if_neg hnv, if_pos hi420, hint, htdiv _ (by omega), htdiv _ (by omega), hhalf, hhalf,
      int_eq (by omega) (by omega)]
    refine ⟨rfl, ⟨_, rfl⟩, .i420 hi420 (hrow _) rfl rfl ?_ rfl⟩
    show Ptr.add (Ptr.add _ _) _ = _
    simp [Ptr.add, Ptr.block]

/-- The size and the format are what they were. -/
theorem alloc_same (img : NativeImage) (mem : Memory) (ok : Bool) : (img.alloc mem ok).2.width = img.width ∧
    (img.alloc mem ok).2.height = img.height ∧ (img.alloc mem ok).2.format = img.format := by
  unfold alloc
  repeat' split
  all_goals exact ⟨rfl, rfl, rfl⟩

/-- No memory is found, or none is asked for: nothing is allocated. -/
theorem alloc_none {img : NativeImage} {ok : Bool} (mem : Memory) (hnull : img.firstPlane = .null)
    (h : ok = false ∨ img.supported = false) :
    (img.alloc mem ok).1 = mem ∧ (img.alloc mem ok).2.firstPlane = .null := by
  unfold alloc
  rcases h with rfl | h
  · have hfail : ∀ size, mem.malloc size false = (mem, .null) := fun _ => rfl
    simp only [hfail]
    repeat' split
    all_goals exact ⟨rfl, by simp [firstPlane, hnull]⟩
  · simp only [supported, List.mem_cons, List.not_mem_nil, or_false, decide_eq_false_iff_not, not_or] at h
    by_cases hzero : img.height = 0 ∨ img.width = 0
    · rw [if_pos hzero]
      exact ⟨rfl, hnull⟩
    · rw [if_neg hzero, if_neg h.1, if_neg (by tauto), if_neg h.2.2.2]
      exact ⟨rfl, hnull⟩

end NativeImage

/-! ## One block at a time -/

namespace Memory

variable {mem mem' : Memory} {n : Nat}

/-- A new block is the last that is not freed. -/
theorem live_malloc (h : mem.Sound) {size : Int} (hblocks : mem'.blocks = mem.blocks ++ [size])
    (hfreed : mem'.freed = mem.freed) : mem'.live = mem.live ++ [mem.blocks.length] ∧ mem'.Sound := by
  have hnew : Ptr.block mem.blocks.length ∉ mem.freed := by
    intro hmem
    obtain ⟨n, hn, heq⟩ := h.blocks _ hmem
    cases heq
    exact Nat.lt_irrefl _ hn
  refine ⟨?_, hfreed ▸ h.once, fun p hp => ?_⟩
  · rw [live, live, hblocks, hfreed, List.length_append, List.length_singleton, List.range_succ, List.filter_append]
    simp [hnew]
  · obtain ⟨n, hn, heq⟩ := h.blocks p (hfreed ▸ hp)
    rw [hblocks, List.length_append]
    exact ⟨n, Nat.lt_add_right _ hn, heq⟩

/-- The only block that is not freed is freed. -/
theorem live_free (h : mem.Sound) (hlive : mem.live = [n]) : (mem.free (.block n)).live = [] ∧ (mem.free (.block n)).Sound := by
  have hn : n ∈ mem.live := by
    rw [hlive]
    exact List.mem_cons_self
  obtain ⟨hlt, hfreed⟩ := List.mem_filter.mp hn
  have hfreed : Ptr.block n ∉ mem.freed := of_decide_eq_true hfreed
  refine ⟨?_, ?_, fun p hp => ?_⟩
  · rw [live, List.filter_eq_nil_iff]
    intro k hk hkfreed
    have hkfreed : Ptr.block k ∉ mem.freed ++ [Ptr.block n] := of_decide_eq_true hkfreed
    rw [List.mem_append, List.mem_singleton, not_or] at hkfreed
    have hklive : k ∈ mem.live := List.mem_filter.mpr ⟨hk, decide_eq_true hkfreed.1⟩
    rw [hlive] at hklive
    exact hkfreed.2 (congrArg Ptr.block (List.mem_singleton.mp hklive))
  · refine List.nodup_append.mpr ⟨h.once, List.pairwise_singleton _ _, ?_⟩
    rintro p hp q hq rfl
    rw [List.mem_singleton.mp hq] at hp
    exact hfreed hp
  · rcases List.mem_append.mp hp with hp | hp
    · exact h.blocks p hp
    · exact ⟨n, List.mem_range.mp hlt, List.mem_singleton.mp hp⟩

end Memory

namespace VideoGLRender

variable {r : VideoGLRender} {c : RenderCall} {img : NativeImage}

/-- A laid out image begins with its block, in a supported format. -/
theorem laidOut_block {mem : Memory} {n : Nat} (h : img.LaidOut mem n) :
    img.firstPlane = .block n ∧ img.firstPlane ≠ .null := by
  have hp : img.firstPlane = .block n := by cases h <;> assumption
  refine ⟨hp, ?_⟩
  rw [hp]
  intro heq
  cases heq

/-- Freeing the image frees the one block there is. -/
theorem free_consistent (h : r.Consistent) :
    (r.m_RenderImage.free r.memory).1.live = [] ∧ (r.m_RenderImage.free r.memory).1.Sound := by
  unfold NativeImage.free
  rcases h.image with ⟨hnull, hlive⟩ | ⟨n, hlive, hlaid⟩
  · rw [if_pos hnull]
    exact ⟨hlive, h.memory⟩
  · obtain ⟨hp, hne⟩ := laidOut_block hlaid
    rw [if_neg hne, hp]
    exact Memory.live_free h.memory hlive

/-- An image is allocated where no block is left: it has the new one or none. -/
theorem alloc_consistent (img : NativeImage) {mem : Memory} (ok : Bool) (hmem : mem.Sound) (hlive : mem.live = [])
    (hw : 1 ≤ img.width) (hh : 1 ≤ img.height) (hsmall : 4 * (img.width * img.height) < 0x80000000)
    (hnull : img.firstPlane = .null) :
    Consistent ⟨(img.alloc mem ok).2, (img.alloc mem ok).1⟩ ∧
      ((img.alloc mem ok).2.firstPlane = .null ↔ ok = false ∨ img.supported = false) := by
  by_cases hnone : ok = false ∨ img.supported = false
  · obtain ⟨hsame, hp⟩ := NativeImage.alloc_none mem hnull hnone
    exact ⟨⟨by rw [hsame]; exact hmem, Or.inl ⟨hp, by rw [hsame]; exact hlive⟩⟩, iff_of_true hp hnone⟩
  · obtain ⟨hok, hsupported⟩ := not_or.mp hnone
    obtain rfl : ok = true := by simpa using hok
    obtain ⟨hfreed, ⟨size, hblocks⟩, hlaid⟩ := NativeImage.alloc_ok mem hw hh (.of_small (by omega) (by omega) hsmall)
      (by simpa using hsupported)
    obtain ⟨hlive', hmem'⟩ := Memory.live_malloc hmem hblocks hfreed
    rw [hlive, List.nil_append] at hlive'
    exact ⟨⟨hmem', Or.inr ⟨_, hlive', hlaid⟩⟩, iff_of_false (laidOut_block hlaid).2 hnone⟩

/-- After `resize` the image is in order and has the size of the picture; whether it has the format and no memory is known
before. -/
theorem resize_spec (h : r.Consistent) (hw : 1 ≤ img.width) (hh : 1 ≤ img.height)
    (hsmall : 4 * (img.width * img.height) < 0x80000000) (ok : Bool) :
    (r.resize img ok).Consistent ∧ (r.resize img ok).m_RenderImage.width = img.width ∧
      (r.resize img ok).m_RenderImage.height = img.height ∧ (img.supported = true →
        (img.format = (r.resize img ok).m_RenderImage.format ∧ (r.resize img ok).m_RenderImage.firstPlane = .null ↔
          (if img.width ≠ r.m_RenderImage.width ∨ img.height ≠ r.m_RenderImage.height then !ok
            else img.format = r.m_RenderImage.format && r.m_RenderImage.firstPlane = .null) = true)) := by
  unfold resize
  by_cases hsize : img.width ≠ r.m_RenderImage.width ∨ img.height ≠ r.m_RenderImage.height
  · rw [if_pos hsize, if_pos hsize]
    obtain ⟨hlive, hmem⟩ := free_consistent h
    obtain ⟨hwidth, hheight, hformat⟩ := NativeImage.alloc_same
      { NativeImage.new with format := img.format, width := img.width, height := img.height }
        (r.m_RenderImage.free r.memory).1 ok
    obtain ⟨hconsistent, hnull⟩ := alloc_consistent { NativeImage.new with
      format := img.format
      width := img.width
      height := img.height } ok hmem hlive hw hh hsmall rfl
    refine ⟨hconsistent, hwidth, hheight, fun hsupported => ?_⟩
    have hnew : NativeImage.supported { NativeImage.new with
      format := img.format
      width := img.width
      height := img.height } = true := hsupported
    rw [hnew] at hnull
    refine ⟨fun hand => ?_, fun hok => ⟨hformat.symm, hnull.mpr (Or.inl (by simpa using hok))⟩⟩
    rcases hnull.mp hand.2 with hok | hfalse
    · rw [hok]
      rfl
    · cases hfalse
  · rw [if_neg hsize, if_neg hsize]
    simp only [not_or, ne_eq, not_not] at hsize
    exact ⟨h, hsize.1.symm, hsize.2.symm, fun _ => by simp⟩

/-- What is copied between images of one size and format lands in the render image if that has memory, or if nothing is
copied. -/
theorem copies_inBounds (h : r.Consistent) (hw : 1 ≤ img.width) (hh : 1 ≤ img.height)
    (hsmall : 4 * (img.width * img.height) < 0x80000000) (hformat : img.format = r.m_RenderImage.format)
    (hwidth : img.width = r.m_RenderImage.width) (hheight : img.height = r.m_RenderImage.height) :
    (∀ m ∈ NativeImage.copyPlanes img r.m_RenderImage, m.InBounds r.memory) ↔
      ¬ (img.supported = true ∧ r.m_RenderImage.firstPlane = .null) := by
  constructor
  · rintro hin ⟨hsupported, hnull⟩
    obtain ⟨m, hm, hbase⟩ := NativeImage.copyPlanes_null hsupported hh hnull
    obtain ⟨n, size, hblock, -⟩ := hin m hm
    rw [hbase] at hblock
    cases hblock
  · intro hnot m hm
    rcases h.image with ⟨hnull, -⟩ | ⟨n, hlive, hlaid⟩
    · have hunsupported : img.supported = false := by
        rw [← Bool.not_eq_true]
        exact fun hsupported => hnot ⟨hsupported, hnull⟩
      rw [NativeImage.copyPlanes_unsupported hunsupported] at hm
      cases hm
    · obtain ⟨size, hblock, hcopies⟩ := NativeImage.copyPlanes_inBounds hformat hheight (hwidth ▸ hw) (hheight ▸ hh)
        (hwidth ▸ hheight ▸ hsmall) hlaid
      obtain ⟨hbase, hoffset, hlength, hend⟩ := hcopies m hm
      exact ⟨n, size, hbase, by rw [hlive]; exact List.mem_cons_self, hblock, hoffset, hlength, hend⟩

/-- `CopyNativeImage` into a render image of the same size keeps it in order, and copies into it only unless it still has no
memory. -/
theorem copy_spec (h : r.Consistent) (hw : 1 ≤ img.width) (hh : 1 ≤ img.height)
    (hsmall : 4 * (img.width * img.height) < 0x80000000) (hwidth : img.width = r.m_RenderImage.width)
    (hheight : img.height = r.m_RenderImage.height) (hplane : img.firstPlane ≠ .null) (again : Bool) :
    Consistent ⟨(img.copy r.m_RenderImage r.memory again).2.1, (img.copy r.m_RenderImage r.memory again).1⟩ ∧
      ((∀ m ∈ (img.copy r.m_RenderImage r.memory again).2.2, m.InBounds (img.copy r.m_RenderImage r.memory again).1) ↔
        ¬ (img.supported = true ∧ again = false ∧ img.format = r.m_RenderImage.format ∧
          r.m_RenderImage.firstPlane = .null)) := by
  unfold NativeImage.copy
  rw [if_neg hplane]
  by_cases hformat : img.format = r.m_RenderImage.format
  case neg =>
    rw [if_pos (Or.inl hformat)]
    refine ⟨h, iff_of_true ?_ fun hand => hformat hand.2.2.1⟩
    intro m hm
    cases hm
  rw [if_neg (by tauto)]
  by_cases hnull : r.m_RenderImage.firstPlane = .null
  case neg =>
    rw [if_neg hnull]
    refine ⟨h, (copies_inBounds h hw hh hsmall hformat hwidth hheight).trans ?_⟩
    exact iff_of_true (fun hand => hnull hand.2) (fun hand => hnull hand.2.2.2)
  rw [if_pos hnull]
  have hlive : r.memory.live = [] := by
    rcases h.image with ⟨-, hlive⟩ | ⟨n, -, hlaid⟩
    · exact hlive
    · exact absurd hnull (laidOut_block hlaid).2
  obtain ⟨hsamew, hsameh, hsamef⟩ := NativeImage.alloc_same r.m_RenderImage r.memory again
  obtain ⟨hconsistent, hstill⟩ := alloc_consistent r.m_RenderImage again h.memory hlive (hwidth ▸ hw) (hheight ▸ hh)
    (hwidth ▸ hheight ▸ hsmall) hnull
  have hsupported : r.m_RenderImage.supported = img.supported := by
    rw [NativeImage.supported, NativeImage.supported, hformat]
  refine ⟨hconsistent, (copies_inBounds hconsistent hw hh hsmall (hformat.trans hsamef.symm) (hwidth.trans hsamew.symm)
    (hheight.trans hsameh.symm)).trans ?_⟩
  show ¬ (img.supported = true ∧ (r.m_RenderImage.alloc r.memory again).2.firstPlane = .null) ↔ _
  rw [hstill, hsupported]
  cases img.supported <;> simp [hformat, hnull]

/-- A call of the renderer keeps the image in order, and it copies into the image only unless there is no memory for it. -/
theorem render_step (h : r.Consistent) (hc : c.Valid) : (r.renderVideoFrame c).1.Consistent ∧
    ((∀ m ∈ (r.renderVideoFrame c).2, m.InBounds (r.renderVideoFrame c).1.memory) ↔ r.unallocated c = false) := by
  unfold renderVideoFrame unallocated
  match hp : c.pImage with
  | none => exact ⟨h, by simp⟩
  | some img =>
    obtain ⟨hw, hh, hsmall⟩ := hc img hp
    simp only [Option.any_some]
    by_cases hplane : img.firstPlane = .null
    · rw [if_pos hplane]
      exact ⟨h, by simp [hplane]⟩
    rw [if_neg hplane]
    obtain ⟨hconsistent, hwidth, hheight, hspec⟩ := resize_spec h hw hh hsmall c.ok
    obtain ⟨hcopied, hcopies⟩ := copy_spec hconsistent hw hh hsmall hwidth.symm hheight.symm hplane c.again
    refine ⟨hcopied, hcopies.trans ?_⟩
    by_cases hsupported : img.supported = true
    · rw [hspec hsupported, hsupported]
      by_cases hsize : img.width ≠ r.m_RenderImage.width ∨ img.height ≠ r.m_RenderImage.height
      · rw [if_pos hsize]
        cases c.again <;> simp [hplane]
      · rw [if_neg hsize]
        cases c.again <;> simp [hplane]
    · simp [hsupported]

/-- The image is in order after every run of calls. -/
theorem run_consistent (calls : List RenderCall) (hvalid : ∀ c ∈ calls, c.Valid) : (run calls).Consistent := by
  induction calls using List.reverseRecOn with
  | nil => exact ⟨⟨List.nodup_nil, by simp [run, new, Memory.new]⟩, Or.inl ⟨rfl, rfl⟩⟩
  | append_singleton before c ih =>
    have h := ih fun c hc => hvalid c (List.mem_append_left _ hc)
    unfold run
    rw [List.foldl_append]
    exact (render_step h (hvalid c (List.mem_append_right _ List.mem_cons_self))).1

/-- The next call of a run. -/
theorem run_snoc (before : List RenderCall) (c : RenderCall) :
    run (before ++ [c]) = ((run before).renderVideoFrame c).1 := by
  unfold run
  rw [List.foldl_append]
  rfl

/-- Over every run of calls and the destructor after it, the render image is the one block and nothing is copied elsewhere, if
and only if no picture comes while the image has no memory and gets none. -/
theorem render_image (calls : List RenderCall) (hvalid : ∀ c ∈ calls, c.Valid) :
    RunSound calls ↔ ∀ before c after, calls = before ++ c :: after → (run before).unallocated c = false := by
  have hstep : ∀ before c after, calls = before ++ c :: after → (run (before ++ [c])).Consistent ∧
      ((∀ m ∈ ((run before).renderVideoFrame c).2, m.InBounds (run (before ++ [c])).memory) ↔
        (run before).unallocated c = false) := by
    intro before c after hcalls
    have hbefore := run_consistent before fun c' hc => hvalid c' (by rw [hcalls]; exact List.mem_append_left _ hc)
    rw [run_snoc]
    exact render_step hbefore (hvalid c (by rw [hcalls]; simp))
  constructor
  · intro hsound before c after hcalls
    exact (hstep before c after hcalls).2.mp (hsound.call before c after hcalls).2
  · intro hnone
    refine ⟨fun before c after hcalls => ?_, free_consistent (run_consistent calls hvalid)⟩
    obtain ⟨hconsistent, hcopies⟩ := hstep before c after hcalls
    exact ⟨hconsistent, hcopies.mpr (hnone before c after hcalls)⟩

/-- A picture of one pixel, with memory of its own. -/
def pixel : NativeImage where
  width := 1
  height := 1
  format := IMAGE_FORMAT_RGBA
  ppPlane := #v[⟨.other 0, 0⟩, .null, .null]
  pLineSize := #v[4, 0, 0]

/-- No memory is found, twice: the picture is copied to the null pointer. -/
theorem copied_to_null : ¬ ∀ calls : List RenderCall, (∀ c ∈ calls, c.Valid) → RunSound calls := by
  intro hall
  have hvalid : ∀ c ∈ [RenderCall.mk (some pixel) false false], c.Valid := by
    intro c hc img himg
    rw [List.mem_singleton.mp hc] at himg
    cases himg
    decide
  obtain ⟨-, hcopies⟩ := (hall _ hvalid).call [] _ [] rfl
  obtain ⟨n, size, hblock, -⟩ := hcopies ⟨.null, ⟨.other 0, 0⟩, 4⟩ (by decide)
  cases hblock

/-- The image gets its memory in `CopyNativeImage`, since the first `malloc` fails; nothing comes after. -/
theorem render_image_example : RunSound [⟨some pixel, false, true⟩, ⟨none, true, true⟩] := by
  refine (render_image _ fun c hc img himg => ?_).mpr fun before c after hcalls => ?_
  · simp only [List.mem_cons, List.not_mem_nil, or_false] at hc
    rcases hc with rfl | rfl
    · cases himg
      decide
    · cases himg
  · match before with
    | [] =>
      obtain ⟨rfl, -⟩ := List.cons.inj hcalls
      decide
    | [_] =>
      obtain ⟨rfl, -⟩ := List.cons.inj (List.cons.inj hcalls).2
      rfl
    | _ :: _ :: _ =>
      have hlength := congrArg List.length hcalls
      simp at hlength

end VideoGLRender

end LibraLive

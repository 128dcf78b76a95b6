import LibraLive.SizedTable
import LibraLive.Okhttp3.Hpack

/-!
# The dynamic table

The array and its counters stand for a list of entries, the newest one first (`Slots`, `Holds`). What the methods do to them
is what is done to a table of a bounded size: entries are evicted until the others fit (`evictToRecoverBytes_holds`), and an
entry is inserted in front of those that still fit behind it (`insert_holds`).
-/

namespace LibraLive

namespace Hpack

open Java SizedTable

/-- The size of an entry, before it is cut to an `int`. -/
def Header.size (h : Header) : Nat := 32 + h.name.length + h.value.length

theorem Header.size_pos (h : Header) : 0 < h.size := by
  unfold Header.size
  omega

/-- The size of a header that is not too long is its `hpackSize`. -/
theorem Header.hpackSize_eq {h : Header} (hs : h.size ≤ 2147483647) : h.hpackSize = h.size := by
  unfold Header.size at hs
  have hname : int32 (32 + h.name.length) = 32 + h.name.length := int32_of_range (by omega) (by omega)
  rw [hpackSize, hname, int32_of_range (by omega) (by omega), Header.size]
  omega

namespace DynamicTable

/-- The array holds the entries at its end and has free places before them. An entry takes up more than thirty bytes, so an
array that is full is far from the largest one. -/
structure Slots (t : DynamicTable) (l : List Header) : Prop where
  places : ∃ free, t.dynamicTable = free ++ l.map some ∧ t.nextHeaderIndex = free.length - 1
  count : t.headerCount = l.length
  length_pos : 0 < t.dynamicTable.length
  length_le : t.dynamicTable.length ≤ 134217728

/-- And the counter of the bytes is what they take up, which is an `int`. -/
structure Holds (t : DynamicTable) (l : List Header) : Prop extends Slots t l where
  bytes : t.dynamicTableByteCount = total Header.size l
  range : total Header.size l ≤ 2147483647

end DynamicTable

variable {t : DynamicTable} {l : List Header}

/-- An entry of a table is not too long. -/
theorem hpackSize_of_mem {h : Header} (hrange : total Header.size l ≤ 2147483647) (hmem : h ∈ l) : h.hpackSize = h.size :=
  Header.hpackSize_eq ((le_total hmem).trans hrange)

/-- Each entry takes up more than thirty bytes. -/
theorem length_mul_le (l : List Header) : 32 * l.length ≤ total Header.size l := by
  induction l with
  | nil => exact Nat.le_refl _
  | cons h l ih =>
    rw [List.length_cons, total_cons, Header.size]
    omega

/-- The loop evicts entries from the end until the others fit. -/
theorem evictLoop_eq (free : List (Option Header)) (gone : List Header) {left target : Nat} {j : Int}
    (hleft : l.length ≤ left) (hj : j = free.length + l.length - 1) (htarget : target ≤ 2147483647)
    (hrange : total Header.size l ≤ 2147483647) :
    evictLoop (free ++ (l ++ gone).map some) j left (total Header.size l - target) (total Header.size l) l.length
        gone.length =
      .ok (total Header.size (keep Header.size target l), (keep Header.size target l).length,
        gone.length + l.length - (keep Header.size target l).length) := by
  induction l using List.reverseRecOn generalizing gone left j with
  | nil =>
    cases left with
    | zero => simp [evictLoop]
    | succ left => rw [evictLoop, if_neg (by simp)]; simp
  | append_singleton l h ih =>
    rw [List.length_append, List.length_singleton] at hleft hj
    obtain ⟨left, rfl⟩ : ∃ n, left = n + 1 := ⟨left - 1, by omega⟩
    have hsize := hpackSize_of_mem hrange (List.mem_append_right l (List.mem_singleton_self h))
    rw [total_append, total_cons, total_nil] at hrange
    rw [evictLoop]
    by_cases hfull : target < total Header.size (l ++ [h])
    · rw [if_pos (by omega), keep_concat hfull]
      have hat : ((l ++ [h] ++ gone).map some)[l.length]? = some (some h) := by simp
      have hload : (aload (free ++ (l ++ [h] ++ gone).map some) j : Result _) = .ok (some h) := aload_append (by omega) hat
      rw [hload, ok_bind, deref, ok_bind, hsize]
      have hsplit : l ++ [h] ++ gone = l ++ h :: gone := by simp
      rw [hsplit, total_append, total_cons, total_nil]
      rw [show int32 (((total Header.size l + (h.size + 0) : Nat) : Int) - target - h.size) = total Header.size l - target by
          rw [int32_of_range] <;> omega,
        show int32 (((total Header.size l + (h.size + 0) : Nat) : Int) - h.size) = total Header.size l by
          rw [int32_of_range] <;> omega]
      have hih := ih (h :: gone) (show l.length ≤ left by omega) (show j - 1 = free.length + l.length - 1 by omega) (by omega)
      rw [List.length_append, List.length_singleton]
      rw [List.length_cons] at hih
      have hcount : ((l.length + 1 : Nat) : Int) - 1 = l.length := by omega
      have hgone : (gone.length : Int) + 1 = (gone.length + 1 : Nat) := by omega
      rw [hcount, hgone, hih]
      refine congrArg Except.ok (Prod.ext rfl (Prod.ext rfl ?_))
      change ((gone.length + 1 : Nat) : Int) + l.length - _ = gone.length + (l.length + 1 : Nat) - _
      omega
    · rw [if_neg (by omega), keep_eq_self (Nat.not_lt.mp hfull)]
      refine congrArg Except.ok (Prod.ext rfl (Prod.ext rfl ?_))
      change (gone.length : Int) = gone.length + (l ++ [h]).length - (l ++ [h]).length
      omega

/-- A part of an array that is copied over to its end. -/
theorem arraycopy_end (xs kept gone : List (Option Header)) {i n k : Int} (hi : i = xs.length) (hn : n = xs.length + gone.length)
    (hk : k = kept.length) :
    (arraycopy (xs ++ (kept ++ gone)) i (xs ++ (kept ++ gone)) n k : Result _) =
      .ok ((xs ++ (kept ++ gone)).take (xs.length + gone.length) ++ kept) := by
  subst hi hn hk
  rw [arraycopy, if_pos (by simp only [List.length_append]; omega), Int.toNat_natCast, Int.toNat_natCast, List.drop_left,
    List.take_left, show ((xs.length : Int) + gone.length).toNat = xs.length + gone.length by omega,
    List.drop_eq_nil_of_le (by simp only [List.length_append]; omega), List.append_nil]

/-- Filling places keeps their number. -/
theorem fill_start (free ys : List (Option Header)) {i n : Int} (hi : 0 ≤ i) (hin : i ≤ n) (hn : n = free.length) :
    ∃ free', (fill (free ++ ys) i n none : Result _) = .ok (free' ++ ys) ∧ free'.length = free.length := by
  subst hn
  refine ⟨free.take i.toNat ++ List.replicate (free.length - i).toNat none, ?_, ?_⟩
  · rw [fill, if_pos hin, if_pos ⟨hi, by rw [List.length_append]; omega⟩, Int.toNat_natCast, List.drop_left, List.take_append_of_le_length (by omega)]
  · simp only [List.length_append, List.length_take, List.length_replicate]
    omega

namespace DynamicTable

/-- `evictToRecoverBytes` evicts the entries that do not fit. -/
theorem evictToRecoverBytes_holds (wipe : Bool) {target : Nat} {b : Int} (h : t.Holds l) (htarget : target ≤ 2147483647)
    (hb : b = total Header.size l - target) :
    ∃ t' n, t.evictToRecoverBytes wipe b = .ok (t', n) ∧ t'.Holds (keep Header.size target l) ∧
      t'.maxDynamicTableByteCount = t.maxDynamicTableByteCount := by
  subst hb
  rw [evictToRecoverBytes]
  by_cases hfull : 0 < ((total Header.size l : Nat) : Int) - target
  · rw [if_pos hfull]
    obtain ⟨free, hplaces, hnext⟩ := h.places
    obtain ⟨gone, hgone⟩ : keep Header.size target l <+: l := keep_begins target l
    have hlen := congrArg List.length hgone
    rw [List.length_append] at hlen
    have hloop : evictLoop t.dynamicTable (t.dynamicTable.length - 1) (t.dynamicTable.length - t.nextHeaderIndex).toNat
        (total Header.size l - target) t.dynamicTableByteCount t.headerCount 0 = .ok
          (total Header.size (keep Header.size target l), (keep Header.size target l).length, (gone.length : Int)) := by
      have hleft : l.length ≤ (t.dynamicTable.length - t.nextHeaderIndex).toNat := by
        rw [hplaces, hnext, List.length_append, List.length_map]
        omega
      have hj : (t.dynamicTable.length - 1 : Int) = free.length + l.length - 1 := by
        rw [hplaces, List.length_append, List.length_map]
        omega
      have hloop := evictLoop_eq free [] hleft hj htarget h.range
      have hcount : (([] : List Header).length : Int) + l.length - (keep Header.size target l).length = gone.length := by
        rw [List.length_nil]
        omega
      rw [List.append_nil, ← hplaces, hcount] at hloop
      rw [h.bytes, h.count]
      exact hloop
    have hsplit : t.dynamicTable = free ++ ((keep Header.size target l).map some ++ gone.map some) := by
      rw [hplaces, ← List.map_append, hgone]
    have hcopy : (arraycopy t.dynamicTable (t.nextHeaderIndex + 1) t.dynamicTable (t.nextHeaderIndex + 1 + gone.length)
        (keep Header.size target l).length : Result _) =
          .ok (t.dynamicTable.take (free.length + gone.length) ++ (keep Header.size target l).map some) := by
      have hend := arraycopy_end free ((keep Header.size target l).map some) (gone.map some)
        (show t.nextHeaderIndex + 1 = free.length by omega)
        (show t.nextHeaderIndex + 1 + gone.length = free.length + (gone.map some).length by rw [List.length_map]; omega)
        (show ((keep Header.size target l).length : Int) = ((keep Header.size target l).map some).length by rw [List.length_map])
      rwa [← hsplit, List.length_map] at hend
    rw [hloop, ok_bind]
    dsimp only
    rw [hcopy, ok_bind]
    have hfree : (t.dynamicTable.take (free.length + gone.length)).length = free.length + gone.length := by
      rw [List.length_take, hplaces, List.length_append, List.length_map]
      omega
    have hholds : ∀ free', free'.length = free.length + gone.length → DynamicTable.Holds
        { t with
          dynamicTable := free' ++ (keep Header.size target l).map some
          nextHeaderIndex := t.nextHeaderIndex + gone.length
          headerCount := (keep Header.size target l).length
          dynamicTableByteCount := total Header.size (keep Header.size target l) } (keep Header.size target l) := by
      intro free' hfree'
      have hpos := h.length_pos
      have hle := h.length_le
      rw [hplaces, List.length_append, List.length_map] at hpos hle
      have hlength : (free' ++ (keep Header.size target l).map some).length = free.length + l.length := by
        rw [List.length_append, List.length_map]
        omega
      refine ⟨⟨⟨free', rfl, ?_⟩, rfl, hlength ▸ hpos, hlength ▸ hle⟩, rfl, (total_keep_le _ _).trans htarget⟩
      dsimp only
      omega
    cases wipe with
    | false => exact ⟨_, _, rfl, hholds _ hfree, rfl⟩
    | true =>
      obtain ⟨free', hfill, hlen'⟩ := fill_start (t.dynamicTable.take (free.length + gone.length))
        ((keep Header.size target l).map some) (show 0 ≤ t.nextHeaderIndex + 1 by omega)
        (show t.nextHeaderIndex + 1 ≤ t.nextHeaderIndex + 1 + gone.length by omega) (by rw [hfree]; omega)
      rw [if_pos rfl, hfill, ok_bind]
      exact ⟨_, _, rfl, hholds _ (hlen'.trans hfree), rfl⟩
  · rw [if_neg hfull, keep_eq_self (by omega)]
    exact ⟨t, 0, rfl, h, rfl⟩

theorem new_holds (max : Int) : (new max).Holds [] := by
  refine ⟨⟨⟨List.replicate 8 none, rfl, rfl⟩, rfl, ?_, ?_⟩, rfl, by decide⟩ <;> simp [new]

theorem clearDynamicTable_holds (h : t.Slots l) : t.clearDynamicTable.Holds [] := by
  refine ⟨⟨⟨List.replicate t.dynamicTable.length none, ?_, ?_⟩, rfl, ?_, ?_⟩, rfl, by decide⟩
  · exact (List.append_nil _).symm
  · simp [clearDynamicTable]
  · simpa [clearDynamicTable] using h.length_pos
  · simpa [clearDynamicTable] using h.length_le

/-- `adjustDynamicTableByteCount` evicts what the new size has no room for. -/
theorem adjustDynamicTableByteCount_holds (wipe : Bool) {m : Nat} (h : t.Holds l) (hm : m ≤ 2147483647)
    (hmax : t.maxDynamicTableByteCount = m) :
    ∃ t', t.adjustDynamicTableByteCount wipe = .ok t' ∧ t'.Holds (keep Header.size m l) ∧
      t'.maxDynamicTableByteCount = t.maxDynamicTableByteCount := by
  have hrange := h.range
  rw [adjustDynamicTableByteCount]
  by_cases hless : t.maxDynamicTableByteCount < t.dynamicTableByteCount
  · rw [if_pos hless]
    by_cases hzero : t.maxDynamicTableByteCount = 0
    · rw [if_pos hzero]
      obtain rfl : m = 0 := by omega
      rw [keep_zero Header.size_pos]
      exact ⟨_, rfl, clearDynamicTable_holds h.toSlots, rfl⟩
    · rw [if_neg hzero, hmax, h.bytes, int32_of_range (by omega) (by omega)]
      obtain ⟨t', n, hevict, hholds, hsame⟩ := evictToRecoverBytes_holds wipe h hm rfl
      rw [hevict]
      exact ⟨t', rfl, hholds, hsame.trans hmax⟩
  · rw [if_neg hless, keep_eq_self (by have := h.bytes; omega)]
    exact ⟨t, rfl, h, rfl⟩

/-- The array has a free place after `grow`. -/
theorem grow_slots (h : t.Slots l) (hl : l.length ≤ 67108863) :
    ∃ t' free place, t.grow = .ok t' ∧ t'.dynamicTable = free ++ [place] ++ l.map some ∧
      t'.dynamicTable.length ≤ 134217728 ∧ t'.nextHeaderIndex = free.length ∧
      t'.headerCount = t.headerCount ∧ t'.dynamicTableByteCount = t.dynamicTableByteCount ∧
      t'.maxDynamicTableByteCount = t.maxDynamicTableByteCount := by
  obtain ⟨free, hplaces, hnext⟩ := h.places
  have hlen := congrArg List.length hplaces
  rw [List.length_append, List.length_map] at hlen
  have hcount := h.count
  have hpos := h.length_pos
  rw [grow]
  rcases List.eq_nil_or_concat free with rfl | ⟨front, place, rfl⟩
  · rw [List.nil_append] at hplaces
    rw [List.length_nil] at hlen
    rw [if_pos (by omega)]
    have hcopy : (arraycopy t.dynamicTable 0 (List.replicate (t.dynamicTable.length * 2) none) t.dynamicTable.length
        t.dynamicTable.length : Result _) = .ok (List.replicate t.dynamicTable.length none ++ t.dynamicTable) := by
      rw [arraycopy, if_pos (by simp only [List.length_replicate]; omega)]
      simp [show ((t.dynamicTable.length : Int) + t.dynamicTable.length).toNat = t.dynamicTable.length * 2 by omega]
      omega
    rw [hcopy, ok_bind]
    refine ⟨_, List.replicate (t.dynamicTable.length - 1) none, none, rfl, ?_, ?_, ?_, rfl, rfl, rfl⟩
    · rw [← List.replicate_succ', Nat.sub_add_cancel hpos, ← hplaces]
    · rw [List.length_append, List.length_replicate]
      omega
    · rw [List.length_replicate]
      dsimp only
      omega
  · rw [List.concat_eq_append] at hplaces hnext hlen
    rw [List.length_append, List.length_singleton] at hlen hnext
    rw [if_neg (by omega)]
    exact ⟨t, front, place, rfl, hplaces, h.length_le, by omega, rfl, rfl, rfl⟩

/-- `add` puts the entry in front of the others. -/
theorem add_slots (h : t.Slots l) (hl : l.length ≤ 67108863) (entry : Header) :
    ∃ t', t.add entry = .ok t' ∧ t'.Slots (entry :: l) ∧ t'.dynamicTableByteCount = t.dynamicTableByteCount ∧
      t'.maxDynamicTableByteCount = t.maxDynamicTableByteCount := by
  obtain ⟨t', free, place, hgrow, hplaces, hle, hnext, hcount, hbytes, hmax⟩ := grow_slots h hl
  have hstore : (astore t'.dynamicTable t'.nextHeaderIndex (some entry) : Result _) =
      .ok (free ++ (entry :: l).map some) := by
    rw [hplaces, astore_concat hnext, List.append_assoc]
    rfl
  rw [add, hgrow, ok_bind, hstore, ok_bind]
  refine ⟨_, rfl, ⟨⟨free, rfl, ?_⟩, ?_, ?_, ?_⟩, hbytes, hmax⟩
  · dsimp only
    omega
  · have := h.count
    rw [List.length_cons]
    dsimp only
    omega
  · rw [List.length_append, List.length_map, List.length_cons]
    omega
  · rw [hplaces] at hle
    simp only [List.length_append, List.length_map, List.length_cons] at hle ⊢
    omega

/-- An entry that the table has room for is inserted in front of those that still fit behind it. -/
theorem insert_holds (wipe : Bool) {m : Nat} {entry : Header} (h : t.Holds l) (hm : m ≤ 1073741823)
    (hmax : t.maxDynamicTableByteCount = m) (hfit : total Header.size l ≤ m) (hentry : entry.size ≤ m) :
    ∃ t₁ n t₂, t.evictToRecoverBytes wipe (int32 (int32 (t.dynamicTableByteCount + entry.hpackSize) -
          t.maxDynamicTableByteCount)) = .ok (t₁, n) ∧ t₁.add entry = .ok t₂ ∧
      Holds { t₂ with dynamicTableByteCount := int32 (t₂.dynamicTableByteCount + entry.hpackSize) }
        (keep Header.size m (entry :: l)) ∧
      t₂.maxDynamicTableByteCount = t.maxDynamicTableByteCount := by
  have hsize := Header.hpackSize_eq (h := entry) (by omega)
  have hbytes := h.bytes
  have hrecover : int32 (int32 (t.dynamicTableByteCount + entry.hpackSize) - t.maxDynamicTableByteCount) =
      total Header.size l - (m - entry.size : Nat) := by
    have hsum : int32 (t.dynamicTableByteCount + entry.hpackSize) = t.dynamicTableByteCount + entry.hpackSize :=
      int32_of_range (by omega) (by omega)
    rw [hsum, int32_of_range (by omega) (by omega)]
    omega
  obtain ⟨t₁, n, hevict, hholds, hmax₁⟩ := evictToRecoverBytes_holds wipe h
    (show m - entry.size ≤ 2147483647 by omega) hrecover
  have hcount := length_mul_le (keep Header.size (m - entry.size) l)
  have hrange := hholds.range
  obtain ⟨t₂, hadd, hslots, hbytes₂, hmax₂⟩ := add_slots hholds.toSlots (by omega) entry
  refine ⟨t₁, n, t₂, hevict, hadd, ?_, hmax₂.trans hmax₁⟩
  have hle : total Header.size (keep Header.size (m - entry.size) l) ≤ m - entry.size := total_keep_le _ _
  rw [keep_cons_of_le hentry]
  refine ⟨⟨hslots.places, hslots.count, hslots.length_pos, hslots.length_le⟩, ?_, ?_⟩
  · rw [hbytes₂, hholds.bytes, hsize, int32_of_range (by omega) (by omega), total_cons]
    push_cast
    omega
  · rw [total_cons]
    omega

end DynamicTable

/-! ## `insertIntoDynamicTable` -/

section
variable {m : Nat} {entry : Header}

/-- The table of the reader after an insertion; the entry is added to the header list too. -/
theorem Reader.insertIntoDynamicTable_holds {r : Reader} (h : r.Holds l) (hm : m ≤ 1073741823)
    (hmax : r.maxDynamicTableByteCount = m) (hfit : total Header.size l ≤ m) (hentry : entry.size ≤ 2147483647) :
    ∃ r', r.insertIntoDynamicTable entry = .ok r' ∧ r'.Holds (keep Header.size m (entry :: l)) ∧
      r'.maxDynamicTableByteCount = m ∧ r'.headerList = r.headerList ++ [some entry] ∧
      r'.headerTableSizeSetting = r.headerTableSizeSetting := by
  have hsize := Header.hpackSize_eq hentry
  rw [insertIntoDynamicTable]
  by_cases hbig : m < entry.size
  · rw [if_pos (by simp only [addHeader]; omega), keep_cons_of_lt hbig]
    exact ⟨_, rfl, DynamicTable.clearDynamicTable_holds h.toSlots, hmax, rfl, rfl⟩
  · rw [if_neg (by simp only [addHeader]; omega)]
    obtain ⟨t₁, n, t₂, hevict, hadd, hholds, hmax₂⟩ :=
      DynamicTable.insert_holds false h hm hmax hfit (Nat.not_lt.mp hbig)
    simp only [addHeader]
    rw [hevict, ok_bind, hadd, ok_bind]
    exact ⟨_, rfl, hholds, hmax₂.trans hmax, rfl, rfl⟩

/-- The table of the writer after an insertion. -/
theorem Writer.insertIntoDynamicTable_holds {w : Writer} (h : w.Holds l) (hm : m ≤ 1073741823)
    (hmax : w.maxDynamicTableByteCount = m) (hfit : total Header.size l ≤ m) (hentry : entry.size ≤ 2147483647) :
    ∃ t, w.insertIntoDynamicTable entry = .ok { w with toDynamicTable := t } ∧ t.Holds (keep Header.size m (entry :: l)) ∧
      t.maxDynamicTableByteCount = m := by
  have hsize := Header.hpackSize_eq hentry
  rw [insertIntoDynamicTable]
  by_cases hbig : m < entry.size
  · rw [if_pos (by omega), keep_cons_of_lt hbig]
    exact ⟨_, rfl, DynamicTable.clearDynamicTable_holds h.toSlots, hmax⟩
  · rw [if_neg (by omega)]
    obtain ⟨t₁, n, t₂, hevict, hadd, hholds, hmax₂⟩ :=
      DynamicTable.insert_holds true h hm hmax hfit (Nat.not_lt.mp hbig)
    dsimp only
    rw [hevict, ok_bind, hadd, ok_bind]
    exact ⟨_, rfl, hholds, hmax₂.trans hmax⟩

end

end Hpack

end LibraLive

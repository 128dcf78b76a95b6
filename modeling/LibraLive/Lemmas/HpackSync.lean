import LibraLive.Lemmas.HpackTable
import LibraLive.Lemmas.HpackBytes

/-!
# One header from the writer to the reader

The writer's table and the reader's hold the same entries, but for the letters of the names: the writer keeps a header as it
was given, the reader as it was sent (`Header.lower`). What the writer finds for a header is what the reader finds at the same
index (`search_spec`, `entryAt_eq`), and both insert it or both do not (`writeHeader_synced`).
-/

namespace LibraLive

namespace Hpack

open Java SizedTable

/-! ## Names in lower case -/

/-- The header as it is sent. -/
def Header.lower (h : Header) : Header := ⟨toAsciiLowercase h.name, h.value⟩

@[simp] theorem length_toAsciiLowercase (name : List UInt8) : (toAsciiLowercase name).length = name.length :=
  List.length_map ..

theorem not_isUpper_lower (c : UInt8) : isUpper (if isUpper c then c + 0x20 else c) = false := by
  have hall : ∀ n < 256, isUpper (if isUpper (UInt8.ofNat n) then UInt8.ofNat n + 0x20 else UInt8.ofNat n) = false := by
    decide +kernel
  simpa using hall c.toNat c.toNat_lt

/-- Nothing in lower case is upper case. -/
theorem any_isUpper_toAsciiLowercase (name : List UInt8) : (toAsciiLowercase name).any isUpper = false := by
  rw [toAsciiLowercase, List.any_map, List.any_eq_false]
  intro c _
  simp only [Function.comp_apply, not_isUpper_lower, Bool.false_eq_true, not_false_eq_true]

theorem toAsciiLowercase_eq_self {name : List UInt8} (h : name.any isUpper = false) : toAsciiLowercase name = name := by
  rw [List.any_eq_false] at h
  refine (List.map_congr_left fun c hc => ?_).trans (List.map_id' name)
  exact if_neg (h c hc)

theorem toAsciiLowercase_idem (name : List UInt8) : toAsciiLowercase (toAsciiLowercase name) = toAsciiLowercase name :=
  toAsciiLowercase_eq_self (any_isUpper_toAsciiLowercase name)

theorem checkLowercase_lower (name : List UInt8) : checkLowercase (toAsciiLowercase name) = .ok (toAsciiLowercase name) := by
  rw [checkLowercase, any_isUpper_toAsciiLowercase]
  rfl

theorem Header.size_lower (h : Header) : h.lower.size = h.size := by
  rw [size, lower, size, length_toAsciiLowercase]

/-! ## Indices -/

/-- What an index, counted from zero, stands for: the static table, and behind it the entries of the dynamic one. -/
def indexed (l : List Header) (i : Nat) : Option Header := (STATIC_HEADER_TABLE ++ l)[i]?

theorem length_STATIC_HEADER_TABLE : STATIC_HEADER_TABLE.length = 61 := rfl

variable {l : List Header} {i : Nat} {e : Header}

/-- An index of the reader stands for the entry of the writer, if that was sent as it is. -/
theorem indexed_lower (h : indexed l i = some e) (hname : toAsciiLowercase e.name = e.name) :
    indexed (l.map Header.lower) i = some e := by
  unfold indexed at h ⊢
  rcases Nat.lt_or_ge i STATIC_HEADER_TABLE.length with hlt | hge
  · rwa [List.getElem?_append_left hlt] at h ⊢
  · rw [List.getElem?_append_right hge] at h ⊢
    rw [List.getElem?_map, h, Option.map_some, Header.lower, hname]

/-- The reader finds what the index stands for. -/
theorem Reader.entryAt_eq {r : Reader} (h : r.Holds l) (hi : indexed l i = some e) : r.entryAt i = .ok (some e) := by
  unfold indexed at hi
  rw [entryAt]
  rcases Nat.lt_or_ge i STATIC_HEADER_TABLE.length with hlt | hge
  · rw [List.getElem?_append_left hlt] at hi
    rw [isStaticHeader, if_pos (by simp; omega), aload_of_getElem hi]
    rfl
  · rw [List.getElem?_append_right hge] at hi
    obtain ⟨free, hplaces, hnext⟩ := h.places
    have hlen' := congrArg List.length hplaces
    rw [List.length_append, List.length_map] at hlen'
    have hle := h.length_le
    have hlt := (List.getElem?_eq_some_iff.mp hi).1
    rw [length_STATIC_HEADER_TABLE] at hge hi hlt
    have hsub : int32 ((i : Int) - (61 : Nat)) = i - (61 : Nat) := int32_of_range (by omega) (by omega)
    have hindex : r.dynamicTableIndex (int32 ((i : Int) - STATIC_HEADER_TABLE.length)) = free.length + (i - 61 : Nat) := by
      rw [dynamicTableIndex, length_STATIC_HEADER_TABLE, hsub,
        int32_of_range (by omega) (by omega)]
      omega
    rw [isStaticHeader, if_neg (by rw [length_STATIC_HEADER_TABLE]; simp; omega)]
    dsimp only
    rw [hindex, if_neg (by omega), hplaces]
    exact aload_append rfl (by rw [List.getElem?_map, hi]; rfl)

/-! ## What the writer finds -/

/-- An index of `writeHeaders`, counted from one, for an entry as it should be. -/
def Found (l : List Header) (P : Header → Prop) (index : Int) : Prop :=
  index = -1 ∨ ∃ i e, index = ((i + 1 : Nat) : Int) ∧ indexed l i = some e ∧ P e

/-- The pairs of the static table: the names at their places. -/
theorem static_pairs : ∀ k < 7, 0 < k →
    (STATIC_HEADER_TABLE[k - 1]?.map (·.name) = STATIC_HEADER_TABLE[k]?.map (·.name)) ∨
      STATIC_HEADER_TABLE[k + 1]?.map (·.name) = STATIC_HEADER_TABLE[k]?.map (·.name) := by
  decide +kernel

/-- What `NAME_TO_FIRST_INDEX` gives is the first entry of the name. -/
theorem nameToFirstIndex_eq_some {name : List UInt8} {k : Nat} (h : NAME_TO_FIRST_INDEX name = some k) :
    (∃ e, STATIC_HEADER_TABLE[k]? = some e ∧ e.name = name) ∧
      ∀ j < k, STATIC_HEADER_TABLE[j]?.map (·.name) ≠ some name := by
  obtain ⟨hlt, hname, hfirst⟩ := List.findIdx?_eq_some_iff_getElem.mp h
  refine ⟨⟨_, List.getElem?_eq_getElem hlt, of_decide_eq_true hname⟩, fun j hj heq => ?_⟩
  have hjlt : j < STATIC_HEADER_TABLE.length := hj.trans hlt
  rw [List.getElem?_eq_getElem hjlt, Option.map_some] at heq
  exact hfirst j hj (decide_eq_true (Option.some.inj heq))

theorem indexed_of_static {k : Nat} (h : STATIC_HEADER_TABLE[k]? = some e) : indexed l k = some e := by
  obtain ⟨hlt, -⟩ := List.getElem?_eq_some_iff.mp h
  rw [indexed, List.getElem?_append_left hlt, h]

namespace Writer

variable {name value : List UInt8}

/-- What is found in the static table. -/
theorem searchStatic_spec (name value : List UInt8) : ∃ headerIndex headerNameIndex,
    searchStatic name value = .ok (headerIndex, headerNameIndex) ∧ Found l (· = ⟨name, value⟩) headerIndex ∧
      Found l (·.name = name) headerNameIndex := by
  rw [searchStatic]
  cases hfirst : NAME_TO_FIRST_INDEX name with
  | none => exact ⟨-1, -1, rfl, .inl rfl, .inl rfl⟩
  | some k =>
    obtain ⟨⟨e, he, hname⟩, hbefore⟩ := nameToFirstIndex_eq_some hfirst
    have hfoundName : Found l (·.name = name) ((k : Int) + 1) := .inr ⟨k, e, by omega, indexed_of_static he, hname⟩
    dsimp only
    by_cases hrange : 1 < (k : Int) + 1 ∧ (k : Int) + 1 < 8
    · rw [if_pos hrange, show (k : Int) + 1 - 1 = (k : Nat) by omega, aload_of_getElem he, ok_bind]
      by_cases hvalue : e.value = value
      · rw [if_pos hvalue]
        refine ⟨_, _, rfl, .inr ⟨k, e, by omega, indexed_of_static he, ?_⟩, hfoundName⟩
        rw [← hname, ← hvalue]
      · -- The name is the first of a pair.
        obtain ⟨e', he', hname'⟩ : ∃ e', STATIC_HEADER_TABLE[k + 1]? = some e' ∧ e'.name = name := by
          rcases static_pairs k (by omega) (by omega) with hpair | hpair
          · rw [he, Option.map_some, hname] at hpair
            exact absurd hpair (hbefore (k - 1) (by omega))
          · rw [he, Option.map_some, hname] at hpair
            exact Option.map_eq_some_iff.mp hpair
        rw [if_neg hvalue, show (k : Int) + 1 = (k + 1 : Nat) by omega, aload_of_getElem he', ok_bind]
        by_cases hvalue' : e'.value = value
        · rw [if_pos hvalue']
          refine ⟨_, _, rfl, .inr ⟨k + 1, e', by omega, indexed_of_static he', ?_⟩, hfoundName⟩
          rw [← hname', ← hvalue']
        · rw [if_neg hvalue']
          exact ⟨-1, _, rfl, .inl rfl, hfoundName⟩
    · rw [if_neg hrange]
      exact ⟨-1, _, rfl, .inl rfl, hfoundName⟩

/-- What the loop finds in the dynamic table, after the entries that it has passed. -/
theorem searchLoop_spec {passed rest : List Header} {next j headerNameIndex : Int} (hl : l = passed ++ rest)
    (hj : j = next + 1 + passed.length) (hname : Found l (·.name = name) headerNameIndex) :
    ∃ headerIndex headerNameIndex',
      searchLoop name value next j (rest.map some) headerNameIndex = .ok (headerIndex, headerNameIndex') ∧
      Found l (· = ⟨name, value⟩) headerIndex ∧ Found l (·.name = name) headerNameIndex' := by
  induction rest generalizing passed j headerNameIndex with
  | nil => exact ⟨-1, _, rfl, .inl rfl, hname⟩
  | cons h rest ih =>
    have hpassed : l = passed ++ [h] ++ rest := by rw [hl, List.append_assoc, List.singleton_append]
    have hj' : j + 1 = next + 1 + (passed ++ [h]).length := by
      rw [List.length_append, List.length_singleton]
      omega
    have hat : indexed l (61 + passed.length) = some h := by
      rw [indexed, List.getElem?_append_right (by rw [length_STATIC_HEADER_TABLE]; omega), length_STATIC_HEADER_TABLE, hl]
      simp
    have hindex : j - next + STATIC_HEADER_TABLE.length = ((61 + passed.length + 1 : Nat) : Int) := by
      rw [length_STATIC_HEADER_TABLE]
      omega
    rw [List.map_cons, searchLoop, deref, ok_bind, hindex]
    by_cases hn : h.name = name
    · rw [if_pos hn]
      by_cases hv : h.value = value
      · rw [if_pos hv]
        refine ⟨_, _, rfl, .inr ⟨_, h, rfl, hat, ?_⟩, hname⟩
        rw [← hn, ← hv]
      · rw [if_neg hv]
        refine ih hpassed hj' ?_
        split
        · exact .inr ⟨_, h, rfl, hat, hn⟩
        · exact hname
    · rw [if_neg hn]
      exact ih hpassed hj' hname

/-- The indices that `writeHeaders` finds are those of the header and of its name. -/
theorem search_spec {w : Writer} (h : w.Holds l) (name value : List UInt8) : ∃ headerIndex headerNameIndex,
    w.search name value = .ok (headerIndex, headerNameIndex) ∧ Found l (· = ⟨name, value⟩) headerIndex ∧
      Found l (·.name = name) headerNameIndex := by
  obtain ⟨headerIndex, headerNameIndex, hstatic, hheader, hname⟩ := searchStatic_spec (l := l) name value
  rw [search, hstatic, ok_bind]
  dsimp only
  by_cases hnone : headerIndex = -1
  · obtain ⟨free, hplaces, hnext⟩ := h.places
    have hdrop : w.dynamicTable.drop (w.nextHeaderIndex + 1).toNat = l.map some := by
      rw [hplaces, show (w.nextHeaderIndex + 1).toNat = free.length by omega, List.drop_left]
    rw [if_pos hnone, hdrop]
    exact searchLoop_spec (List.nil_append l).symm (by simp) hname
  · rw [if_neg hnone]
    exact ⟨_, _, rfl, hheader, hname⟩

end Writer

/-! ## The first byte of a header -/

/-- The flags that `readHeaders` looks at, as ranges of the byte. -/
theorem flags (b : UInt8) : (b &&& 0x80 = 0x80 ↔ 128 ≤ b.toNat) ∧ (b &&& 0x40 = 0x40 ↔ 64 ≤ b.toNat % 128) ∧
    (b &&& 0x20 = 0x20 ↔ 32 ≤ b.toNat % 64) := by
  have hall : ∀ n < 256, (UInt8.ofNat n &&& 0x80 = 0x80 ↔ 128 ≤ n) ∧ (UInt8.ofNat n &&& 0x40 = 0x40 ↔ 64 ≤ n % 128) ∧
      (UInt8.ofNat n &&& 0x20 = 0x20 ↔ 32 ≤ n % 64) := by
    decide +kernel
  simpa using hall b.toNat b.toNat_lt

theorem ne_of_toNat_ne {b c : UInt8} (h : b.toNat ≠ c.toNat) : b ≠ c := fun heq => h (congrArg UInt8.toNat heq)

namespace Reader

variable {r : Reader} {b : UInt8} {n : Nat} {source rest : List UInt8}

/-- An indexed header. -/
theorem readHeader_indexed (hn : 0 < n) (hle : n ≤ 2147483647) (hb : b.toNat = 0x80 + min n PREFIX_7_BITS)
    (hread : readInt b PREFIX_7_BITS source = .ok ((n : Int), rest)) :
    r.readHeader b source = (r.readIndexedHeader (n - 1 : Nat)).map (·, rest) := by
  unfold PREFIX_7_BITS at hb
  obtain ⟨h80, -, -⟩ := flags b
  have hint : int32 ((n : Int) - 1) = (n - 1 : Nat) := by
    rw [int32_of_range (by omega) (by omega)]
    omega
  rw [readHeader, if_neg (ne_of_toNat_ne (by change _ ≠ 128; omega)), if_pos (h80.mpr (by omega)), hread, ok_bind]
  dsimp only
  rw [hint]
  cases r.readIndexedHeader (n - 1 : Nat) <;> rfl

/-- A header that is inserted, with a new name. -/
theorem readHeader_newName :
    r.readHeader 0x40 source = r.readLiteralHeaderWithIncrementalIndexingNewName source := by
  rw [readHeader, if_neg (by decide), if_neg (by decide), if_pos rfl]

/-- A header that is inserted, with a name that has an index. -/
theorem readHeader_indexedName (hn : 0 < n) (hle : n ≤ 2147483647) (hb : b.toNat = 0x40 + min n PREFIX_6_BITS)
    (hread : readInt b PREFIX_6_BITS source = .ok ((n : Int), rest)) :
    r.readHeader b source = r.readLiteralHeaderWithIncrementalIndexingIndexedName (n - 1 : Nat) rest := by
  unfold PREFIX_6_BITS at hb
  obtain ⟨h80, h40, -⟩ := flags b
  have hint : int32 ((n : Int) - 1) = (n - 1 : Nat) := by
    rw [int32_of_range (by omega) (by omega)]
    omega
  rw [readHeader, if_neg (ne_of_toNat_ne (by change _ ≠ 128; omega)), if_neg (mt h80.mp (by omega)),
    if_neg (ne_of_toNat_ne (by change _ ≠ 64; omega)), if_pos (h40.mpr (by omega)), hread, ok_bind]
  dsimp only
  rw [hint]

/-- A header that is not inserted, with a name that has an index. -/
theorem readHeader_withoutIndexing (hn : 0 < n) (hle : n ≤ 2147483647) (hb : b.toNat = min n PREFIX_4_BITS)
    (hread : readInt b PREFIX_4_BITS source = .ok ((n : Int), rest)) :
    r.readHeader b source = r.readLiteralHeaderWithoutIndexingIndexedName (n - 1 : Nat) rest := by
  unfold PREFIX_4_BITS at hb
  obtain ⟨h80, h40, h20⟩ := flags b
  have hint : int32 ((n : Int) - 1) = (n - 1 : Nat) := by
    rw [int32_of_range (by omega) (by omega)]
    omega
  rw [readHeader, if_neg (ne_of_toNat_ne (by change _ ≠ 128; omega)), if_neg (mt h80.mp (by omega)),
    if_neg (ne_of_toNat_ne (by change _ ≠ 64; omega)), if_neg (mt h40.mp (by omega)), if_neg (mt h20.mp (by omega)),
    if_neg (not_or.mpr ⟨ne_of_toNat_ne (by change _ ≠ 16; omega), ne_of_toNat_ne (by change _ ≠ 0; omega)⟩), hread, ok_bind]
  dsimp only
  rw [hint]

/-- A size update. -/
theorem readHeader_sizeUpdate (hb : b.toNat = 0x20 + min n PREFIX_5_BITS)
    (hread : readInt b PREFIX_5_BITS source = .ok ((n : Int), rest)) :
    r.readHeader b source = (r.readSizeUpdate n).map (·, rest) := by
  unfold PREFIX_5_BITS at hb
  obtain ⟨h80, h40, h20⟩ := flags b
  rw [readHeader, if_neg (ne_of_toNat_ne (by change _ ≠ 128; omega)), if_neg (mt h80.mp (by omega)),
    if_neg (ne_of_toNat_ne (by change _ ≠ 64; omega)), if_neg (mt h40.mp (by omega)), if_pos (h20.mpr (by omega)), hread,
    ok_bind]
  dsimp only
  cases r.readSizeUpdate n <;> rfl

/-- A round of the loop of `readHeaders`, with enough of them left. -/
theorem readHeadersLoop_round {r' : Reader} {rounds : Nat} (h : r.readHeader b source = .ok (r', rest))
    (hrounds : (b :: source).length ≤ rounds) (hle : rest.length ≤ source.length) :
    ∃ rounds', rest.length ≤ rounds' ∧ readHeadersLoop rounds r (b :: source) = readHeadersLoop rounds' r' rest := by
  rw [List.length_cons] at hrounds
  obtain ⟨left, rfl⟩ : ∃ n, rounds = n + 1 := ⟨rounds - 1, by omega⟩
  refine ⟨left, by omega, ?_⟩
  rw [readHeadersLoop, h]
  rfl

end Reader

/-! ## One header -/

/-- Within a block: the tables hold the same headers, and have the same size. -/
structure Synced (w : Writer) (r : Reader) (m : Nat) (l : List Header) : Prop where
  writer : w.Holds l
  reader : r.Holds (l.map Header.lower)
  writer_max : w.maxDynamicTableByteCount = m
  reader_max : r.maxDynamicTableByteCount = m
  range : m ≤ 1073741823
  fits : total Header.size l ≤ m

/-- Name and value are not too long. -/
def Header.Short (h : Header) : Prop := Fits h.name ∧ Fits h.value

instance (h : Header) : Decidable h.Short := inferInstanceAs (Decidable (_ ∧ _))

/-- What is written for a header is a first byte and more, from which the reader gets the header in lower case, whatever
follows. -/
def Sends (r : Reader) (bytes : List UInt8) (r' : Reader) (header : Header) : Prop :=
  (∃ b rest, bytes = b :: rest ∧ ∀ source, r.readHeader b (rest ++ source) = .ok (r', source)) ∧
    r'.headerList = r.headerList ++ [some header.lower] ∧ r'.headerTableSizeSetting = r.headerTableSizeSetting

section
variable {w : Writer} {r : Reader} {m : Nat} {header : Header}

/-- Both insert the header. -/
theorem insert_synced (h : Synced w r m l) (hshort : header.Short) : ∃ t r',
    w.insertIntoDynamicTable header = .ok { w with toDynamicTable := t } ∧
      r.insertIntoDynamicTable header.lower = .ok r' ∧
      Synced { w with toDynamicTable := t } r' m (keep Header.size m (header :: l)) ∧
      r'.headerList = r.headerList ++ [some header.lower] ∧ r'.headerTableSizeSetting = r.headerTableSizeSetting := by
  have hsize : header.size ≤ 2147483647 := by
    obtain ⟨hname, hvalue⟩ := hshort
    unfold Fits at hname hvalue
    unfold Header.size
    omega
  obtain ⟨t, hwrite, hholds, hmax⟩ := Writer.insertIntoDynamicTable_holds h.writer h.range h.writer_max h.fits hsize
  obtain ⟨r', hread, hholds', hmax', hlist, hsetting⟩ := Reader.insertIntoDynamicTable_holds h.reader h.range h.reader_max
    (by rw [total_map Header.size_lower]; exact h.fits) (by rw [Header.size_lower]; exact hsize)
  rw [← List.map_cons, keep_map Header.size_lower] at hholds'
  exact ⟨t, r', hwrite, hread, ⟨hholds, hholds', hmax, hmax', h.range, total_keep_le _ _⟩, hlist, hsetting⟩

/-- An index that was found is not too large, and the reader finds the entry too. -/
theorem Found.entryAt {P : Header → Prop} {index : Int} (h : Synced w r m l) (hfound : Found l P index) (hne : index ≠ -1)
    (hlower : ∀ e, P e → toAsciiLowercase e.name = e.name) :
    ∃ n : Nat, index = n ∧ 0 < n ∧ n ≤ 2147483647 ∧ ∃ e, P e ∧ r.entryAt (n - 1 : Nat) = .ok (some e) := by
  obtain hnone | ⟨i, e, rfl, hi, he⟩ := hfound
  · exact absurd hnone hne
  have hlt := (List.getElem?_eq_some_iff.mp hi).1
  rw [List.length_append, length_STATIC_HEADER_TABLE] at hlt
  have hlen := length_mul_le l
  have hfits := h.fits
  have hrange := h.range
  exact ⟨i + 1, rfl, by omega, by omega, e, he, Reader.entryAt_eq h.reader (indexed_lower hi (hlower e he))⟩

theorem Found.getName {index : Int} (h : Synced w r m l)
    (hfound : Found l (·.name = toAsciiLowercase header.name) index) (hne : index ≠ -1) :
    ∃ n : Nat, index = n ∧ 0 < n ∧ n ≤ 2147483647 ∧ r.getName (n - 1 : Nat) = .ok header.lower.name := by
  obtain ⟨n, hindex, hpos, hle, e, he, hentry⟩ := hfound.entryAt h hne fun e he => by rw [he, toAsciiLowercase_idem]
  refine ⟨n, hindex, hpos, hle, ?_⟩
  rw [Reader.getName, hentry, ok_bind, deref, ok_bind, he]
  rfl

/-- The reader with the header added to its list. -/
theorem addHeader_synced (h : Synced w r m l) (entry : Option Header) : Synced w (r.addHeader entry) m l :=
  ⟨h.writer, h.reader, h.writer_max, h.reader_max, h.range, h.fits⟩

/-- What the writer sends for a header is read as the header, and the tables hold the same headers again. -/
theorem writeHeader_synced (h : Synced w r m l) (hshort : header.Short) : ∃ t bytes r' l',
    w.writeHeader header = .ok ({ w with toDynamicTable := t }, bytes) ∧ Sends r bytes r' header ∧
      Synced { w with toDynamicTable := t } r' m l' := by
  obtain ⟨hfitsName, hfitsValue⟩ := hshort
  have hfitsLower : Fits (toAsciiLowercase header.name) := by
    unfold Fits
    rw [length_toAsciiLowercase]
    exact hfitsName
  obtain ⟨headerIndex, headerNameIndex, hsearch, hheader, hname⟩ :=
    Writer.search_spec h.writer (toAsciiLowercase header.name) header.value
  rw [Writer.writeHeader]
  dsimp only
  rw [hsearch, ok_bind]
  dsimp only
  by_cases hindexed : headerIndex ≠ -1
  · -- The index of the header.
    obtain ⟨n, rfl, hpos, hle, e, rfl, hentry⟩ := hheader.entryAt h hindexed fun e he => by rw [he, toAsciiLowercase_idem]
    obtain ⟨b, rest, hwrite, hb, hread⟩ := readInt_writeInt PREFIX_7_BITS 0x80 7 1 rfl rfl (by decide) hle
    rw [if_pos hindexed]
    refine ⟨_, _, r.addHeader (some header.lower), l, rfl, ⟨⟨b, rest, hwrite, fun source => ?_⟩, rfl, rfl⟩,
      addHeader_synced h _⟩
    rw [Reader.readHeader_indexed hpos hle hb (hread source), Reader.readIndexedHeader, hentry]
    rfl
  rw [if_neg hindexed]
  by_cases hnoName : headerNameIndex = -1
  · -- The name and the value.
    obtain ⟨t, r', hinsert, hreader, hsynced, hlist, hsetting⟩ := insert_synced h ⟨hfitsName, hfitsValue⟩
    rw [if_pos hnoName, hinsert]
    refine ⟨t, _, r', _, rfl, ⟨⟨_, _, rfl, fun source => ?_⟩, hlist, hsetting⟩, hsynced⟩
    rw [Reader.readHeader_newName, Reader.readLiteralHeaderWithIncrementalIndexingNewName, List.append_assoc,
      readByteString_writeByteString w hfitsLower, ok_bind]
    dsimp only
    rw [checkLowercase_lower, ok_bind, readByteString_writeByteString w hfitsValue, ok_bind]
    dsimp only
    change r.insertIntoDynamicTable header.lower >>= _ = _
    rw [hreader, ok_bind]
  rw [if_neg hnoName]
  obtain ⟨n, rfl, hpos, hle, hgetName⟩ := hname.getName h hnoName
  by_cases hpseudo : PSEUDO_PREFIX.isPrefixOf (toAsciiLowercase header.name) ∧ TARGET_AUTHORITY ≠ toAsciiLowercase header.name
  · -- The index of the name and the value; the header is not inserted.
    obtain ⟨b, rest, hwrite, hb, hread⟩ := readInt_writeInt PREFIX_4_BITS 0 4 0 rfl rfl (by decide) hle
    rw [Nat.zero_add] at hb
    rw [if_pos hpseudo, hwrite, List.cons_append]
    refine ⟨_, _, r.addHeader (some header.lower), l, rfl, ⟨⟨_, _, rfl, fun source => ?_⟩, rfl, rfl⟩,
      addHeader_synced h _⟩
    rw [List.append_assoc, Reader.readHeader_withoutIndexing hpos hle hb (hread _),
      Reader.readLiteralHeaderWithoutIndexingIndexedName, hgetName, ok_bind, readByteString_writeByteString w hfitsValue,
      ok_bind]
    rfl
  · -- The index of the name and the value.
    obtain ⟨t, r', hinsert, hreader, hsynced, hlist, hsetting⟩ := insert_synced h ⟨hfitsName, hfitsValue⟩
    obtain ⟨b, rest, hwrite, hb, hread⟩ := readInt_writeInt PREFIX_6_BITS 0x40 6 1 rfl rfl (by decide) hle
    rw [if_neg hpseudo, hinsert, hwrite, List.cons_append]
    refine ⟨t, _, r', _, rfl, ⟨⟨_, _, rfl, fun source => ?_⟩, hlist, hsetting⟩, hsynced⟩
    rw [List.append_assoc, Reader.readHeader_indexedName hpos hle hb (hread _),
      Reader.readLiteralHeaderWithIncrementalIndexingIndexedName, hgetName, ok_bind,
      readByteString_writeByteString w hfitsValue, ok_bind]
    change r.insertIntoDynamicTable header.lower >>= _ = _
    rw [hreader, ok_bind]

end

end Hpack

end LibraLive

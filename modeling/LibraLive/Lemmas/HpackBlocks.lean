import LibraLive.Lemmas.HpackSync

/-!
# Blocks of headers and changes of the size

Between two blocks the writer may change the size of its table, more than once. It tells the reader the smallest size since
the last block and the one it has come to, and that is as if it had told all of them (`Linked`): what is left of the entries
depends on the smallest size only (`SizedTable.keep_keep`).
-/

namespace LibraLive

namespace Hpack

open Java SizedTable

/-- Between two blocks: the writer's table is what is left of the reader's after the smallest size since the last block. -/
structure Linked (setting : Int) (w : Writer) (r : Reader) (m s k : Nat) (lw lr : List Header) : Prop where
  writer : w.Holds lw
  reader : r.Holds lr
  writer_max : w.maxDynamicTableByteCount = m
  smallest : w.smallestHeaderTableSizeSetting = s
  reader_max : r.maxDynamicTableByteCount = k
  reader_setting : r.headerTableSizeSetting = setting
  range : m ≤ 1073741823
  range' : k ≤ 1073741823
  fits : total Header.size lw ≤ m
  fits' : total Header.size lr ≤ k
  entries : lw.map Header.lower = keep Header.size s lr
  order : s ≤ m ∨ (s = 2147483647 ∧ k ≤ m)
  told : w.emitDynamicTableSizeUpdate = false → m = k ∧ s = 2147483647
  untold : w.emitDynamicTableSizeUpdate = true → (m : Int) ≤ setting

variable {w : Writer} {r : Reader} {setting : Int} {m s k : Nat} {l lw lr : List Header}

/-- The new objects. -/
theorem linked_new {size : Nat} (hsize : size ≤ 1073741823) (setting : Int) (useCompression : Bool) :
    Linked setting (.new size useCompression) (.new setting size) size 2147483647 size [] [] where
  writer := DynamicTable.new_holds _
  reader := DynamicTable.new_holds _
  writer_max := rfl
  smallest := rfl
  reader_max := rfl
  reader_setting := rfl
  range := hsize
  range' := hsize
  fits := Nat.zero_le _
  fits' := Nat.zero_le _
  entries := rfl
  order := .inr ⟨rfl, Nat.le_refl _⟩
  told := fun _ => ⟨rfl, rfl⟩
  untold := fun h => Bool.noConfusion h

/-- The header list is taken. -/
theorem Linked.reset (h : Linked setting w r m s k lw lr) : Linked setting w { r with headerList := [] } m s k lw lr :=
  { h with }

/-- To shrink a table twice comes to shrinking it to the smaller size. -/
theorem keep_keep_min (m n : Nat) (l : List Header) :
    keep Header.size m (keep Header.size n l) = keep Header.size (min n m) l := by
  rcases Nat.le_total m n with h | h
  · rw [keep_keep h, Nat.min_eq_right h]
  · rw [Nat.min_eq_left h, keep_eq_self ((total_keep_le n l).trans h)]

/-- `setHeaderTableSizeSetting` comes through for a size that is not negative. -/
theorem setHeaderTableSizeSetting_linked {n : Int} (h : Linked setting w r m s k lw lr) (hn : 0 ≤ n)
    (hsetting : min n SETTINGS_HEADER_TABLE_SIZE_LIMIT ≤ setting) :
    ∃ w' m' s' lw', w.setHeaderTableSizeSetting n = .ok w' ∧ Linked setting w' r m' s' k lw' lr := by
  obtain ⟨size, heff⟩ : ∃ size : Nat, min n SETTINGS_HEADER_TABLE_SIZE_LIMIT = size :=
    ⟨(min n SETTINGS_HEADER_TABLE_SIZE_LIMIT).toNat, by unfold SETTINGS_HEADER_TABLE_SIZE_LIMIT; omega⟩
  have hle : size ≤ 16384 := by
    unfold SETTINGS_HEADER_TABLE_SIZE_LIMIT at heff
    omega
  have hmax := h.writer_max
  have hsmallest := h.smallest
  rw [Writer.setHeaderTableSizeSetting, heff]
  by_cases hsame : w.maxDynamicTableByteCount = size
  · rw [if_pos hsame]
    exact ⟨_, m, s, lw, rfl, { h with }⟩
  · obtain ⟨t, hadjust, hholds, htmax⟩ := DynamicTable.adjustDynamicTableByteCount_holds true
      (t := { w.toDynamicTable with maxDynamicTableByteCount := (size : Int) }) (l := lw)
      ⟨⟨h.writer.places, h.writer.count, h.writer.length_pos, h.writer.length_le⟩, h.writer.bytes, h.writer.range⟩
      (show size ≤ 2147483647 by omega) rfl
    rw [if_neg hsame, hadjust, ok_bind]
    have hfits := h.fits
    have horder := h.order
    by_cases hless : size < m
    · refine ⟨_, size, min s size, keep Header.size size lw, rfl, ?_⟩
      refine { h with
        writer := hholds, writer_max := htmax, smallest := ?_, range := by omega, fits := total_keep_le _ _, entries := ?_,
        order := .inl (Nat.min_le_right _ _), told := fun h => Bool.noConfusion h, untold := fun _ => heff ▸ hsetting }
      · dsimp only
        rw [if_pos (by omega), hsmallest]
        omega
      · rw [← keep_map Header.size_lower, h.entries, keep_keep_min]
    · refine ⟨_, size, s, keep Header.size size lw, rfl, ?_⟩
      refine { h with
        writer := hholds, writer_max := htmax, smallest := ?_, range := by omega, fits := total_keep_le _ _, entries := ?_,
        order := by omega, told := fun h => Bool.noConfusion h, untold := fun _ => heff ▸ hsetting }
      · dsimp only
        rw [if_neg (by omega), hsmallest]
      · rw [keep_eq_self (by omega), h.entries]

/-! ## A block -/

/-- What the loop of `writeHeaders` writes is read as the headers in lower case. -/
theorem writeHeadersLoop_synced {block : List Header} (h : Synced w r m l) (hshort : ∀ header ∈ block, header.Short) :
    ∃ t bytes r' l', w.writeHeadersLoop block = .ok ({ w with toDynamicTable := t }, bytes) ∧
      (∀ rounds, bytes.length ≤ rounds → Reader.readHeadersLoop rounds r bytes = .ok r') ∧
      r'.headerList = r.headerList ++ block.map (some ·.lower) ∧ r'.headerTableSizeSetting = r.headerTableSizeSetting ∧
      Synced { w with toDynamicTable := t } r' m l' := by
  induction block generalizing w r l with
  | nil =>
    refine ⟨w.toDynamicTable, [], r, l, rfl, fun rounds _ => ?_, (List.append_nil _).symm, rfl, h⟩
    rw [Reader.readHeadersLoop]
  | cons header block ih =>
    obtain ⟨hfirst, hrest⟩ := List.forall_mem_cons.mp hshort
    obtain ⟨t₁, bytes₁, r₁, l₁, hwrite₁, ⟨⟨b, rest, rfl, hread₁⟩, hlist₁, hsetting₁⟩, hsynced₁⟩ :=
      writeHeader_synced h hfirst
    obtain ⟨t₂, bytes₂, r₂, l₂, hwrite₂, hread₂, hlist₂, hsetting₂, hsynced₂⟩ := ih hsynced₁ hrest
    refine ⟨t₂, b :: rest ++ bytes₂, r₂, l₂, ?_, fun rounds hrounds => ?_, ?_, hsetting₂.trans hsetting₁, hsynced₂⟩
    · rw [Writer.writeHeadersLoop, hwrite₁, ok_bind]
      dsimp only
      rw [hwrite₂]
      rfl
    · rw [List.cons_append] at hrounds ⊢
      obtain ⟨rounds', hrounds', hloop⟩ := Reader.readHeadersLoop_round (hread₁ bytes₂) hrounds (by simp)
      rw [hloop, hread₂ rounds' hrounds']
    · rw [hlist₂, hlist₁, List.append_assoc, List.singleton_append, List.map_cons]

/-- What a size update is read as. -/
theorem readSizeUpdate_holds {n : Nat} (h : r.Holds lr) (hsetting : (n : Int) ≤ r.headerTableSizeSetting)
    (hn : n ≤ 2147483647) : ∃ t, r.readSizeUpdate n = .ok { r with toDynamicTable := t } ∧
      t.Holds (keep Header.size n lr) ∧ t.maxDynamicTableByteCount = n := by
  obtain ⟨t, hadjust, hholds, hmax⟩ := DynamicTable.adjustDynamicTableByteCount_holds false
    (t := { r.toDynamicTable with maxDynamicTableByteCount := (n : Int) }) (l := lr)
    ⟨⟨h.places, h.count, h.length_pos, h.length_le⟩, h.bytes, h.range⟩ hn rfl
  refine ⟨t, ?_, hholds, hmax⟩
  rw [Reader.readSizeUpdate, if_neg (by omega), hadjust]
  rfl

/-- The rounds of `readHeaders` that take the bytes off the wire, whatever is behind them, and leave the reader with another
table. -/
def Updates (r : Reader) (bytes : List UInt8) (t : DynamicTable) : Prop :=
  ∀ more rounds, (bytes ++ more).length ≤ rounds → ∃ rounds', more.length ≤ rounds' ∧
    Reader.readHeadersLoop rounds r (bytes ++ more) = Reader.readHeadersLoop rounds' { r with toDynamicTable := t } more

/-- A size update on the wire. -/
theorem readSizeUpdate_updates {n : Nat} (h : r.Holds lr) (hsetting : (n : Int) ≤ r.headerTableSizeSetting)
    (hn : n ≤ 2147483647) :
    ∃ t, Updates r (Writer.writeInt n PREFIX_5_BITS 0x20) t ∧ t.Holds (keep Header.size n lr) ∧
      t.maxDynamicTableByteCount = n := by
  obtain ⟨t, hupdate, hholds, hmax⟩ := readSizeUpdate_holds h hsetting hn
  refine ⟨t, fun more rounds hrounds => ?_, hholds, hmax⟩
  obtain ⟨b, rest, hwrite, hb, hread⟩ := readInt_writeInt PREFIX_5_BITS 0x20 5 1 rfl rfl (by decide) hn
  rw [hwrite, List.cons_append] at hrounds ⊢
  have hround : r.readHeader b (rest ++ more) = .ok ({ r with toDynamicTable := t }, more) := by
    rw [Reader.readHeader_sizeUpdate hb (hread more), hupdate]
    rfl
  exact Reader.readHeadersLoop_round hround hrounds (by simp)

/-- Size updates one after the other. -/
theorem Updates.append {bytes bytes' : List UInt8} {t t' : DynamicTable} (h : Updates r bytes t)
    (h' : Updates { r with toDynamicTable := t } bytes' t') : Updates r (bytes ++ bytes') t' := by
  intro more rounds hrounds
  rw [List.append_assoc] at hrounds ⊢
  obtain ⟨rounds₁, hrounds₁, hloop₁⟩ := h (bytes' ++ more) rounds hrounds
  obtain ⟨rounds₂, hrounds₂, hloop₂⟩ := h' more rounds₁ hrounds₁
  exact ⟨rounds₂, hrounds₂, hloop₁.trans hloop₂⟩

/-- The size updates at the beginning of a block leave the two tables with the same headers. -/
theorem emitSizeUpdates_synced (h : Linked setting w r m s k lw lr) :
    ∃ t, Updates r w.emitSizeUpdates.2 t ∧ Synced w.emitSizeUpdates.1 { r with toDynamicTable := t } m lw ∧
      w.emitSizeUpdates.1.emitDynamicTableSizeUpdate = false ∧
      w.emitSizeUpdates.1.smallestHeaderTableSizeSetting = MAX_VALUE := by
  have hsetting := h.reader_setting
  have hrange := h.range
  have horder := h.order
  have hfits := h.fits'
  rw [Writer.emitSizeUpdates]
  cases hemit : w.emitDynamicTableSizeUpdate with
  | false =>
    obtain ⟨rfl, rfl⟩ := h.told hemit
    refine ⟨r.toDynamicTable, fun more rounds hrounds => ⟨rounds, hrounds, rfl⟩, ?_, hemit, h.smallest⟩
    have hentries := h.entries
    rw [keep_eq_self (by omega)] at hentries
    exact ⟨h.writer, hentries ▸ h.reader, h.writer_max, h.reader_max, h.range, h.fits⟩
  | true =>
    have huntold := h.untold hemit
    simp only [if_true]
    rw [h.writer_max, h.smallest]
    by_cases hless : (s : Int) < m
    · rw [if_pos hless]
      obtain ⟨t₁, hupdates₁, hholds₁, -⟩ :=
        readSizeUpdate_updates h.reader (show (s : Int) ≤ r.headerTableSizeSetting by omega) (by omega)
      obtain ⟨t₂, hupdates₂, hholds₂, hmax₂⟩ := readSizeUpdate_updates (r := { r with toDynamicTable := t₁ }) hholds₁
        (show (m : Int) ≤ r.headerTableSizeSetting by omega) (by omega)
      refine ⟨t₂, hupdates₁.append hupdates₂, ?_, trivial, trivial⟩
      rw [keep_keep_min, Nat.min_eq_left (by omega), ← h.entries] at hholds₂
      exact ⟨h.writer, hholds₂, h.writer_max, hmax₂, h.range, h.fits⟩
    · rw [if_neg hless, List.nil_append]
      obtain ⟨t, hupdates, hholds, hmax⟩ :=
        readSizeUpdate_updates h.reader (show (m : Int) ≤ r.headerTableSizeSetting by omega) (by omega)
      refine ⟨t, hupdates, ?_, trivial, trivial⟩
      have hentries : lw.map Header.lower = keep Header.size m lr := by
        rw [h.entries]
        rcases horder with hle | ⟨hs, hk⟩
        · rw [show s = m by omega]
        · rw [keep_eq_self (by omega), keep_eq_self (by omega)]
      exact ⟨h.writer, hentries ▸ hholds, h.writer_max, hmax, h.range, h.fits⟩

/-- A block is read as its headers in lower case, and the two tables hold the same headers. -/
theorem writeHeaders_linked {block : List Header} (h : Linked setting w r m s k lw lr)
    (hshort : ∀ header ∈ block, header.Short) :
    ∃ w' bytes r' l', w.writeHeaders block = .ok (w', bytes) ∧ r.readHeaders bytes = .ok r' ∧
      r'.headerList = r.headerList ++ block.map (some ·.lower) ∧
      Linked setting w' r' m 2147483647 m l' (l'.map Header.lower) := by
  obtain ⟨t, hupdates, hsynced, hemit, hsmallest⟩ := emitSizeUpdates_synced h
  obtain ⟨t', bytes, r', l', hwrite, hread, hlist, hsetting, hsynced'⟩ := writeHeadersLoop_synced hsynced hshort
  refine ⟨{ w.emitSizeUpdates.1 with toDynamicTable := t' }, w.emitSizeUpdates.2 ++ bytes, r', l', ?_, ?_, hlist, ?_⟩
  · rw [Writer.writeHeaders]
    dsimp only
    rw [hwrite, ok_bind]
  · obtain ⟨rounds, hrounds, hloop⟩ := hupdates bytes _ (Nat.le_refl _)
    rw [Reader.readHeaders, hloop, hread rounds hrounds]
  · have hfits := hsynced'.fits
    have hrange := h.range
    have htotal : total Header.size (l'.map Header.lower) ≤ m := by
      rw [total_map Header.size_lower]
      exact hfits
    exact {
      writer := hsynced'.writer, reader := hsynced'.reader, writer_max := hsynced'.writer_max, smallest := hsmallest
      reader_max := hsynced'.reader_max, reader_setting := hsetting.trans h.reader_setting, range := hrange, range' := hrange
      fits := hfits, fits' := htotal, entries := (keep_eq_self (by omega)).symm, order := .inr ⟨rfl, Nat.le_refl m⟩
      told := fun _ => ⟨rfl, rfl⟩, untold := fun h => absurd h (by rw [hemit]; decide) }

end Hpack

end LibraLive

import LibraLive.Lemmas.HpackBlocks

/-!
# The two ends of a header compression

A `Writer` and the `Reader` of the other end, with the blocks between them on the wire. Blocks are written, the size of the
table is changed and blocks are read in any order, the reader as far behind as it may be; what comes out are the headers that
were written, their names in lower case, as long as tables and strings are small enough for `int` (`Header.Short`). Below it,
`Huffman` gives back the bytes that were put into it.
-/

namespace LibraLive

/-! ## `Huffman` -/

/-- What `encode` writes for a sequence of bytes are their codes behind each other and fewer than eight ones, and `decode` gives
the bytes back. -/
theorem Huffman.decode_encode (data : List UInt8) :
    (∃ k < 8, Bits.ofBytes (encode data) = codeStream data ++ List.replicate k true) ∧ decode (encode data) = some data :=
  ⟨ofBytes_encode data, decode_of_reads (reads_encode data)⟩

/-- `encodedLength`, which decides whether a string is sent in the code, is the number of bytes that `encode` writes, for
every string whose code is an array. -/
theorem Huffman.encodedLength_eq {data : List UInt8} (h : data.length < 2 ^ 31) (hcode : (encode data).length < 2 ^ 31) :
    (encodedLength data).toInt = (encode data).length := by
  rw [encodedLength_cast h, BitVec.toInt_ofNat']
  exact Int.bmod_eq_of_le (by omega) (by omega)

theorem Huffman.encodedLength_eq_www : (encodedLength [0x77, 0x77, 0x77]).toInt = (encode [0x77, 0x77, 0x77]).length :=
  encodedLength_eq (by decide) (by decide +kernel)

namespace Hpack

open Java SizedTable

/-- What happens on a connection: the peer's setting arrives, a block is written, a block is read. -/
inductive LinkAct where
  | setHeaderTableSizeSetting (headerTableSizeSetting : Int)
  | writeHeaders (headerBlock : List Header)
  | readHeaders

/-- The writer, the blocks on the wire and the reader; and what was written and read so far. -/
structure Link where
  writer : Writer
  wire : List (List UInt8)
  reader : Reader
  sent : List (List Header)
  received : List (List (Option Header))

namespace Link

/-- A new connection. -/
def new (size setting : Int) (useCompression : Bool) : Link where
  writer := .new size useCompression
  wire := []
  reader := .new setting size
  sent := []
  received := []

/-- A step of the connection, which fails when the method throws. -/
def step (s : Link) : LinkAct → Result Link
  | .setHeaderTableSizeSetting n => do
    let writer ← s.writer.setHeaderTableSizeSetting n
    .ok { s with writer := writer }
  | .writeHeaders block => do
    let (writer, bytes) ← s.writer.writeHeaders block
    .ok { s with writer := writer, wire := s.wire ++ [bytes], sent := s.sent ++ [block] }
  | .readHeaders =>
    match s.wire with
    | [] => .ok s
    | bytes :: wire => do
      let reader ← s.reader.readHeaders bytes
      let (headerList, reader) := reader.getAndResetHeaderList
      .ok { s with wire := wire, reader := reader, received := s.received ++ [headerList] }

end Link

/-- The sizes that the reader allows, and headers that are not too long. -/
def LinkAct.Admissible (setting : Int) : LinkAct → Prop
  | .setHeaderTableSizeSetting n => 0 ≤ n ∧ min n SETTINGS_HEADER_TABLE_SIZE_LIMIT ≤ setting
  | .writeHeaders block => ∀ header ∈ block, header.Short
  | .readHeaders => True

instance (setting : Int) : DecidablePred (LinkAct.Admissible setting)
  | .setHeaderTableSizeSetting _ => inferInstanceAs (Decidable (_ ∧ _))
  | .writeHeaders block => inferInstanceAs (Decidable (∀ header ∈ block, header.Short))
  | .readHeaders => inferInstanceAs (Decidable True)

/-- The entries of a table, the newest one first. -/
def DynamicTable.entries (t : DynamicTable) : List (Option Header) := t.dynamicTable.drop (t.nextHeaderIndex + 1).toNat

theorem DynamicTable.Holds.entries_eq {t : DynamicTable} {l : List Header} (h : t.Holds l) : t.entries = l.map some := by
  obtain ⟨free, hplaces, hnext⟩ := h.places
  rw [entries, hplaces, show (t.nextHeaderIndex + 1).toNat = free.length by omega, List.drop_left]

/-- The reader reads the blocks on the wire as the blocks that were written, and then the writer's table is what is left of
its own. -/
def Follows (setting : Int) (w : Writer) : Reader → List (List UInt8) → List (List Header) → Prop
  | r, [], [] => r.headerList = [] ∧ ∃ m s k lw lr, Linked setting w r m s k lw lr
  | r, bytes :: wire, block :: blocks => ∃ r', r.readHeaders bytes = .ok r' ∧ r'.headerList = block.map (some ·.lower) ∧
      Follows setting w { r' with headerList := [] } wire blocks
  | _, _, _ => False

namespace Follows

variable {setting : Int} {w w' : Writer} {r : Reader} {wire : List (List UInt8)} {blocks : List (List Header)}

/-- The writer does something that the reader does not see. -/
theorem writer_step (h : Follows setting w r wire blocks)
    (hstep : ∀ r m s k lw lr, Linked setting w r m s k lw lr → ∃ m s lw, Linked setting w' r m s k lw lr) :
    Follows setting w' r wire blocks := by
  induction wire generalizing r blocks with
  | nil =>
    cases blocks with
    | nil =>
      obtain ⟨hlist, m, s, k, lw, lr, hlinked⟩ := h
      obtain ⟨m', s', lw', hlinked'⟩ := hstep r m s k lw lr hlinked
      exact ⟨hlist, m', s', k, lw', lr, hlinked'⟩
    | cons => exact h.elim
  | cons bytes wire ih =>
    cases blocks with
    | nil => exact h.elim
    | cons block blocks =>
      obtain ⟨r', hread, hlist, hrest⟩ := h
      exact ⟨r', hread, hlist, ih hrest⟩

/-- A block is put on the wire. -/
theorem send {bytes : List UInt8} {block : List Header} (h : Follows setting w r wire blocks)
    (hstep : ∀ r, r.headerList = [] → (∃ m s k lw lr, Linked setting w r m s k lw lr) →
      Follows setting w' r [bytes] [block]) :
    Follows setting w' r (wire ++ [bytes]) (blocks ++ [block]) := by
  induction wire generalizing r blocks with
  | nil =>
    cases blocks with
    | nil => exact hstep r h.1 h.2
    | cons => exact h.elim
  | cons bytes' wire ih =>
    cases blocks with
    | nil => exact h.elim
    | cons block' blocks =>
      obtain ⟨r', hread, hlist, hrest⟩ := h
      exact ⟨r', hread, hlist, ih hrest⟩

theorem length_eq (h : Follows setting w r wire blocks) : wire.length = blocks.length := by
  induction wire generalizing r blocks with
  | nil =>
    cases blocks with
    | nil => rfl
    | cons => exact h.elim
  | cons bytes wire ih =>
    cases blocks with
    | nil => exact h.elim
    | cons block blocks =>
      obtain ⟨r', -, -, hrest⟩ := h
      rw [List.length_cons, List.length_cons, ih hrest]

/-- The writer of every state that is followed is linked to some reader. -/
theorem exists_linked (h : Follows setting w r wire blocks) : ∃ r m s k lw lr, Linked setting w r m s k lw lr := by
  induction wire generalizing r blocks with
  | nil =>
    cases blocks with
    | nil => exact ⟨r, h.2⟩
    | cons => exact h.elim
  | cons bytes wire ih =>
    cases blocks with
    | nil => exact h.elim
    | cons block blocks =>
      obtain ⟨r', -, -, hrest⟩ := h
      exact ih hrest

end Follows

/-- The connection is followed, and what was received is what was sent first. -/
structure Link.Good (setting : Int) (s : Link) : Prop where
  follows : ∃ blocks, Follows setting s.writer s.reader s.wire blocks ∧
    s.sent.map (·.map (some ·.lower)) = s.received ++ blocks.map (·.map (some ·.lower))

theorem Link.good_new {size : Nat} (hsize : size ≤ 1073741823) (setting : Int) (useCompression : Bool) :
    (Link.new size setting useCompression).Good setting :=
  ⟨[], ⟨rfl, _, _, _, _, _, linked_new hsize setting useCompression⟩, rfl⟩

/-- An admissible step comes through and keeps it so. -/
theorem Link.step_good {setting : Int} {s : Link} {a : LinkAct} (h : s.Good setting) (ha : a.Admissible setting) :
    ∃ s', s.step a = .ok s' ∧ s'.Good setting := by
  obtain ⟨blocks, hfollows, hsent⟩ := h.follows
  cases a with
  | setHeaderTableSizeSetting n =>
    obtain ⟨hn, hle⟩ := ha
    obtain ⟨r, m, t, k, lw, lr, hlinked⟩ := hfollows.exists_linked
    obtain ⟨w', -, -, -, hset, -⟩ := setHeaderTableSizeSetting_linked hlinked hn hle
    refine ⟨{ s with writer := w' }, by rw [Link.step, hset]; rfl, blocks, hfollows.writer_step fun r m t k lw lr hlinked => ?_, hsent⟩
    obtain ⟨w'', m', t', lw', hset', hlinked'⟩ := setHeaderTableSizeSetting_linked hlinked hn hle
    obtain rfl := Except.ok.inj (hset.symm.trans hset')
    exact ⟨m', t', lw', hlinked'⟩
  | writeHeaders block =>
    obtain ⟨r, m, t, k, lw, lr, hlinked⟩ := hfollows.exists_linked
    obtain ⟨w', bytes, -, -, hwrite, -, -, -⟩ := writeHeaders_linked hlinked ha
    refine ⟨{ s with writer := w', wire := s.wire ++ [bytes], sent := s.sent ++ [block] },
      by rw [Link.step, hwrite]; rfl, blocks ++ [block], hfollows.send fun r hlist hr => ?_, ?_⟩
    · obtain ⟨m, t, k, lw, lr, hlinked⟩ := hr
      obtain ⟨w'', bytes', r', l', hwrite', hread, hlist', hlinked'⟩ := writeHeaders_linked hlinked ha
      obtain ⟨rfl, rfl⟩ := Prod.mk.inj (Except.ok.inj (hwrite.symm.trans hwrite'))
      rw [hlist, List.nil_append] at hlist'
      exact ⟨r', hread, hlist', rfl, _, _, _, _, _, hlinked'.reset⟩
    · rw [List.map_append, hsent, List.map_append, List.append_assoc]
  | readHeaders =>
    obtain ⟨writer, wire, reader, sent, received⟩ := s
    cases wire with
    | nil => exact ⟨_, rfl, blocks, hfollows, hsent⟩
    | cons bytes wire =>
      cases blocks with
      | nil => exact hfollows.elim
      | cons block blocks =>
        obtain ⟨r', hread, hlist, hrest⟩ := hfollows
        refine ⟨⟨writer, wire, { r' with headerList := [] }, sent, received ++ [r'.headerList]⟩, ?_, blocks, hrest, ?_⟩
        · change (reader.readHeaders bytes >>= _) = _
          rw [hread]
          rfl
        · rw [hsent, hlist, List.map_cons, List.append_assoc, List.singleton_append]

/-- Whatever the order in which blocks are written, sizes that the reader allows are set and blocks are read, no method throws,
and the blocks that were received are those that were sent first, their names in lower case. When nothing is on the wire, an
index of the writer's table stands for the same header in the reader's. -/
theorem headers_arrive {size : Nat} (hsize : size ≤ 1073741823) (setting : Int) (useCompression : Bool) {acts : List LinkAct}
    (hacts : ∀ a ∈ acts, a.Admissible setting) :
    ∃ s, acts.foldlM Link.step (Link.new size setting useCompression) = .ok s ∧
      s.received = (s.sent.take s.received.length).map (·.map (some ·.lower)) ∧
      s.received.length + s.wire.length = s.sent.length ∧
      (s.wire = [] → s.writer.entries.map (Option.map Header.lower) <+: s.reader.entries) := by
  have hrun : ∀ {s : Link}, s.Good setting → ∃ s', acts.foldlM Link.step s = .ok s' ∧ s'.Good setting := by
    induction acts with
    | nil => exact fun hs => ⟨_, rfl, hs⟩
    | cons a acts ih =>
      intro s hs
      obtain ⟨ha, hrest⟩ := List.forall_mem_cons.mp hacts
      obtain ⟨s₁, hstep, hgood₁⟩ := Link.step_good hs ha
      obtain ⟨s₂, hfold, hgood₂⟩ := ih hrest hgood₁
      refine ⟨s₂, ?_, hgood₂⟩
      rw [List.foldlM_cons, hstep]
      exact hfold
  obtain ⟨s, hfold, hgood⟩ := hrun (Link.good_new hsize setting useCompression)
  obtain ⟨blocks, hfollows, hsent⟩ := hgood.follows
  have hlen := congrArg List.length hsent
  rw [List.length_append, List.length_map, List.length_map] at hlen
  refine ⟨s, hfold, ?_, by rw [hfollows.length_eq]; omega, fun hwire => ?_⟩
  · rw [List.map_take, hsent, List.take_left]
  · rw [hwire] at hfollows
    cases blocks with
    | cons => exact hfollows.elim
    | nil =>
      obtain ⟨-, m, t, k, lw, lr, hlinked⟩ := hfollows
      rw [hlinked.writer.entries_eq, hlinked.reader.entries_eq, List.map_map]
      have hprefix : lw.map Header.lower <+: lr := hlinked.entries ▸ keep_begins t lr
      simpa [Function.comp_def] using hprefix.map some

/-- A header that is inserted, a table that is emptied and made larger again, and the header once more. -/
def cookieActs : List LinkAct :=
  [.writeHeaders [⟨ascii "Cookie", ascii "a=b"⟩], .setHeaderTableSizeSetting 0, .setHeaderTableSizeSetting 4096,
    .readHeaders, .writeHeaders [⟨ascii "cookie", ascii "a=b"⟩], .readHeaders]

theorem headers_arrive_cookie : ∃ s, cookieActs.foldlM Link.step (Link.new 4096 4096 true) = .ok s ∧
    s.received = (s.sent.take s.received.length).map (·.map (some ·.lower)) ∧
    s.received.length + s.wire.length = s.sent.length ∧
    (s.wire = [] → s.writer.entries.map (Option.map Header.lower) <+: s.reader.entries) :=
  headers_arrive (by decide) 4096 true (by decide +kernel)

end Hpack

end LibraLive

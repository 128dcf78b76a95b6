import LibraLive.Lemmas.HuffmanTree

/-!
# The bits that `encode` writes and `decode` reads

What the encoder has written and still has in its register are the codes of the bytes behind each other, and `encode` fills
the last byte up with ones (`ofBytes_encode`). The decoder reads such a stream (`Reads`) off the tree: each look at eight
bits goes one node down or ends a code (`lookBytes_reads`), and of the ones at the end it makes nothing (`lookRest_reads`).
-/

namespace LibraLive

namespace Huffman

/-- The codes of the bytes behind each other. -/
def codeStream (data : List UInt8) : List Bool := data.flatMap codeBits

theorem codeStream_cons (b : UInt8) (data : List UInt8) : codeStream (b :: data) = codeBits b ++ codeStream data := rfl

/-- A byte made of a word of eight bits has its bits. -/
theorem ofByte_ofBitVec (v : BitVec 8) : Bits.ofByte ⟨v⟩ = Bits.low v.getLsbD 8 := rfl

/-! ## `encode` -/

/-- The bits that `while (n >= 8)` writes are those that `current` has too many of. -/
theorem writeBytes_bits (current : BitVec 64) {n : Nat} (sink : List UInt8) (hn : n ≤ 64) :
    Bits.ofBytes (writeBytes current n sink).1 ++ Bits.low current.getLsbD (writeBytes current n sink).2 =
        Bits.ofBytes sink ++ Bits.low current.getLsbD n ∧
      (writeBytes current n sink).2 < 8 := by
  induction n using Nat.strongRecOn generalizing sink with
  | ind n ih =>
    rw [writeBytes]
    by_cases h8 : 8 ≤ n
    · rw [if_pos h8]
      obtain ⟨hbits, hlt⟩ := ih (n - 8) (by omega) (sink ++ [⟨(current.sshiftRight (n - 8)).setWidth 8⟩]) (by omega)
      refine ⟨hbits.trans ?_, hlt⟩
      have hbyte : Bits.ofByte ⟨(current.sshiftRight (n - 8)).setWidth 8⟩ =
          Bits.low (fun i => current.getLsbD (i + (n - 8))) 8 := by
        rw [ofByte_ofBitVec]
        refine Bits.low_congr fun i hi => ?_
        have hin : n - 8 + i < 64 := by omega
        rw [BitVec.getLsbD_setWidth, BitVec.getLsbD_sshiftRight, if_pos hin, Nat.add_comm i]
        simp [hi, hin, Nat.not_le.mpr (Nat.lt_of_le_of_lt (Nat.le_add_left _ _) hin)]
      have hadd := Bits.low_add current.getLsbD 8 (n - 8)
      rw [Nat.add_sub_cancel' h8] at hadd
      rw [Bits.ofBytes_append, Bits.ofBytes_cons, Bits.ofBytes_nil, List.append_nil, hbyte, hadd, List.append_assoc]
    · rw [if_neg h8]
      exact ⟨rfl, Nat.not_le.mp h8⟩

/-- Shifting a code into the register puts its bits behind those that are there. -/
theorem low_shift_code {current : BitVec 64} {n : Nat} (hn : n < 8) (b : UInt8) :
    Bits.low (current <<< (code b).2 ||| BitVec.ofNat 64 (code b).1).getLsbD (n + (code b).2) =
      Bits.low current.getLsbD n ++ codeBits b := by
  have hlen := code_length b
  rw [Bits.low_add]
  congr 1
  · refine Bits.low_congr fun i hi => ?_
    have hhigh : (code b).1.testBit (i + (code b).2) = false :=
      Nat.testBit_lt_two_pow ((code_lt b).trans_le (Nat.pow_le_pow_right (by decide) (Nat.le_add_left _ _)))
    rw [BitVec.getLsbD_or, BitVec.getLsbD_shiftLeft, BitVec.getLsbD_ofNat, hhigh]
    have hin : i + (code b).2 < 64 := by omega
    simp [hin]
  · refine Bits.low_congr fun i hi => ?_
    rw [BitVec.getLsbD_or, BitVec.getLsbD_shiftLeft, BitVec.getLsbD_ofNat]
    have hin : i < 64 := by omega
    simp [hi, hin]

/-- What is written and what is still in the register are the bits that were there and the codes of the bytes. -/
theorem encodeBytes_bits (data : List UInt8) (current : BitVec 64) {n : Nat} (sink : List UInt8) (hn : n < 8) :
    Bits.ofBytes (encodeBytes data current n sink).1 ++
          Bits.low (encodeBytes data current n sink).2.1.getLsbD (encodeBytes data current n sink).2.2 =
        Bits.ofBytes sink ++ Bits.low current.getLsbD n ++ codeStream data ∧
      (encodeBytes data current n sink).2.2 < 8 := by
  induction data generalizing current n sink with
  | nil => exact ⟨(List.append_nil _).symm, hn⟩
  | cons b data ih =>
    have hlen := code_length b
    have hwrite := writeBytes_bits (current <<< (code b).2 ||| BitVec.ofNat 64 (code b).1) sink
      (show n + (code b).2 ≤ 64 by omega)
    obtain ⟨hbits, hlt⟩ := ih _ _ hwrite.2
    refine ⟨hbits.trans ?_, hlt⟩
    rw [hwrite.1, low_shift_code hn, codeStream_cons, List.append_assoc, List.append_assoc, List.append_assoc]

/-- `encode` writes the codes of the bytes and fewer than eight ones. -/
theorem ofBytes_encode (data : List UInt8) :
    ∃ k < 8, Bits.ofBytes (encode data) = codeStream data ++ List.replicate k true := by
  obtain ⟨hbits, hlt⟩ := encodeBytes_bits data 0 [] (show 0 < 8 by decide)
  rw [encode]
  generalize encodeBytes data 0 0 [] = e at hbits hlt
  obtain ⟨sink, current, n⟩ := e
  simp only [Bits.ofBytes_nil, Bits.low_zero, List.nil_append] at hbits hlt ⊢
  by_cases hn : 0 < n
  · refine ⟨8 - n, by omega, ?_⟩
    rw [if_pos hn, Bits.ofBytes_append, Bits.ofBytes_cons, Bits.ofBytes_nil, List.append_nil, ← hbits, List.append_assoc]
    congr 1
    have hadd := Bits.low_add ((current <<< (8 - n) ||| BitVec.ofNat 64 (0xFF >>> n)).setWidth 8).getLsbD n (8 - n)
    rw [Nat.add_sub_cancel' hlt.le] at hadd
    have hones : ∀ i, (0xFF >>> n).testBit i = decide (n + i < 8) := fun i => by
      rw [Nat.testBit_shiftRight, show (0xFF : Nat) = 2 ^ 8 - 1 from rfl, Nat.testBit_two_pow_sub_one]
    rw [ofByte_ofBitVec, hadd]
    congr 1
    · refine Bits.low_congr fun i hi => ?_
      have hin : i + (8 - n) < 8 := by omega
      have hout : ¬ n + (i + (8 - n)) < 8 := by omega
      rw [BitVec.getLsbD_setWidth, BitVec.getLsbD_or, BitVec.getLsbD_shiftLeft, BitVec.getLsbD_ofNat, hones]
      simp [hin, hout, Nat.lt_trans hin]
    · refine Bits.low_eq_replicate fun i hi => ?_
      have hin : n + i < 8 := by omega
      have hi64 : i < 64 := by omega
      have hi8 : i < 8 := by omega
      rw [BitVec.getLsbD_setWidth, BitVec.getLsbD_or, BitVec.getLsbD_ofNat, hones]
      simp [hin, hi8, hi64]
  · obtain rfl : n = 0 := by omega
    refine ⟨0, by decide, ?_⟩
    simpa using hbits

/-! ## `encodedLength` -/

/-- `encode` writes as many bytes as the codes need. -/
theorem length_encode (data : List UInt8) : (encode data).length = ((codeStream data).length + 7) / 8 := by
  obtain ⟨k, hk, hbits⟩ := ofBytes_encode data
  have hlen := congrArg List.length hbits
  rw [Bits.length_ofBytes, List.length_append, List.length_replicate] at hlen
  omega

/-- No byte needs more than thirty bits. -/
theorem length_codeStream_le (data : List UInt8) : (codeStream data).length ≤ 30 * data.length := by
  induction data with
  | nil => exact Nat.le_refl _
  | cons b data ih =>
    rw [codeStream_cons, List.length_append, length_codeBits, List.length_cons]
    have := (code_length b).2
    omega

/-- The sum that `encodedLength` makes is the number of bits. -/
theorem foldl_code_length (data : List UInt8) (len : Nat) :
    data.foldl (fun len b => len + BitVec.ofNat 64 (code b).2) (BitVec.ofNat 64 len) =
      BitVec.ofNat 64 (len + (codeStream data).length) := by
  induction data generalizing len with
  | nil => rfl
  | cons b data ih =>
    rw [List.foldl_cons, ← BitVec.ofNat_add, ih, codeStream_cons, List.length_append, length_codeBits, Nat.add_assoc]

/-- `encodedLength` is the number of bytes that `encode` writes, cast to `int`. -/
theorem encodedLength_cast {data : List UInt8} (h : data.length < 2 ^ 31) :
    encodedLength data = BitVec.ofNat 32 (encode data).length := by
  have hle := length_codeStream_le data
  have hfold := foldl_code_length data 0
  rw [Nat.zero_add] at hfold
  refine BitVec.eq_of_toNat_eq ?_
  have hmsb : (BitVec.ofNat 64 (codeStream data).length + 7).msb = false := by
    rw [BitVec.msb_eq_false_iff_two_mul_lt, BitVec.toNat_add, BitVec.toNat_ofNat]
    change 2 * (((codeStream data).length % 2 ^ 64 + 7) % 2 ^ 64) < 2 ^ 64
    omega
  change ((data.foldl (fun len b => len + BitVec.ofNat 64 (code b).2) (BitVec.ofNat 64 0) + 7).sshiftRight 3
    |>.setWidth 32).toNat = _
  rw [hfold, BitVec.sshiftRight_eq_of_msb_false hmsb, BitVec.toNat_setWidth, BitVec.toNat_ushiftRight, BitVec.toNat_add,
    BitVec.toNat_ofNat, BitVec.toNat_ofNat, length_encode, Nat.shiftRight_eq_div_pow]
  change ((codeStream data).length % 2 ^ 64 + 7) % 2 ^ 64 / 2 ^ 3 % 2 ^ 32 = _
  have hlt : (codeStream data).length < 2 ^ 64 := by omega
  have hlt7 : (codeStream data).length + 7 < 2 ^ 64 := by omega
  rw [Nat.mod_eq_of_lt hlt, Nat.mod_eq_of_lt hlt7]

/-! ## `decode` -/

/-- From the node on the bits are what is left of the code of the first byte, the codes of the others and fewer than eight
ones. -/
inductive Reads : Node → List Bool → List UInt8 → Prop where
  | pad {k : Nat} : k < 8 → Reads root (List.replicate k true) []
  | code {node : Node} {b : UInt8} {r stream : List Bool} {data : List UInt8} : Spells (leaf b) node r → r ≠ [] →
      r.length % 8 = (code b).2 % 8 → Reads root stream data → Reads node (r ++ stream) (b :: data)

theorem codeBits_ne_nil (b : UInt8) : codeBits b ≠ [] := low_ne_nil (by have := code_length b; omega)

/-- What `encode` writes is such a stream. -/
theorem reads_codeStream {k : Nat} (hk : k < 8) (data : List UInt8) :
    Reads root (codeStream data ++ List.replicate k true) data := by
  induction data with
  | nil => exact .pad hk
  | cons b data ih =>
    rw [codeStream_cons, List.append_assoc]
    exact .code (spells_root b) (codeBits_ne_nil b) (by rw [length_codeBits]) ih

theorem reads_encode (data : List UInt8) : Reads root (Bits.ofBytes (encode data)) data := by
  obtain ⟨k, hk, hbits⟩ := ofBytes_encode data
  rw [hbits]
  exact reads_codeStream hk data

/-- The terminal node knows how many bits of the last look are the code's. -/
theorem terminalBits_of_last {b : UInt8} {r : List Bool} (hne : r ≠ []) (hle : r.length ≤ 8)
    (hmod : r.length % 8 = (code b).2 % 8) : terminalBits (code b).2 = r.length := by
  have hpos := List.length_pos_iff.mpr hne
  unfold terminalBits
  split <;> omega

theorem Spells.internal {terminal node : Node} {r : List Bool} (h : Spells terminal node r) :
    ∃ children, node = .internal children := by
  cases h with
  | last => exact ⟨_, rfl⟩
  | next => exact ⟨_, rfl⟩

/-- The byte that the next look sees is the first of the bits that have not been looked at. -/
theorem ofByte_look (current : BitVec 32) {n : Nat} (h8 : 8 ≤ n) :
    Bits.low current.getLsbD n = Bits.ofByte ⟨(current >>> (n - 8)).setWidth 8⟩ ++ Bits.low current.getLsbD (n - 8) := by
  have hadd := Bits.low_add current.getLsbD 8 (n - 8)
  rw [Nat.add_sub_cancel' h8] at hadd
  rw [hadd, ofByte_ofBitVec]
  congr 1
  refine Bits.low_congr fun i hi => ?_
  rw [BitVec.getLsbD_setWidth, BitVec.getLsbD_ushiftRight, Nat.add_comm i]
  simp [hi]

/-- What is behind the first bits is behind them in the register. -/
theorem low_sub {f : Nat → Bool} {n : Nat} {more r stream : List Bool} (h : Bits.low f n ++ more = r ++ stream)
    (hle : r.length ≤ n) : Bits.low f (n - r.length) ++ more = stream := by
  have hdrop := congrArg (List.drop r.length) h
  rwa [List.drop_append_of_le_length (by rwa [Bits.length_low]), Bits.drop_low, List.drop_left] at hdrop

/-- `while (nbits >= 8)` writes bytes of the stream until it has fewer than eight bits. -/
theorem lookBytes_reads {s : Decoder} {more : List Bool} {data : List UInt8}
    (h : Reads s.node (Bits.low s.current.getLsbD s.nbits ++ more) data) :
    ∃ s' out rest, lookBytes s = some s' ∧ s'.nbits < 8 ∧ s'.baos = s.baos ++ out ∧ data = out ++ rest ∧
      Reads s'.node (Bits.low s'.current.getLsbD s'.nbits ++ more) rest := by
  induction hm : s.nbits using Nat.strongRecOn generalizing s data with
  | ind n ih =>
    subst hm
    rw [lookBytes]
    by_cases h8 : s.nbits < 8
    · rw [if_pos h8]
      exact ⟨s, [], data, rfl, h8, (List.append_nil _).symm, rfl, h⟩
    rw [if_neg h8]
    obtain ⟨baos, node, current, nbits⟩ := s
    dsimp only at h h8 ih ⊢
    have hlook := ofByte_look current (Nat.not_lt.mp h8)
    generalize hstream : Bits.low current.getLsbD nbits ++ more = stream at h
    cases h with
    | pad hk =>
      have hlen := congrArg List.length hstream
      rw [List.length_append, Bits.length_low, List.length_replicate] at hlen
      omega
    | @code _ b r stream data hs hne hmod hrest =>
      cases hs with
      | last hle hall =>
        -- The code ends here.
        have hp : r <+: Bits.ofByte ⟨(current >>> (nbits - 8)).setWidth 8⟩ := by
          refine List.prefix_of_prefix_length_le (List.prefix_append r stream) ?_ (by rw [Bits.length_ofByte]; exact hle)
          rw [← hstream, hlook, List.append_assoc]
          exact List.prefix_append _ _
        simp only [hall _ hp, leaf]
        have hbits := terminalBits_of_last hne hle hmod
        have hpos := List.length_pos_iff.mpr hne
        have hsub := low_sub hstream (by omega)
        obtain ⟨s', out, rest, hrun, hlt, hbaos, hdata, hreads⟩ :=
          ih (nbits - r.length) (by omega) (s := ⟨baos ++ [b], root, current, nbits - r.length⟩) (hsub ▸ hrest) rfl
        refine ⟨s', b :: out, rest, ?_, hlt, ?_, congrArg (b :: ·) hdata, hreads⟩
        · rw [← hbits] at hrun
          exact hrun
        · rw [hbaos, List.append_assoc, List.singleton_append]
      | @next children child c r hne' hchild hs =>
        -- It goes on below the child.
        rw [hlook, List.append_assoc, List.append_assoc] at hstream
        obtain ⟨rfl, hsub⟩ := ofByte_append_inj hstream
        obtain ⟨children', rfl⟩ := hs.internal
        simp only [hchild]
        rw [List.length_append, Bits.length_ofByte, Nat.add_mod_left] at hmod
        exact ih (nbits - 8) (by omega) (s := ⟨baos, .internal children', current, nbits - 8⟩)
          (hsub ▸ .code hs hne' hmod hrest) rfl

/-- The loop over the bytes writes bytes of the stream, and what is left begins in the register. -/
theorem decodeBytes_reads {buf : List UInt8} {s : Decoder} {data : List UInt8} (hn : s.nbits < 8)
    (h : Reads s.node (Bits.low s.current.getLsbD s.nbits ++ Bits.ofBytes buf) data) :
    ∃ s' out rest, decodeBytes buf s = some s' ∧ s'.nbits < 8 ∧ s'.baos = s.baos ++ out ∧ data = out ++ rest ∧
      Reads s'.node (Bits.low s'.current.getLsbD s'.nbits) rest := by
  induction buf generalizing s data with
  | nil => exact ⟨s, [], data, rfl, hn, (List.append_nil _).symm, rfl, by simpa using h⟩
  | cons b buf ih =>
    have htake : Bits.low (s.current <<< 8 ||| b.toBitVec.setWidth 32).getLsbD (s.nbits + 8) =
        Bits.low s.current.getLsbD s.nbits ++ Bits.ofByte b := by
      rw [Bits.low_add]
      congr 1
      · refine Bits.low_congr fun i hi => ?_
        have hin : i + 8 < 32 := by omega
        rw [BitVec.getLsbD_or, BitVec.getLsbD_shiftLeft, BitVec.getLsbD_setWidth]
        simp [hin]
      · refine Bits.low_congr fun i hi => ?_
        have hin : i < 32 := by omega
        rw [BitVec.getLsbD_or, BitVec.getLsbD_shiftLeft, BitVec.getLsbD_setWidth]
        simp [hi, hin]
        rfl
    rw [Bits.ofBytes_cons, ← List.append_assoc, ← htake] at h
    obtain ⟨s₁, out₁, rest₁, hlook, hlt₁, hbaos₁, hdata₁, hreads₁⟩ := lookBytes_reads
      (s := { s with current := s.current <<< 8 ||| b.toBitVec.setWidth 32, nbits := s.nbits + 8 }) h
    obtain ⟨s₂, out₂, rest₂, hbytes, hlt₂, hbaos₂, hdata₂, hreads₂⟩ := ih hlt₁ hreads₁
    refine ⟨s₂, out₁ ++ out₂, rest₂, ?_, hlt₂, ?_, ?_, hreads₂⟩
    · rw [decodeBytes, hlook]
      exact hbytes
    · rw [hbaos₂, hbaos₁, List.append_assoc]
    · rw [hdata₁, hdata₂, List.append_assoc]

/-- The byte that `while (nbits > 0)` looks at is the bits that are left and zeros. -/
theorem ofByte_lookRest (current : BitVec 32) {n : Nat} (hn : n < 8) :
    Bits.ofByte ⟨(current <<< (8 - n)).setWidth 8⟩ = Bits.low current.getLsbD n ++ List.replicate (8 - n) false := by
  have hadd := Bits.low_add ((current <<< (8 - n)).setWidth 8).getLsbD n (8 - n)
  rw [Nat.add_sub_cancel' hn.le] at hadd
  rw [ofByte_ofBitVec, hadd]
  congr 1
  · refine Bits.low_congr fun i hi => ?_
    have hin : i + (8 - n) < 8 := by omega
    rw [BitVec.getLsbD_setWidth, BitVec.getLsbD_shiftLeft]
    simp [hin, Nat.lt_trans hin]
  · refine Bits.low_eq_replicate fun i hi => ?_
    rw [BitVec.getLsbD_setWidth, BitVec.getLsbD_shiftLeft]
    simp [hi]

section
variable {children : UInt8 → Option Node} {b c : UInt8}

/-- A code of at most eight bits is found at the first look. -/
theorem look_of_short (hroot : root = .internal children) (hlen : (code b).2 ≤ 8) (hp : codeBits b <+: Bits.ofByte c) :
    children c = some (leaf b) := by
  have hs := spells_root b
  rw [hroot] at hs
  rw [← length_codeBits] at hlen
  generalize codeBits b = r at hs hlen hp
  cases hs with
  | last _ hall => exact hall c hp
  | next hne =>
    rw [List.length_append, Bits.length_ofByte] at hlen
    have := List.length_pos_iff.mpr hne
    omega

/-- A longer one is not. -/
theorem look_of_long (hroot : root = .internal children) (hlen : 8 < (code b).2) (hp : Bits.ofByte c <+: codeBits b) :
    ∃ below, children c = some (.internal below) := by
  have hs := spells_root b
  rw [hroot] at hs
  rw [← length_codeBits] at hlen
  generalize codeBits b = r at hs hlen hp
  cases hs with
  | last hle => omega
  | @next _ child c' r _ hchild hs =>
    obtain ⟨more, hmore⟩ := hp
    obtain ⟨rfl, -⟩ := ofByte_append_inj hmore
    obtain ⟨below, rfl⟩ := hs.internal
    exact ⟨below, hchild⟩

end

/-- Bytes whose codes begin with `k` ones and zeros behind them, or are the beginning of these. -/
def onesThenZeros : List UInt8 := [0x00, 0x3D, 0x45, 0x55, 0x77, 0x26, 0x58, 0x21]

theorem onesThenZeros_codes : ∀ k < 8, 0 < k →
    ((code (onesThenZeros.getD k 0)).2 ≤ 8 ∧ k < terminalBits (code (onesThenZeros.getD k 0)).2 ∧
      codeBits (onesThenZeros.getD k 0) <+: List.replicate k true ++ List.replicate (8 - k) false) ∨
    (8 < (code (onesThenZeros.getD k 0)).2 ∧
      List.replicate k true ++ List.replicate (8 - k) false <+: codeBits (onesThenZeros.getD k 0)) := by
  decide +kernel

/-- `while (nbits > 0)` writes the rest of the stream, and makes nothing of the ones at its end. -/
theorem lookRest_reads {s : Decoder} {data : List UInt8} (hn : s.nbits < 8)
    (h : Reads s.node (Bits.low s.current.getLsbD s.nbits) data) : lookRest s = some (s.baos ++ data) := by
  induction hm : s.nbits using Nat.strongRecOn generalizing s data with
  | ind n ih =>
    subst hm
    rw [lookRest]
    obtain ⟨baos, node, current, nbits⟩ := s
    dsimp only at h hn ih ⊢
    have hlook := ofByte_lookRest current hn
    generalize hstream : Bits.low current.getLsbD nbits = stream at h
    have hlen := congrArg List.length hstream
    rw [Bits.length_low] at hlen
    cases h with
    | @pad k hk =>
      rw [List.length_replicate] at hlen
      subst hlen
      by_cases h0 : nbits = 0
      · rw [if_pos h0, List.append_nil]
      rw [if_neg h0]
      obtain ⟨children, hroot⟩ := (spells_root 0).internal
      simp only [hroot]
      rcases onesThenZeros_codes nbits hk (by omega) with ⟨hshort, hbits, hp⟩ | ⟨hlong, hp⟩
      · rw [← hstream, ← hlook] at hp
        simp only [look_of_short hroot hshort hp, leaf, if_pos hbits, List.append_nil]
      · rw [← hstream, ← hlook] at hp
        obtain ⟨below, hbelow⟩ := look_of_long hroot hlong hp
        simp only [hbelow, List.append_nil]
    | @code _ b r stream data hs hne hmod hrest =>
      have hpos := List.length_pos_iff.mpr hne
      rw [List.length_append] at hlen
      rw [if_neg (by omega)]
      cases hs with
      | last hle hall =>
        have hp : r <+: Bits.ofByte ⟨(current <<< (8 - nbits)).setWidth 8⟩ :=
          hlook ▸ hstream ▸ (List.prefix_append r stream).trans (List.prefix_append _ _)
        have hbits := terminalBits_of_last hne hle hmod
        simp only [hall _ hp, leaf, hbits]
        rw [if_neg (by omega)]
        rw [← List.append_nil (Bits.low _ _)] at hstream
        have hsub := low_sub hstream (by omega)
        rw [List.append_nil] at hsub
        rw [ih (nbits - r.length) (by omega) (s := ⟨baos ++ [b], root, current, nbits - r.length⟩) (by dsimp only; omega)
          (hsub ▸ hrest) rfl, List.append_assoc, List.singleton_append]
      | next =>
        rw [List.length_append, Bits.length_ofByte] at hlen
        omega

/-- A stream of codes is decoded to its bytes. -/
theorem decode_of_reads {buf data : List UInt8} (h : Reads root (Bits.ofBytes buf) data) : decode buf = some data := by
  obtain ⟨s, out, rest, hbytes, hlt, hbaos, hdata, hreads⟩ :=
    decodeBytes_reads (s := ⟨[], root, 0, 0⟩) (by dsimp only; omega) h
  rw [decode, hbytes, Option.bind_some, lookRest_reads hlt hreads, hbaos, hdata, List.nil_append]

end Huffman

end LibraLive

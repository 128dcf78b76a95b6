import LibraLive.Lemmas.HuffmanStream
import LibraLive.Okhttp3.Hpack

/-!
# Integers and strings on the wire

`readInt` reads what `writeInt` wrote, whatever the number of bits that the first byte has for it (`readInt_writeInt`), and
`readByteString` what `writeByteString` wrote, whether that chose the Huffman code or not (`readByteString_writeByteString`).
-/

namespace LibraLive

namespace Hpack

open Java

/-! ## Integers -/

theorem toNat_ofNat {n : Nat} (h : n < 256) : (UInt8.ofNat n).toNat = n := by
  rw [UInt8.toNat_ofNat', Nat.mod_eq_of_lt h]

/-- The loop of `readInt` reads what the loop of `writeInt` wrote. -/
theorem readIntRest_writeIntRest {result value shift : Nat} (source : List UInt8) (hshift : shift < 32)
    (h : result + value * 2 ^ shift ≤ 2147483647) :
    Reader.readIntRest result shift (Writer.writeIntRest value ++ source) = .ok ((result + value * 2 ^ shift : Nat), source) := by
  induction value using Nat.strongRecOn generalizing result shift with
  | ind value ih =>
    have hpow : (2 : Int) ^ shift = (2 ^ shift : Nat) := by push_cast; rfl
    rw [Writer.writeIntRest]
    by_cases hmore : 0x80 ≤ value
    · have hdigit : value % 0x80 < 2 ^ 7 := Nat.mod_lt _ (by decide)
      have hbyte : (UInt8.ofNat (value % 0x80 ||| 0x80)).toNat = 0x80 + value % 0x80 := by
        have hor : 0x80 ||| value % 0x80 = 0x80 + value % 0x80 := (Nat.two_pow_add_eq_or_of_lt hdigit 1).symm
        rw [Nat.or_comm, hor, toNat_ofNat (by omega)]
      have hdiv : value % 0x80 + value / 0x80 * 0x80 = value := by omega
      have hsplit : value * 2 ^ shift = value % 0x80 * 2 ^ shift + value / 0x80 * 2 ^ (shift + 7) := by
        rw [Nat.pow_add, ← Nat.mul_assoc, Nat.mul_right_comm, show 2 ^ 7 = 0x80 from rfl, ← Nat.add_mul, hdiv]
      have hshift' : shift + 7 < 32 := by
        have hlt : 2 ^ (shift + 7) < 2 ^ 32 := by
          have hle : 0x80 * 2 ^ shift ≤ value * 2 ^ shift := Nat.mul_le_mul_right _ hmore
          rw [Nat.pow_add, Nat.mul_comm]
          omega
        exact (Nat.pow_lt_pow_iff_right (by decide)).mp hlt
      rw [if_pos hmore, List.cons_append, Reader.readIntRest, hbyte, if_neg (by omega), Nat.mod_eq_of_lt hshift,
        Nat.add_mod_left, Nat.mod_mod, hpow, ← Int.natCast_mul, int32_of_range (n := (_ * _ : Nat)) (by omega) (by omega),
        ← Int.natCast_add, int32_of_range (by omega) (by omega), ih (value / 0x80) (by omega) hshift' (by omega)]
      congr 2
      omega
    · have hbyte : (UInt8.ofNat value).toNat = value := toNat_ofNat (by omega)
      rw [if_neg hmore, List.singleton_append, Reader.readIntRest, hbyte, if_pos (by omega), Nat.mod_eq_of_lt hshift, hpow,
        ← Int.natCast_mul, int32_of_range (n := (_ * _ : Nat)) (by omega) (by omega), ← Int.natCast_add,
        int32_of_range (by omega) (by omega)]

/-- What `writeInt` writes into the lower `p` bits of a byte and behind it is read by `readInt`. -/
theorem readInt_writeInt (prefixMask bits p c : Nat) {value : Nat} (hmask : prefixMask = 2 ^ p - 1) (hbits : bits = 2 ^ p * c)
    (hp : 2 ^ p * c + 2 ^ p ≤ 256) (hvalue : value ≤ 2147483647) :
    ∃ b rest, Writer.writeInt value prefixMask bits = b :: rest ∧ b.toNat = bits + min value prefixMask ∧
      ∀ source, Reader.readInt b prefixMask (rest ++ source) = .ok ((value : Int), source) := by
  subst hmask hbits
  have hpos := Nat.two_pow_pos p
  have hand : ∀ {b : UInt8} {v}, b.toNat = 2 ^ p * c + v → v < 2 ^ p → b.toNat &&& (2 ^ p - 1) = v := by
    intro b v hb hv
    rw [hb, Nat.and_two_pow_sub_one_eq_mod, Nat.mul_comm, Nat.mul_add_mod_of_lt hv]
  rw [Writer.writeInt]
  by_cases hsmall : value < 2 ^ p - 1
  · have hbyte : (UInt8.toNat ⟨BitVec.ofNat 8 (2 ^ p * c) ||| BitVec.ofInt 8 value⟩) = 2 ^ p * c + value := by
      change (BitVec.ofNat 8 (2 ^ p * c) ||| BitVec.ofInt 8 value).toNat = _
      rw [BitVec.ofInt_natCast, BitVec.toNat_or, BitVec.toNat_ofNat, BitVec.toNat_ofNat, Nat.mod_eq_of_lt (by omega),
        Nat.mod_eq_of_lt (by omega), Nat.two_pow_add_eq_or_of_lt (by omega)]
    refine ⟨_, [], if_pos (by omega), by rw [hbyte]; omega, fun source => ?_⟩
    rw [Reader.readInt, hand hbyte (by omega), List.nil_append]
    exact if_pos hsmall
  · have hbyte : (UInt8.ofNat (2 ^ p * c ||| (2 ^ p - 1))).toNat = 2 ^ p * c + (2 ^ p - 1) := by
      rw [← Nat.two_pow_add_eq_or_of_lt (by omega), toNat_ofNat (by omega)]
    refine ⟨_, _, if_neg (by omega), by rw [hbyte]; omega, fun source => ?_⟩
    rw [Reader.readInt, hand hbyte (by omega)]
    have hrest : ((value : Int) - (2 ^ p - 1 : Nat)).toNat = value - (2 ^ p - 1) := by omega
    have hread := readIntRest_writeIntRest source (show 0 < 32 by decide)
      (show 2 ^ p - 1 + (value - (2 ^ p - 1)) * 2 ^ 0 ≤ 2147483647 by omega)
    rw [Nat.pow_zero, Nat.mul_one, Nat.add_sub_of_le (by omega)] at hread
    rw [hrest]
    exact (if_neg (lt_irrefl _)).trans hread

/-! ## Strings -/

/-- A string is not too long for its Huffman code to be an array. -/
def Fits (data : List UInt8) : Prop := data.length < 536870912

instance (data : List UInt8) : Decidable (Fits data) := inferInstanceAs (Decidable (_ < _))

theorem readBytes_append (bytes source : List UInt8) :
    Reader.readBytes bytes.length (bytes ++ source) = .ok (bytes, source) := by
  rw [Reader.readBytes, if_neg (by omega), if_neg (by rw [List.length_append]; omega), Int.toNat_natCast, List.take_left,
    List.drop_left]

/-- `readByteString` reads what `writeByteString` wrote. -/
theorem readByteString_writeByteString (w : Writer) {data : List UInt8} (h : Fits data) (source : List UInt8) :
    Reader.readByteString (w.writeByteString data ++ source) = .ok (data, source) := by
  have hlen : (Huffman.encode data).length ≤ 2147483647 := by
    have := Huffman.length_codeStream_le data
    rw [Huffman.length_encode]
    unfold Fits at h
    omega
  rw [Writer.writeByteString]
  by_cases hcode : w.useCompression ∧ (Huffman.encodedLength data).toInt < data.length
  · obtain ⟨b, rest, hwrite, hb, hread⟩ := readInt_writeInt PREFIX_7_BITS 0x80 7 1 rfl rfl (by decide) hlen
    rw [if_pos hcode, hwrite, Reader.readByteString, List.append_assoc, List.cons_append, Reader.readByte, ok_bind]
    dsimp only
    rw [hread, ok_bind]
    dsimp only
    rw [readBytes_append, ok_bind]
    dsimp only
    rw [if_pos (by omega), Reader.huffmanDecode, Huffman.decode_of_reads (Huffman.reads_encode data), deref, ok_bind]
  · obtain ⟨b, rest, hwrite, hb, hread⟩ := readInt_writeInt PREFIX_7_BITS 0 7 0 rfl rfl (by decide)
      (show data.length ≤ 2147483647 by unfold Fits at h; omega)
    rw [if_neg hcode, hwrite, Reader.readByteString, List.append_assoc, List.cons_append, Reader.readByte, ok_bind]
    dsimp only
    rw [hread, ok_bind]
    dsimp only
    rw [readBytes_append, ok_bind]
    dsimp only
    rw [if_neg (by unfold PREFIX_7_BITS at hb; omega)]

end Hpack

end LibraLive

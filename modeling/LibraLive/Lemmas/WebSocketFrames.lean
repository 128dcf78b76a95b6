import LibraLive.Okhttp3.WebSocket

/-!
# One frame

What the writer makes of a payload (`frame`), and that the reader gets it back, whatever the mask and the length.
-/

namespace LibraLive

namespace Okhttp3

namespace WebSocketProtocol

@[simp] theorem length_toggleMask (key : MaskKey) (keyIndex : Nat) (bytes : List UInt8) :
    (toggleMask key keyIndex bytes).length = bytes.length := by
  induction bytes generalizing keyIndex with
  | nil => rfl
  | cons b bytes ih => rw [toggleMask, List.length_cons, List.length_cons, ih]

/-- Masking twice changes nothing. -/
theorem toggleMask_toggleMask (key : MaskKey) (keyIndex : Nat) (bytes : List UInt8) :
    toggleMask key keyIndex (toggleMask key keyIndex bytes) = bytes := by
  induction bytes generalizing keyIndex with
  | nil => rfl
  | cons b bytes ih => rw [toggleMask, toggleMask, ih, UInt8.xor_assoc, UInt8.xor_self, UInt8.xor_zero]

/-- A number is read back from its bytes. -/
theorem readBigEndian_bigEndian (k acc n : Nat) (rest : List UInt8) :
    readBigEndian k acc (bigEndian k n ++ rest) = some (acc * 256 ^ k + n % 256 ^ k, rest) := by
  induction k generalizing acc with
  | zero => simp [bigEndian, readBigEndian, Nat.mod_one]
  | succ k ih =>
    have hbyte : (UInt8.ofNat (n / 256 ^ k)).toNat = n / 256 ^ k % 256 := UInt8.toNat_ofNat'
    rw [bigEndian, List.cons_append, readBigEndian, ih, hbyte, Nat.mod_pow_succ, Nat.pow_succ, Nat.add_mul]
    rw [Nat.mul_comm (n / 256 ^ k % 256), Nat.mul_assoc, Nat.mul_comm 256, Nat.add_assoc, Nat.add_comm (256 ^ k * _)]

/-- What is in the second byte for a length. -/
def lengthCode (n : Nat) : Nat := if n ≤ PAYLOAD_BYTE_MAX then n else if n ≤ PAYLOAD_SHORT_MAX then 126 else 127

/-- What comes after the second byte. -/
def lengthRest (n : Nat) : List UInt8 :=
  if n ≤ PAYLOAD_BYTE_MAX then [] else if n ≤ PAYLOAD_SHORT_MAX then bigEndian 2 n else bigEndian 8 n

theorem lengthCode_lt (n : Nat) : lengthCode n < 128 := by
  rw [lengthCode, PAYLOAD_BYTE_MAX]
  split
  · omega
  · split <;> decide

/-- The flag and the length in the second byte do not disturb each other. -/
theorem second_byte {n : Nat} (h : n < 128) :
    (UInt8.ofNat n &&& B1_MASK_LENGTH = UInt8.ofNat n ∧ UInt8.ofNat n &&& B1_FLAG_MASK = 0) ∧
      (B1_FLAG_MASK ||| UInt8.ofNat n) &&& B1_MASK_LENGTH = UInt8.ofNat n ∧ (B1_FLAG_MASK ||| UInt8.ofNat n) &&& B1_FLAG_MASK ≠ 0 := by
  have hall : ∀ n : Fin 128, (UInt8.ofNat n &&& B1_MASK_LENGTH = UInt8.ofNat n ∧ UInt8.ofNat n &&& B1_FLAG_MASK = 0) ∧
      (B1_FLAG_MASK ||| UInt8.ofNat n) &&& B1_MASK_LENGTH = UInt8.ofNat n ∧
      (B1_FLAG_MASK ||| UInt8.ofNat n) &&& B1_FLAG_MASK ≠ 0 := by decide
  exact hall ⟨n, h⟩

/-- The second byte. -/
def secondByte (isClient : Bool) (n : Nat) : UInt8 := (if isClient then B1_FLAG_MASK else 0) ||| UInt8.ofNat (lengthCode n)

theorem secondByte_length (isClient : Bool) (n : Nat) : secondByte isClient n &&& B1_MASK_LENGTH = UInt8.ofNat (lengthCode n) := by
  obtain ⟨⟨hplain, -⟩, hmasked, -⟩ := second_byte (lengthCode_lt n)
  cases isClient
  · rw [secondByte, if_neg Bool.false_ne_true, UInt8.zero_or]
    exact hplain
  · exact hmasked

theorem secondByte_masked (isClient : Bool) (n : Nat) : decide (secondByte isClient n &&& B1_FLAG_MASK ≠ 0) = isClient := by
  obtain ⟨⟨-, hplain⟩, -, hmasked⟩ := second_byte (lengthCode_lt n)
  cases isClient
  · rw [secondByte, if_neg Bool.false_ne_true, UInt8.zero_or]
    exact decide_eq_false (not_not.mpr hplain)
  · exact decide_eq_true hmasked

/-- The payload as it is sent, after the mask key of a client. -/
def maskedPayload (isClient : Bool) (maskKey : MaskKey) (payload : List UInt8) : List UInt8 :=
  if isClient then toggleMask maskKey 0 payload else payload

/-- A frame. -/
def frame (isClient : Bool) (b0 : UInt8) (payload : List UInt8) (maskKey : MaskKey) : List UInt8 :=
  b0 :: secondByte isClient payload.length ::
    (lengthRest payload.length ++ ((if isClient then maskKey.bytes else []) ++ maskedPayload isClient maskKey payload))

end WebSocketProtocol

open WebSocketProtocol

namespace WebSocketReader

/-- The length of a frame is read back. -/
theorem readLength_secondByte (isClient : Bool) {n : Nat} (h : n < 2 ^ 63) (rest : List UInt8) :
    readLength (secondByte isClient n) (lengthRest n ++ rest) = .ok (n, rest) := by
  rw [readLength, secondByte_length, lengthCode, lengthRest]
  by_cases hbyte : n ≤ PAYLOAD_BYTE_MAX
  · have hn : n < 256 := Nat.lt_of_le_of_lt hbyte (by decide)
    have hto : (UInt8.ofNat n).toNat = n := by
      rw [UInt8.toNat_ofNat']
      exact Nat.mod_eq_of_lt hn
    have hshort : UInt8.ofNat n ≠ PAYLOAD_SHORT := fun heq => by
      have := congrArg UInt8.toNat heq
      rw [hto] at this
      subst this
      exact absurd hbyte (by decide)
    have hlong : UInt8.ofNat n ≠ PAYLOAD_LONG := fun heq => by
      have := congrArg UInt8.toNat heq
      rw [hto] at this
      subst this
      exact absurd hbyte (by decide)
    simp only [if_pos hbyte, if_neg hshort, if_neg hlong, hto, List.nil_append]
  · by_cases hshort : n ≤ PAYLOAD_SHORT_MAX
    · have hmod : n % 256 ^ 2 = n := Nat.mod_eq_of_lt (Nat.lt_of_le_of_lt hshort (by decide))
      simp only [if_neg hbyte, if_pos hshort, readBigEndian_bigEndian, hmod, Nat.zero_mul, Nat.zero_add, Option.elim_some]
      rfl
    · have hmod : n % 256 ^ 8 = n := Nat.mod_eq_of_lt (Nat.lt_of_lt_of_le h (by decide))
      have hlong : UInt8.ofNat 127 ≠ PAYLOAD_SHORT := by decide
      have heq : UInt8.ofNat 127 = PAYLOAD_LONG := by decide
      simp only [if_neg hbyte, if_neg hshort, if_neg hlong, if_pos heq, readBigEndian_bigEndian, hmod, Nat.zero_mul, Nat.zero_add,
        Option.elim_some, if_neg (Nat.not_le.mpr h)]

/-- What `readHeader` finds in a frame. -/
def headerOf (isClient : Bool) (b0 : UInt8) (payload : List UInt8) (maskKey : MaskKey) : FrameHeader where
  opcode := b0 &&& B0_MASK_OPCODE
  isFinalFrame := decide (b0 &&& B0_FLAG_FIN ≠ 0)
  isControlFrame := decide (b0 &&& OPCODE_FLAG_CONTROL ≠ 0)
  frameLength := payload.length
  maskKey := if isClient then some maskKey else none

/-- A first byte that the reader takes. -/
def Legal (b0 : UInt8) (length : Nat) : Prop :=
  (b0 &&& OPCODE_FLAG_CONTROL ≠ 0 → b0 &&& B0_FLAG_FIN ≠ 0 ∧ length ≤ PAYLOAD_BYTE_MAX) ∧
    b0 &&& B0_FLAG_RSV1 = 0 ∧ b0 &&& B0_FLAG_RSV2 = 0 ∧ b0 &&& B0_FLAG_RSV3 = 0

/-- The header of a frame is read back by the other side. -/
theorem readHeader_frame (isClient : Bool) {b0 : UInt8} {payload : List UInt8} (maskKey : MaskKey) (rest : List UInt8)
    (hlegal : Legal b0 payload.length) (hlength : payload.length < 2 ^ 63) :
    readHeader (!isClient) (frame isClient b0 payload maskKey ++ rest) =
      .ok (headerOf isClient b0 payload maskKey, maskedPayload isClient maskKey payload ++ rest) := by
  obtain ⟨hcontrol, hrsv1, hrsv2, hrsv3⟩ := hlegal
  have hfinal : ¬ (decide (b0 &&& OPCODE_FLAG_CONTROL ≠ 0) = true ∧ decide (b0 &&& B0_FLAG_FIN ≠ 0) = false) := fun h =>
    of_decide_eq_false h.2 (hcontrol (of_decide_eq_true h.1)).1
  have hrsv : ¬ (b0 &&& B0_FLAG_RSV1 ≠ 0 ∨ b0 &&& B0_FLAG_RSV2 ≠ 0 ∨ b0 &&& B0_FLAG_RSV3 ≠ 0) := by
    rw [hrsv1, hrsv2, hrsv3]
    simp
  have hshort : ¬ (decide (b0 &&& OPCODE_FLAG_CONTROL ≠ 0) = true ∧ PAYLOAD_BYTE_MAX < payload.length) := fun h =>
    Nat.not_lt.mpr (hcontrol (of_decide_eq_true h.1)).2 h.2
  have hmasked : ¬ isClient = !isClient := by cases isClient <;> decide
  simp only [frame, List.cons_append, List.append_assoc, readHeader, if_neg hfinal, if_neg hrsv, secondByte_masked, if_neg hmasked,
    readLength_secondByte isClient hlength, Except.bind, if_neg hshort, headerOf]
  cases isClient <;> rfl

/-- And so is its payload. -/
theorem readPayload_frame (isClient : Bool) {b0 : UInt8} {payload : List UInt8} (maskKey : MaskKey) (rest : List UInt8) :
    readPayload (headerOf isClient b0 payload maskKey) (maskedPayload isClient maskKey payload ++ rest) = .ok (payload, rest) := by
  have hlength : (maskedPayload isClient maskKey payload).length = payload.length := by
    cases isClient
    · rfl
    · exact length_toggleMask maskKey 0 payload
  have henough : ¬ (maskedPayload isClient maskKey payload ++ rest).length < (headerOf isClient b0 payload maskKey).frameLength := by
    rw [List.length_append, hlength]
    exact Nat.not_lt.mpr (Nat.le_add_right _ _)
  rw [readPayload, if_neg henough]
  cases isClient
  · change Except.ok ((payload ++ rest).take payload.length, (payload ++ rest).drop payload.length) = _
    rw [List.take_left, List.drop_left]
  · change Except.ok (toggleMask maskKey 0 ((toggleMask maskKey 0 payload ++ rest).take payload.length),
      (toggleMask maskKey 0 payload ++ rest).drop payload.length) = _
    rw [← length_toggleMask maskKey 0 payload, List.take_left, List.drop_left, toggleMask_toggleMask]

end WebSocketReader

end Okhttp3

end LibraLive

import Mathlib.Algebra.Ring.Nat

/-!
# The frames of a web socket

`WebSocketWriter` and `WebSocketReader` over the bytes of a connection. The reader handles one frame after the other, as the
loop of `RealWebSocket` has it, until it is closed or has failed; texts are the bytes of their UTF-8.
-/

namespace LibraLive

namespace Okhttp3

namespace WebSocketProtocol

def B0_FLAG_FIN : UInt8 := 0b10000000
def B0_FLAG_RSV1 : UInt8 := 0b01000000
def B0_FLAG_RSV2 : UInt8 := 0b00100000
def B0_FLAG_RSV3 : UInt8 := 0b00010000
def B0_MASK_OPCODE : UInt8 := 0b00001111
def OPCODE_FLAG_CONTROL : UInt8 := 0b00001000
def B1_FLAG_MASK : UInt8 := 0b10000000
def B1_MASK_LENGTH : UInt8 := 0b01111111

def OPCODE_CONTINUATION : UInt8 := 0x0
def OPCODE_TEXT : UInt8 := 0x1
def OPCODE_BINARY : UInt8 := 0x2
def OPCODE_CONTROL_CLOSE : UInt8 := 0x8
def OPCODE_CONTROL_PING : UInt8 := 0x9
def OPCODE_CONTROL_PONG : UInt8 := 0xa

def PAYLOAD_BYTE_MAX : Nat := 125
def CLOSE_MESSAGE_MAX : Nat := PAYLOAD_BYTE_MAX - 2
def PAYLOAD_SHORT : UInt8 := 126
def PAYLOAD_SHORT_MAX : Nat := 0xffff
def PAYLOAD_LONG : UInt8 := 127
def CLOSE_NO_STATUS_CODE : Int := 1005

/-- Four bytes. -/
structure MaskKey where
  key0 : UInt8
  key1 : UInt8
  key2 : UInt8
  key3 : UInt8
  deriving DecidableEq, Repr

def MaskKey.bytes (maskKey : MaskKey) : List UInt8 := [maskKey.key0, maskKey.key1, maskKey.key2, maskKey.key3]

/-- `toggleMask` from a place of the key on. -/
def toggleMask (key : MaskKey) (keyIndex : Nat) : List UInt8 → List UInt8
  | [] => []
  | b :: bytes => (b ^^^ key.bytes.getD (keyIndex % 4) 0) :: toggleMask key (keyIndex + 1) bytes

def closeCodeExceptionMessage (code : Int) : Option String :=
  if code < 1000 ∨ 5000 ≤ code then some ("Code must be in range [1000,5000): " ++ toString code)
  else if (1004 ≤ code ∧ code ≤ 1006) ∨ (1012 ≤ code ∧ code ≤ 2999) then
    some ("Code " ++ toString code ++ " is reserved and may not be used.")
  else none

/-- `writeShort` and `writeLong`: a number in `k` bytes. -/
def bigEndian : Nat → Nat → List UInt8
  | 0, _ => []
  | k + 1, n => UInt8.ofNat (n / 256 ^ k) :: bigEndian k n

/-- The number in the next `k` bytes, after `acc`. -/
def readBigEndian : Nat → Nat → List UInt8 → Option (Nat × List UInt8)
  | 0, acc, source => some (acc, source)
  | _ + 1, _, [] => none
  | k + 1, acc, b :: source => readBigEndian k (acc * 256 + b.toNat) source

end WebSocketProtocol

open WebSocketProtocol

/-! ## The writer -/

/-- The writer with its `FrameSink`, which is closed when there is no active writer; a `contentLength` of -1 is `none`. -/
structure WebSocketWriter where
  isClient : Bool
  writerClosed : Bool
  activeWriter : Bool
  buffer : List UInt8
  formatOpcode : UInt8
  contentLength : Option Nat
  isFirstFrame : Bool
  deriving DecidableEq, Repr

/-- How a call of the writer ends: the writer after it, and the bytes it wrote or the message of its exception. -/
abbrev Written := WebSocketWriter × Except String (List UInt8)

namespace WebSocketWriter

def new (isClient : Bool) : WebSocketWriter where
  isClient := isClient
  writerClosed := false
  activeWriter := false
  buffer := []
  formatOpcode := 0
  contentLength := none
  isFirstFrame := false

/-- The bytes of `writeControlFrame`; the mask key is the next of `random`. -/
def writeControlFrame (w : WebSocketWriter) (opcode : UInt8) (payload : List UInt8) (maskKey : MaskKey) :
    Except String (List UInt8) :=
  if w.writerClosed then .error "closed"
  else if PAYLOAD_BYTE_MAX < payload.length then
    .error ("Payload size must be less than or equal to " ++ toString PAYLOAD_BYTE_MAX)
  else
    let b0 := B0_FLAG_FIN ||| opcode
    let b1 := UInt8.ofNat payload.length
    .ok (if w.isClient then b0 :: (b1 ||| B1_FLAG_MASK) :: (maskKey.bytes ++ toggleMask maskKey 0 payload) else b0 :: b1 :: payload)

/-- What `validateCloseCode` throws on a code that is not 0. -/
def invalidCode (code : Int) : Option String := if code = 0 then none else closeCodeExceptionMessage code

/-- The payload of `writeClose`. -/
def closePayload (code : Int) (reason : Option (List UInt8)) : Except String (List UInt8) :=
  if code = 0 ∧ reason = none then .ok []
  else (invalidCode code).elim (.ok (bigEndian 2 code.toNat ++ reason.getD [])) .error

/-- The writer is closed also if `writeControlFrame` throws. -/
def writeClose (w : WebSocketWriter) (code : Int) (reason : Option (List UInt8)) (maskKey : MaskKey) : Written :=
  match closePayload code reason with
  | .error message => (w, .error message)
  | .ok payload => ({ w with writerClosed := true }, w.writeControlFrame OPCODE_CONTROL_CLOSE payload maskKey)

def newMessageSink (w : WebSocketWriter) (formatOpcode : UInt8) (contentLength : Option Nat) : Written :=
  if w.activeWriter then (w, .error "Another message writer is active. Did you call close()?")
  else ({ w with activeWriter := true, formatOpcode, contentLength, isFirstFrame := true }, .ok [])

/-- The bytes of `writeMessageFrame`, which takes the first `byteCount` bytes of the buffer. -/
def writeMessageFrame (w : WebSocketWriter) (byteCount : Nat) (isFinal : Bool) (maskKey : MaskKey) : Written :=
  if w.writerClosed then (w, .error "closed")
  else
    let b0 := if w.isFirstFrame then w.formatOpcode else OPCODE_CONTINUATION
    let b0 := if isFinal then b0 ||| B0_FLAG_FIN else b0
    let b1 := if w.isClient then B1_FLAG_MASK else 0
    let length :=
      if byteCount ≤ PAYLOAD_BYTE_MAX then [b1 ||| UInt8.ofNat byteCount]
      else if byteCount ≤ PAYLOAD_SHORT_MAX then (b1 ||| PAYLOAD_SHORT) :: bigEndian 2 byteCount
      else (b1 ||| PAYLOAD_LONG) :: bigEndian 8 byteCount
    let payload := w.buffer.take byteCount
    ({ w with buffer := w.buffer.drop byteCount },
      .ok (b0 :: (length ++ if w.isClient then maskKey.bytes ++ toggleMask maskKey 0 payload else payload)))

/-- What a method of the sink does after `writeMessageFrame`, unless that throws. -/
def andThen (written : Written) (f : WebSocketWriter → WebSocketWriter) : Written :=
  match written.2 with
  | .error _ => written
  | .ok bytes => (f written.1, .ok bytes)

/-- `FrameSink.write`: `complete` of the bytes, or all of them, are in complete segments of the buffer. -/
def write (w : WebSocketWriter) (source : List UInt8) (complete : Nat) (maskKey : MaskKey) : Written :=
  if w.activeWriter then
    let w := { w with buffer := w.buffer ++ source }
    let deferWrite := w.isFirstFrame && (w.contentLength.map fun contentLength : Nat =>
      decide ((contentLength : Int) - 8192 < w.buffer.length)).getD false
    let emitCount := min complete w.buffer.length
    if 0 < emitCount ∧ deferWrite = false then
      andThen (w.writeMessageFrame emitCount false maskKey) fun w => { w with isFirstFrame := false }
    else (w, .ok [])
  else (w, .error "closed")

def flush (w : WebSocketWriter) (maskKey : MaskKey) : Written :=
  if w.activeWriter then
    andThen (w.writeMessageFrame w.buffer.length false maskKey) fun w => { w with isFirstFrame := false }
  else (w, .error "closed")

def close (w : WebSocketWriter) (maskKey : MaskKey) : Written :=
  if w.activeWriter then
    andThen (w.writeMessageFrame w.buffer.length true maskKey) fun w => { w with activeWriter := false }
  else (w, .error "closed")

/-- The calls of the writer and of its sink. -/
inductive Act where
  | writePing (payload : List UInt8) (maskKey : MaskKey)
  | writePong (payload : List UInt8) (maskKey : MaskKey)
  | writeClose (code : Int) (reason : Option (List UInt8)) (maskKey : MaskKey)
  | newMessageSink (text : Bool) (contentLength : Option Nat)
  | write (source : List UInt8) (complete : Nat) (maskKey : MaskKey)
  | flush (maskKey : MaskKey)
  | close (maskKey : MaskKey)
  deriving DecidableEq, Repr

def step (w : WebSocketWriter) : Act → Written
  | .writePing payload maskKey => (w, w.writeControlFrame OPCODE_CONTROL_PING payload maskKey)
  | .writePong payload maskKey => (w, w.writeControlFrame OPCODE_CONTROL_PONG payload maskKey)
  | .writeClose code reason maskKey => w.writeClose code reason maskKey
  | .newMessageSink text contentLength => w.newMessageSink (if text then OPCODE_TEXT else OPCODE_BINARY) contentLength
  | .write source complete maskKey => w.write source complete maskKey
  | .flush maskKey => w.flush maskKey
  | .close maskKey => w.close maskKey

/-- The bytes of a call; one that throws has written none. -/
def sent : Except String (List UInt8) → List UInt8
  | .error _ => []
  | .ok bytes => bytes

/-- Calls one after the other, the caller going on after an exception, and all they write. -/
def run (w : WebSocketWriter) : List Act → WebSocketWriter × List UInt8
  | [] => (w, [])
  | a :: acts => (((w.step a).1.run acts).1, sent (w.step a).2 ++ ((w.step a).1.run acts).2)

end WebSocketWriter

/-! ## The reader -/

/-- What `FrameCallback` is told. -/
inductive FrameEvent where
  | onReadMessage (text : Bool) (bytes : List UInt8)
  | onReadPing (payload : List UInt8)
  | onReadPong (payload : List UInt8)
  | onReadClose (code : Int) (reason : List UInt8)
  deriving DecidableEq, Repr

/-- An `EOFException`, or a `ProtocolException` with its message. -/
inductive ReadError where
  | eof
  | protocol (message : String)
  deriving DecidableEq, Repr

/-- What `readHeader` finds. -/
structure FrameHeader where
  opcode : UInt8
  isFinalFrame : Bool
  isControlFrame : Bool
  frameLength : Nat
  maskKey : Option MaskKey
  deriving DecidableEq, Repr

/-- The reader: the message that `readMessage` is reading, if any, and what the callback has been told. -/
structure WebSocketReader where
  isClient : Bool
  source : List UInt8
  closed : Bool
  message : Option (UInt8 × List UInt8)
  events : List FrameEvent
  failed : Option ReadError
  deriving DecidableEq, Repr

namespace WebSocketReader

def new (isClient : Bool) (source : List UInt8) : WebSocketReader where
  isClient := isClient
  source := source
  closed := false
  message := none
  events := []
  failed := none

/-- The length of a frame after its second byte. -/
def readLength (b1 : UInt8) (source : List UInt8) : Except ReadError (Nat × List UInt8) :=
  let frameLength := b1 &&& B1_MASK_LENGTH
  if frameLength = PAYLOAD_SHORT then (readBigEndian 2 0 source).elim (.error .eof) .ok
  else if frameLength = PAYLOAD_LONG then
    (readBigEndian 8 0 source).elim (.error .eof) fun length =>
      if 2 ^ 63 ≤ length.1 then
        .error (.protocol ("Frame length 0x" ++ String.ofList (Nat.toDigits 16 length.1) ++ " > 0x7FFFFFFFFFFFFFFF"))
      else .ok length
  else .ok (frameLength.toNat, source)

/-- `readFully(maskKey)`. -/
def readMaskKey : List UInt8 → Except ReadError (MaskKey × List UInt8)
  | key0 :: key1 :: key2 :: key3 :: source => .ok (⟨key0, key1, key2, key3⟩, source)
  | _ => .error .eof

def readHeader (isClient : Bool) : List UInt8 → Except ReadError (FrameHeader × List UInt8)
  | [] => .error .eof
  | b0 :: source =>
    let opcode := b0 &&& B0_MASK_OPCODE
    let isFinalFrame := decide (b0 &&& B0_FLAG_FIN ≠ 0)
    let isControlFrame := decide (b0 &&& OPCODE_FLAG_CONTROL ≠ 0)
    if isControlFrame ∧ isFinalFrame = false then .error (.protocol "Control frames must be final.")
    else if b0 &&& B0_FLAG_RSV1 ≠ 0 ∨ b0 &&& B0_FLAG_RSV2 ≠ 0 ∨ b0 &&& B0_FLAG_RSV3 ≠ 0 then
      .error (.protocol "Reserved flags are unsupported.")
    else
      match source with
      | [] => .error .eof
      | b1 :: source =>
        let isMasked := decide (b1 &&& B1_FLAG_MASK ≠ 0)
        if isMasked = isClient then
          .error (.protocol (if isClient then "Server-sent frames must not be masked." else "Client-sent frames must be masked."))
        else
          (readLength b1 source).bind fun length =>
            if isControlFrame ∧ PAYLOAD_BYTE_MAX < length.1 then
              .error (.protocol ("Control frame must be less than " ++ toString PAYLOAD_BYTE_MAX ++ "B."))
            else if isMasked then
              (readMaskKey length.2).map fun key => (⟨opcode, isFinalFrame, isControlFrame, length.1, some key.1⟩, key.2)
            else .ok (⟨opcode, isFinalFrame, isControlFrame, length.1, none⟩, length.2)

/-- The payload of a frame, unmasked. -/
def readPayload (header : FrameHeader) (source : List UInt8) : Except ReadError (List UInt8 × List UInt8) :=
  if source.length < header.frameLength then .error .eof
  else
    let payload := source.take header.frameLength
    .ok (header.maskKey.elim payload fun maskKey => toggleMask maskKey 0 payload, source.drop header.frameLength)

/-- What `readControlFrame` tells the callback of a payload. -/
def controlEvent (opcode : UInt8) (payload : List UInt8) : Except ReadError FrameEvent :=
  if opcode = OPCODE_CONTROL_PING then .ok (.onReadPing payload)
  else if opcode = OPCODE_CONTROL_PONG then .ok (.onReadPong payload)
  else if opcode = OPCODE_CONTROL_CLOSE then
    match payload with
    | [] => .ok (.onReadClose CLOSE_NO_STATUS_CODE [])
    | [_] => .error (.protocol "Malformed close payload length of 1.")
    | b0 :: b1 :: reason =>
      let unsigned := b0.toNat * 256 + b1.toNat
      let code : Int := if unsigned < 0x8000 then unsigned else unsigned - 0x10000
      (closeCodeExceptionMessage code).elim (.ok (.onReadClose code reason)) fun message => .error (.protocol message)
  else .error (.protocol ("Unknown control opcode: " ++ String.ofList (Nat.toDigits 16 opcode.toNat)))

def fail (r : WebSocketReader) (e : ReadError) : WebSocketReader := { r with failed := some e }

def expected (opcode : UInt8) : ReadError :=
  .protocol ("Expected continuation opcode. Got: " ++ String.ofList (Nat.toDigits 16 opcode.toNat))

/-- `readControlFrame`. One that closes the reader within a message ends `readUntilNonControlFrame`, and its opcode is not that
of a continuation. -/
def readControlFrame (r : WebSocketReader) (header : FrameHeader) (source : List UInt8) : WebSocketReader :=
  match readPayload header source with
  | .error e => r.fail e
  | .ok (payload, source) =>
    match controlEvent header.opcode payload with
    | .error e => { r with source }.fail e
    | .ok event =>
      let r := { r with source, events := r.events ++ [event] }
      if header.opcode = OPCODE_CONTROL_CLOSE then
        let r := { r with closed := true }
        if r.message.isSome then r.fail (expected header.opcode) else r
      else r

/-- A round of `readMessage`, and the end of `readMessageFrame`. -/
def readMessage (r : WebSocketReader) (opcode : UInt8) (buffer : List UInt8) (header : FrameHeader) (source : List UInt8) :
    WebSocketReader :=
  match readPayload header source with
  | .error e => r.fail e
  | .ok (payload, source) =>
    if header.isFinalFrame then
      { r with source, message := none, events := r.events ++ [.onReadMessage (opcode == OPCODE_TEXT) (buffer ++ payload)] }
    else { r with source, message := some (opcode, buffer ++ payload) }

/-- One frame, if the reader is not closed and has not failed. -/
def step (r : WebSocketReader) : WebSocketReader :=
  if r.closed ∨ r.failed.isSome then r
  else
    match readHeader r.isClient r.source with
    | .error e => r.fail e
    | .ok (header, source) =>
      if header.isControlFrame then r.readControlFrame header source
      else
        match r.message with
        | none =>
          if header.opcode ≠ OPCODE_TEXT ∧ header.opcode ≠ OPCODE_BINARY then
            r.fail (.protocol ("Unknown opcode: " ++ String.ofList (Nat.toDigits 16 header.opcode.toNat)))
          else r.readMessage header.opcode [] header source
        | some (opcode, buffer) =>
          if header.opcode ≠ OPCODE_CONTINUATION then r.fail (expected header.opcode)
          else r.readMessage opcode buffer header source

/-- Frames one after the other. -/
def run (r : WebSocketReader) : Nat → WebSocketReader
  | 0 => r
  | n + 1 => r.step.run n

end WebSocketReader

end Okhttp3

end LibraLive

import LibraLive.Lemmas.WebSocketFrames

/-!
# What the other side of a web socket is told

The bytes that a writer writes, read by the reader of the other side, tell its callback of every ping, pong and message and of
the close, in order and once each, however the messages were cut into frames and whatever came between these
(`messages_arrive`).
-/

namespace LibraLive

namespace Okhttp3

open WebSocketProtocol

/-! ## What is said -/

/-- What the calls so far have said: whether there was a close, and the message that is open. -/
structure Said where
  closed : Bool
  message : Option (Bool × List UInt8)

/-- What a call says: nothing after a close, nor if the call may not be made. -/
def sayStep (s : Said) : WebSocketWriter.Act → Said × List FrameEvent
  | .writePing payload _ => (s, if s.closed ∨ PAYLOAD_BYTE_MAX < payload.length then [] else [.onReadPing payload])
  | .writePong payload _ => (s, if s.closed ∨ PAYLOAD_BYTE_MAX < payload.length then [] else [.onReadPong payload])
  | .writeClose code reason _ =>
    if s.closed ∨ (WebSocketWriter.invalidCode code).isSome then (s, [])
    else ({ s with closed := true }, [.onReadClose (if code = 0 then CLOSE_NO_STATUS_CODE else code) (reason.getD [])])
  | .newMessageSink text _ => ({ s with message := some (s.message.getD (text, [])) }, [])
  | .write source _ _ => ({ s with message := s.message.map fun m => (m.1, m.2 ++ source) }, [])
  | .flush _ => (s, [])
  | .close _ =>
    if s.closed then (s, []) else ({ s with message := none }, (s.message.map fun m => .onReadMessage m.1 m.2).toList)

/-- What the calls say. -/
def heard (s : Said) : List WebSocketWriter.Act → List FrameEvent
  | [] => []
  | a :: acts => (sayStep s a).2 ++ heard (sayStep s a).1 acts

/-- After a close nothing is said. -/
theorem sayStep_of_closed {s : Said} (hclosed : s.closed = true) (a : WebSocketWriter.Act) :
    (sayStep s a).2 = [] ∧ (sayStep s a).1.closed = true := by
  cases a with
  | writePing | writePong => exact ⟨if_pos (.inl hclosed), hclosed⟩
  | writeClose =>
    rw [sayStep, if_pos (.inl hclosed)]
    exact ⟨rfl, hclosed⟩
  | newMessageSink | write | flush => exact ⟨rfl, hclosed⟩
  | close =>
    rw [sayStep, if_pos hclosed]
    exact ⟨rfl, hclosed⟩

theorem heard_of_closed {s : Said} (hclosed : s.closed = true) (acts : List WebSocketWriter.Act) : heard s acts = [] := by
  induction acts generalizing s with
  | nil => rfl
  | cons a acts ih =>
    obtain ⟨hnone, hstill⟩ := sayStep_of_closed hclosed a
    rw [heard, hnone, ih hstill]
    rfl

/-- What `RealWebSocket.close` makes sure of, and the writer does not: a reason is short, and comes with a code. -/
def Proper : WebSocketWriter.Act → Prop
  | .writeClose code reason _ => (code = 0 → reason = none) ∧ (reason.getD []).length ≤ CLOSE_MESSAGE_MAX
  | _ => True

/-- The bytes of the messages. -/
def byteCount : List WebSocketWriter.Act → Nat
  | [] => 0
  | .write source _ _ :: acts => source.length + byteCount acts
  | _ :: acts => byteCount acts

/-! ## What the writer writes -/

/-- The first byte of a frame of a message. -/
def messageByte (opcode : UInt8) (isFinal : Bool) : UInt8 := if isFinal then opcode ||| B0_FLAG_FIN else opcode

namespace WebSocketWriter

variable {w : WebSocketWriter} {payload : List UInt8}

theorem writeControlFrame_of_open (hopen : w.writerClosed = false) (hlength : payload.length ≤ PAYLOAD_BYTE_MAX) (opcode : UInt8)
    (maskKey : MaskKey) :
    w.writeControlFrame opcode payload maskKey = .ok (frame w.isClient (B0_FLAG_FIN ||| opcode) payload maskKey) := by
  rw [writeControlFrame, hopen, if_neg Bool.false_ne_true, if_neg (Nat.not_lt.mpr hlength), frame, secondByte, lengthCode,
    if_pos hlength, lengthRest, if_pos hlength, maskedPayload]
  cases w.isClient
  · rw [if_neg Bool.false_ne_true, if_neg Bool.false_ne_true, if_neg Bool.false_ne_true, UInt8.zero_or]
    rfl
  · rw [if_pos rfl, if_pos rfl, if_pos rfl, UInt8.or_comm B1_FLAG_MASK]
    rfl

/-- One that may not be written is not. -/
theorem sent_writeControlFrame (h : w.writerClosed = true ∨ PAYLOAD_BYTE_MAX < payload.length) (opcode : UInt8)
    (maskKey : MaskKey) :
    sent (w.writeControlFrame opcode payload maskKey) = [] := by
  rw [writeControlFrame]
  split
  · rfl
  · rename_i hopen
    rw [if_pos (h.resolve_left hopen)]
    rfl

/-- The frame of the first bytes of the buffer. -/
def messageFrame (w : WebSocketWriter) (byteCount : Nat) (isFinal : Bool) (maskKey : MaskKey) : List UInt8 :=
  frame w.isClient (messageByte (if w.isFirstFrame then w.formatOpcode else OPCODE_CONTINUATION) isFinal)
    (w.buffer.take byteCount) maskKey

theorem writeMessageFrame_of_open (hopen : w.writerClosed = false) {byteCount : Nat} (hcount : byteCount ≤ w.buffer.length)
    (isFinal : Bool) (maskKey : MaskKey) :
    w.writeMessageFrame byteCount isFinal maskKey =
      ({ w with buffer := w.buffer.drop byteCount }, .ok (w.messageFrame byteCount isFinal maskKey)) := by
  have htake : (w.buffer.take byteCount).length = byteCount := List.length_take_of_le hcount
  rw [writeMessageFrame, hopen, if_neg Bool.false_ne_true, messageFrame, frame, htake, secondByte, lengthCode, lengthRest,
    maskedPayload, messageByte]
  by_cases hbyte : byteCount ≤ PAYLOAD_BYTE_MAX
  · simp only [if_pos hbyte, List.singleton_append, List.nil_append]
    cases w.isClient <;> rfl
  · by_cases hshort : byteCount ≤ PAYLOAD_SHORT_MAX
    · simp only [if_neg hbyte, if_pos hshort, List.cons_append]
      cases w.isClient <;> rfl
    · simp only [if_neg hbyte, if_neg hshort, List.cons_append]
      cases w.isClient <;> rfl

end WebSocketWriter

/-! ## What the reader makes of it -/

namespace WebSocketReader

variable {r : WebSocketReader} {rest : List UInt8} {payload : List UInt8} {maskKey : MaskKey}

theorem run_add (r : WebSocketReader) (m n : Nat) : r.run (m + n) = (r.run m).run n := by
  induction m generalizing r with
  | zero => rw [Nat.zero_add, run]
  | succ m ih => rw [Nat.succ_add, run, run, ih]

/-- The reader can go on. -/
def Open (r : WebSocketReader) : Prop := r.closed = false ∧ r.failed = none

theorem step_of_frame (hopen : Open r) {b0 : UInt8} (hsource : r.source = frame (!r.isClient) b0 payload maskKey ++ rest)
    (hlegal : Legal b0 payload.length) (hlength : payload.length < 2 ^ 63) :
    r.step =
      if (headerOf (!r.isClient) b0 payload maskKey).isControlFrame then
        r.readControlFrame (headerOf (!r.isClient) b0 payload maskKey) (maskedPayload (!r.isClient) maskKey payload ++ rest)
      else r.message.elim
        (if (headerOf (!r.isClient) b0 payload maskKey).opcode ≠ OPCODE_TEXT ∧
            (headerOf (!r.isClient) b0 payload maskKey).opcode ≠ OPCODE_BINARY then
          r.fail (.protocol ("Unknown opcode: " ++
            String.ofList (Nat.toDigits 16 (headerOf (!r.isClient) b0 payload maskKey).opcode.toNat)))
        else r.readMessage (headerOf (!r.isClient) b0 payload maskKey).opcode []
          (headerOf (!r.isClient) b0 payload maskKey) (maskedPayload (!r.isClient) maskKey payload ++ rest))
        fun message =>
          if (headerOf (!r.isClient) b0 payload maskKey).opcode ≠ OPCODE_CONTINUATION then
            r.fail (expected (headerOf (!r.isClient) b0 payload maskKey).opcode)
          else r.readMessage message.1 message.2
            (headerOf (!r.isClient) b0 payload maskKey) (maskedPayload (!r.isClient) maskKey payload ++ rest) := by
  have hgo : ¬ (r.closed ∨ r.failed.isSome) := by
    rw [hopen.1, hopen.2]
    decide
  have hheader := readHeader_frame (!r.isClient) maskKey rest hlegal hlength
  rw [Bool.not_not] at hheader
  rw [step, if_neg hgo, hsource, hheader]
  cases r.message <;> rfl

/-- The reader is told of a control frame. -/
theorem step_control (hopen : Open r) {opcode : UInt8}
    (hopcode : opcode = OPCODE_CONTROL_PING ∨ opcode = OPCODE_CONTROL_PONG ∨ opcode = OPCODE_CONTROL_CLOSE)
    (hsource : r.source = frame (!r.isClient) (B0_FLAG_FIN ||| opcode) payload maskKey ++ rest)
    (hlength : payload.length ≤ PAYLOAD_BYTE_MAX) {event : FrameEvent} (hevent : controlEvent opcode payload = .ok event) :
    r.step =
      if opcode = OPCODE_CONTROL_CLOSE then
        if r.message.isSome then
          { r with source := rest, events := r.events ++ [event], closed := true }.fail (expected opcode)
        else { r with source := rest, events := r.events ++ [event], closed := true }
      else { r with source := rest, events := r.events ++ [event] } := by
  have hbyte : (B0_FLAG_FIN ||| opcode) &&& B0_MASK_OPCODE = opcode ∧ (B0_FLAG_FIN ||| opcode) &&& OPCODE_FLAG_CONTROL ≠ 0 ∧
      (B0_FLAG_FIN ||| opcode) &&& B0_FLAG_FIN ≠ 0 ∧ (B0_FLAG_FIN ||| opcode) &&& B0_FLAG_RSV1 = 0 ∧
      (B0_FLAG_FIN ||| opcode) &&& B0_FLAG_RSV2 = 0 ∧ (B0_FLAG_FIN ||| opcode) &&& B0_FLAG_RSV3 = 0 := by
    rcases hopcode with rfl | rfl | rfl <;> decide
  obtain ⟨hcode, hcontrol, hfinal, hrsv⟩ := hbyte
  have hlegal : Legal (B0_FLAG_FIN ||| opcode) payload.length := ⟨fun _ => ⟨hfinal, hlength⟩, hrsv⟩
  have hcontrolFrame : (headerOf (!r.isClient) (B0_FLAG_FIN ||| opcode) payload maskKey).isControlFrame = true :=
    decide_eq_true hcontrol
  have hheader : (headerOf (!r.isClient) (B0_FLAG_FIN ||| opcode) payload maskKey).opcode = opcode := hcode
  rw [step_of_frame hopen hsource hlegal (Nat.lt_of_le_of_lt hlength (by decide)), if_pos hcontrolFrame, readControlFrame,
    readPayload_frame, hheader]
  dsimp only
  rw [hevent]

/-- What becomes of the reader with a frame of a message. -/
def received (r : WebSocketReader) (rest : List UInt8) (opcode : UInt8) (bytes : List UInt8) (isFinal : Bool) : WebSocketReader :=
  if isFinal then { r with source := rest, message := none, events := r.events ++ [.onReadMessage (opcode == OPCODE_TEXT) bytes] }
  else { r with source := rest, message := some (opcode, bytes) }

theorem readMessage_frame {b0 : UInt8} (opcode : UInt8) (buffer : List UInt8) :
    r.readMessage opcode buffer (headerOf (!r.isClient) b0 payload maskKey) (maskedPayload (!r.isClient) maskKey payload ++ rest) =
      r.received rest opcode (buffer ++ payload) (decide (b0 &&& B0_FLAG_FIN ≠ 0)) := by
  rw [readMessage, readPayload_frame]
  rfl

/-- The first byte of a frame of a message says what it is. -/
theorem messageByte_spec {opcode : UInt8}
    (hopcode : opcode = OPCODE_TEXT ∨ opcode = OPCODE_BINARY ∨ opcode = OPCODE_CONTINUATION) (isFinal : Bool) (length : Nat) :
    messageByte opcode isFinal &&& B0_MASK_OPCODE = opcode ∧ ¬ messageByte opcode isFinal &&& OPCODE_FLAG_CONTROL ≠ 0 ∧
      decide (messageByte opcode isFinal &&& B0_FLAG_FIN ≠ 0) = isFinal ∧ Legal (messageByte opcode isFinal) length := by
  have hbyte : messageByte opcode isFinal &&& B0_MASK_OPCODE = opcode ∧ ¬ messageByte opcode isFinal &&& OPCODE_FLAG_CONTROL ≠ 0 ∧
      decide (messageByte opcode isFinal &&& B0_FLAG_FIN ≠ 0) = isFinal ∧ messageByte opcode isFinal &&& B0_FLAG_RSV1 = 0 ∧
      messageByte opcode isFinal &&& B0_FLAG_RSV2 = 0 ∧ messageByte opcode isFinal &&& B0_FLAG_RSV3 = 0 := by
    rcases hopcode with rfl | rfl | rfl <;> cases isFinal <;> decide
  obtain ⟨hcode, hcontrol, hfinal, hrsv⟩ := hbyte
  exact ⟨hcode, hcontrol, hfinal, fun hne => absurd hne hcontrol, hrsv⟩

/-- The first frame of a message. -/
theorem step_first (hopen : Open r) {opcode : UInt8} {isFinal : Bool} (hopcode : opcode = OPCODE_TEXT ∨ opcode = OPCODE_BINARY)
    (hmessage : r.message = none) (hsource : r.source = frame (!r.isClient) (messageByte opcode isFinal) payload maskKey ++ rest)
    (hlength : payload.length < 2 ^ 63) : r.step = r.received rest opcode payload isFinal := by
  obtain ⟨hcode, hcontrol, hfinal, hlegal⟩ :=
    messageByte_spec (hopcode.elim .inl fun h => .inr (.inl h)) isFinal payload.length
  have hknown : ¬ (opcode ≠ OPCODE_TEXT ∧ opcode ≠ OPCODE_BINARY) := fun h => hopcode.elim h.1 h.2
  have hheader : (headerOf (!r.isClient) (messageByte opcode isFinal) payload maskKey).opcode = opcode := hcode
  have hcontrolFrame : ¬ (headerOf (!r.isClient) (messageByte opcode isFinal) payload maskKey).isControlFrame = true := fun h =>
    hcontrol (of_decide_eq_true h)
  rw [step_of_frame hopen hsource hlegal hlength, if_neg hcontrolFrame, hmessage, Option.elim_none, hheader, if_neg hknown,
    readMessage_frame, hfinal, List.nil_append]

/-- A frame that continues one. -/
theorem step_later (hopen : Open r) {opcode : UInt8} {buffer : List UInt8} {isFinal : Bool}
    (hmessage : r.message = some (opcode, buffer))
    (hsource : r.source = frame (!r.isClient) (messageByte OPCODE_CONTINUATION isFinal) payload maskKey ++ rest)
    (hlength : payload.length < 2 ^ 63) : r.step = r.received rest opcode (buffer ++ payload) isFinal := by
  obtain ⟨hcode, hcontrol, hfinal, hlegal⟩ := messageByte_spec (.inr (.inr rfl)) isFinal payload.length
  have hheader : (headerOf (!r.isClient) (messageByte OPCODE_CONTINUATION isFinal) payload maskKey).opcode = OPCODE_CONTINUATION :=
    hcode
  have hcontrolFrame : ¬ (headerOf (!r.isClient) (messageByte OPCODE_CONTINUATION isFinal) payload maskKey).isControlFrame = true :=
    fun h => hcontrol (of_decide_eq_true h)
  rw [step_of_frame hopen hsource hlegal hlength, if_neg hcontrolFrame, hmessage, Option.elim_some, hheader,
    if_neg (not_not.mpr rfl), readMessage_frame, hfinal]

end WebSocketReader

/-- The payload of a close with a valid code. -/
theorem closePayload_spec {code : Int} {reason : Option (List UInt8)} (hcode : code = 0 → reason = none)
    (hreason : (reason.getD []).length ≤ CLOSE_MESSAGE_MAX) (hvalid : WebSocketWriter.invalidCode code = none) :
    ∃ payload, WebSocketWriter.closePayload code reason = .ok payload ∧ payload.length ≤ PAYLOAD_BYTE_MAX ∧
      WebSocketReader.controlEvent OPCODE_CONTROL_CLOSE payload =
        .ok (.onReadClose (if code = 0 then CLOSE_NO_STATUS_CODE else code) (reason.getD [])) := by
  by_cases hzero : code = 0
  · obtain rfl := hcode hzero
    subst hzero
    exact ⟨[], rfl, Nat.zero_le _, rfl⟩
  · have hnone : closeCodeExceptionMessage code = none := by
      rw [WebSocketWriter.invalidCode, if_neg hzero] at hvalid
      exact hvalid
    have hrange : 1000 ≤ code ∧ code < 5000 := by
      rw [closeCodeExceptionMessage] at hnone
      split at hnone
      · cases hnone
      · omega
    obtain ⟨n, rfl⟩ := Int.eq_ofNat_of_zero_le (by omega : 0 ≤ code)
    refine ⟨bigEndian 2 n ++ reason.getD [], ?_, ?_, ?_⟩
    · rw [WebSocketWriter.closePayload, if_neg fun h => hzero h.1, hvalid]
      rfl
    · rw [List.length_append]
      exact Nat.add_le_add_left hreason 2
    · have hunsigned : (UInt8.ofNat (n / 256 ^ 1)).toNat * 256 + (UInt8.ofNat (n / 256 ^ 0)).toNat = n := by
        rw [UInt8.toNat_ofNat', UInt8.toNat_ofNat']
        omega
      have hsmall : n < 0x8000 := by omega
      change Option.elim (closeCodeExceptionMessage (if _ then _ else _)) _ _ = _
      rw [hunsigned, if_pos hsmall, hnone, Option.elim_none, if_neg hzero]
      rfl

namespace WebSocketWriter

variable {w : WebSocketWriter}

/-- A writer that is closed writes nothing. -/
theorem step_of_closed (hclosed : w.writerClosed = true) (a : Act) :
    sent (w.step a).2 = [] ∧ (w.step a).1.writerClosed = true ∧ ((w.step a).1.activeWriter = false → w.activeWriter = false) := by
  have hframe : ∀ {n isFinal maskKey f} (w₀ : WebSocketWriter), w₀.writerClosed = true →
      andThen (w₀.writeMessageFrame n isFinal maskKey) f = (w₀, .error "closed") := by
    intro n isFinal maskKey f w₀ hw
    rw [writeMessageFrame, if_pos hw]
    rfl
  cases a with
  | writePing | writePong => exact ⟨sent_writeControlFrame (.inl hclosed) _ _, hclosed, id⟩
  | writeClose code reason maskKey =>
    rw [step, writeClose]
    split
    · exact ⟨rfl, hclosed, id⟩
    · exact ⟨sent_writeControlFrame (.inl hclosed) _ _, rfl, id⟩
  | newMessageSink text contentLength =>
    rw [step, newMessageSink]
    split
    · exact ⟨rfl, hclosed, id⟩
    · exact ⟨rfl, hclosed, fun h => Bool.noConfusion h⟩
  | write source complete maskKey =>
    rw [step, write]
    split
    · dsimp only
      split
      · rw [hframe { w with buffer := w.buffer ++ source } hclosed]
        exact ⟨rfl, hclosed, id⟩
      · exact ⟨rfl, hclosed, id⟩
    · exact ⟨rfl, hclosed, id⟩
  | flush maskKey =>
    rw [step, flush]
    split
    · rw [hframe w hclosed]
      exact ⟨rfl, hclosed, id⟩
    · exact ⟨rfl, hclosed, id⟩
  | close maskKey =>
    rw [step, close]
    split
    · rw [hframe w hclosed]
      exact ⟨rfl, hclosed, id⟩
    · exact ⟨rfl, hclosed, id⟩

theorem run_of_closed (hclosed : w.writerClosed = true) (acts : List Act) :
    (w.run acts).2 = [] ∧ (w.run acts).1.writerClosed = true ∧ ((w.run acts).1.activeWriter = false → w.activeWriter = false) := by
  induction acts generalizing w with
  | nil => exact ⟨rfl, hclosed, id⟩
  | cons a acts ih =>
    obtain ⟨hbytes, hstill, hactive⟩ := step_of_closed hclosed a
    obtain ⟨hrest, hend, hactive'⟩ := ih hstill
    refine ⟨?_, hend, fun h => hactive (hactive' h)⟩
    rw [run, hbytes, hrest]
    rfl

end WebSocketWriter

/-! ## The two sides -/

/-- The opcode of a text or of bytes. -/
def opcodeOf (text : Bool) : UInt8 := if text then OPCODE_TEXT else OPCODE_BINARY

theorem opcodeOf_known (text : Bool) : opcodeOf text = OPCODE_TEXT ∨ opcodeOf text = OPCODE_BINARY := by
  cases text
  · exact .inr rfl
  · exact .inl rfl

theorem opcodeOf_beq (text : Bool) : (opcodeOf text == OPCODE_TEXT) = text := by cases text <;> decide

/-- What the two have of the message that is being written. -/
inductive Synced (w : WebSocketWriter) (r : WebSocketReader) : Option (Bool × List UInt8) → Prop where
  | idle : w.activeWriter = false → w.buffer = [] → r.message = none → Synced w r none
  | first (text : Bool) : w.activeWriter = true → w.isFirstFrame = true → w.formatOpcode = opcodeOf text → r.message = none →
    Synced w r (some (text, w.buffer))
  | later (text : Bool) (sent : List UInt8) : w.activeWriter = true → w.isFirstFrame = false →
    r.message = some (opcodeOf text, sent) → Synced w r (some (text, sent ++ w.buffer))

/-- Neither side is closed. -/
structure Connected (w : WebSocketWriter) (r : WebSocketReader) (message : Option (Bool × List UInt8)) : Prop where
  writer : w.writerClosed = false
  reader : r.Open
  sides : r.isClient = !w.isClient
  synced : Synced w r message

/-- The writer has closed, and the reader knows. -/
structure Closed (w : WebSocketWriter) (r : WebSocketReader) : Prop where
  writer : w.writerClosed = true
  reader : r.closed = true
  failed : w.activeWriter = false → r.failed = none

namespace Connected

variable {w : WebSocketWriter} {r : WebSocketReader} {message : Option (Bool × List UInt8)} {a : WebSocketWriter.Act}
  {rest : List UInt8} {maskKey : MaskKey}

theorem isClient_eq (h : Connected w r message) : w.isClient = !r.isClient := by rw [h.sides, Bool.not_not]

/-- What the reader, with no step or with one, makes of a call that leaves both open. -/
def Follows (r : WebSocketReader) (w' : WebSocketWriter) (rest : List UInt8) (events : List FrameEvent)
    (message : Option (Bool × List UInt8)) : Prop :=
  ∃ n, (r.run n).source = rest ∧ (r.run n).events = r.events ++ events ∧ Connected w' (r.run n) message

/-- A call that writes nothing and leaves the message alone. -/
theorem quiet (h : Connected w r message) (hsource : r.source = rest) : Follows r w rest [] message :=
  ⟨0, hsource, (List.append_nil _).symm, h⟩

/-- A control frame changes nothing of the message. -/
theorem control (h : Connected w r message) {opcode : UInt8} {payload : List UInt8} {event : FrameEvent}
    (hopcode : opcode = OPCODE_CONTROL_PING ∨ opcode = OPCODE_CONTROL_PONG)
    (hevent : WebSocketReader.controlEvent opcode payload = .ok event)
    (hsource : r.source = WebSocketWriter.sent (w.writeControlFrame opcode payload maskKey) ++ rest) :
    Follows r w rest (if PAYLOAD_BYTE_MAX < payload.length then [] else [event]) message := by
  by_cases hlong : PAYLOAD_BYTE_MAX < payload.length
  · rw [WebSocketWriter.sent_writeControlFrame (.inr hlong)] at hsource
    rw [if_pos hlong]
    exact h.quiet hsource
  · have hlength : payload.length ≤ PAYLOAD_BYTE_MAX := Nat.not_lt.mp hlong
    rw [WebSocketWriter.writeControlFrame_of_open h.writer hlength, h.isClient_eq] at hsource
    have hne : opcode ≠ OPCODE_CONTROL_CLOSE := by
      rcases hopcode with rfl | rfl <;> decide
    have hstep := WebSocketReader.step_control h.reader (hopcode.imp_right .inl) hsource hlength hevent
    rw [if_neg hne] at hstep
    rw [if_neg hlong]
    refine ⟨1, ?_⟩
    change r.step.source = rest ∧ r.step.events = _ ∧ Connected w r.step message
    rw [hstep]
    refine ⟨rfl, rfl, h.writer, h.reader, h.sides, ?_⟩
    cases h.synced with
    | idle hactive hbuffer hmessage => exact .idle hactive hbuffer hmessage
    | first text hactive hfirst hformat hmessage => exact .first text hactive hfirst hformat hmessage
    | later text sent hactive hfirst hmessage => exact .later text sent hactive hfirst hmessage

/-- A close ends both. -/
theorem closing (h : Connected w r message) {event : FrameEvent} {payload : List UInt8}
    (hlength : payload.length ≤ PAYLOAD_BYTE_MAX)
    (hevent : WebSocketReader.controlEvent OPCODE_CONTROL_CLOSE payload = .ok event)
    (hsource : r.source = WebSocketWriter.sent (w.writeControlFrame OPCODE_CONTROL_CLOSE payload maskKey) ++ rest) :
    r.step.source = rest ∧ r.step.events = r.events ++ [event] ∧ Closed { w with writerClosed := true } r.step := by
  rw [WebSocketWriter.writeControlFrame_of_open h.writer hlength, h.isClient_eq] at hsource
  have hstep := WebSocketReader.step_control h.reader (.inr (.inr rfl)) hsource hlength hevent
  rw [if_pos rfl] at hstep
  by_cases hmessage : r.message.isSome = true
  · rw [if_pos hmessage] at hstep
    rw [hstep]
    refine ⟨rfl, rfl, rfl, rfl, fun hactive => ?_⟩
    cases h.synced with
    | idle _ _ hnone =>
      rw [hnone] at hmessage
      cases hmessage
    | first _ htrue => exact absurd (htrue.symm.trans hactive) (by decide)
    | later _ _ htrue => exact absurd (htrue.symm.trans hactive) (by decide)
  · rw [if_neg hmessage] at hstep
    rw [hstep]
    exact ⟨rfl, rfl, rfl, rfl, fun _ => h.reader.2⟩

/-- A frame of the message is received. -/
theorem messageFrame {text : Bool} {pending : List UInt8} (h : Connected w r (some (text, pending)))
    (hsize : w.buffer.length < 2 ^ 63) {byteCount : Nat} {isFinal : Bool}
    (hsource : r.source = w.messageFrame byteCount isFinal maskKey ++ rest) :
    ∃ sent, pending = sent ++ w.buffer.drop byteCount ∧ r.step = r.received rest (opcodeOf text) sent isFinal := by
  rw [WebSocketWriter.messageFrame, h.isClient_eq] at hsource
  have hlength : (w.buffer.take byteCount).length < 2 ^ 63 := Nat.lt_of_le_of_lt (List.length_take_le' _ _) hsize
  cases h.synced with
  | first text hactive hfirst hformat hmessage =>
    rw [hfirst, if_pos rfl, hformat] at hsource
    exact ⟨w.buffer.take byteCount, (List.take_append_drop _ _).symm,
      WebSocketReader.step_first h.reader (opcodeOf_known text) hmessage hsource hlength⟩
  | later text sent hactive hfirst hmessage =>
    rw [hfirst, if_neg Bool.false_ne_true] at hsource
    refine ⟨sent ++ w.buffer.take byteCount, ?_, WebSocketReader.step_later h.reader hmessage hsource hlength⟩
    rw [List.append_assoc, List.take_append_drop]

/-- One that is not the last leaves the two in the message. -/
theorem notFinal {text : Bool} {pending : List UInt8} (h : Connected w r (some (text, pending)))
    (hsize : w.buffer.length < 2 ^ 63) (hactive : w.activeWriter = true) {byteCount : Nat}
    (hsource : r.source = w.messageFrame byteCount false maskKey ++ rest) :
    Follows r { w with buffer := w.buffer.drop byteCount, isFirstFrame := false } rest [] (some (text, pending)) := by
  obtain ⟨sent, rfl, hstep⟩ := h.messageFrame hsize hsource
  refine ⟨1, ?_⟩
  change r.step.source = rest ∧ r.step.events = _ ∧ Connected _ r.step _
  rw [hstep]
  exact ⟨rfl, (List.append_nil _).symm, h.writer, h.reader, h.sides, .later text sent hactive rfl rfl⟩

/-- The last one ends it. -/
theorem final {text : Bool} {pending : List UInt8} (h : Connected w r (some (text, pending))) (hsize : w.buffer.length < 2 ^ 63)
    (hsource : r.source = w.messageFrame w.buffer.length true maskKey ++ rest) :
    Follows r { w with buffer := w.buffer.drop w.buffer.length, activeWriter := false } rest [.onReadMessage text pending]
      none := by
  obtain ⟨sent, hpending, hstep⟩ := h.messageFrame hsize hsource
  rw [List.drop_length, List.append_nil] at hpending
  subst hpending
  refine ⟨1, ?_⟩
  change r.step.source = rest ∧ r.step.events = _ ∧ Connected _ r.step _
  rw [hstep]
  refine ⟨rfl, ?_, h.writer, h.reader, h.sides, .idle rfl List.drop_length rfl⟩
  change r.events ++ [FrameEvent.onReadMessage (opcodeOf text == OPCODE_TEXT) _] = _
  rw [opcodeOf_beq]

/-- The writer is in a message, or in none. -/
theorem message_of_active (h : Connected w r message) (hactive : w.activeWriter = true) : ∃ m, message = some m := by
  cases h.synced with
  | idle hidle => exact absurd (hactive.symm.trans hidle) (by decide)
  | first => exact ⟨_, rfl⟩
  | later => exact ⟨_, rfl⟩

theorem message_of_idle (h : Connected w r message) (hidle : ¬ w.activeWriter = true) : message = none := by
  cases h.synced with
  | idle => rfl
  | first _ hactive => exact absurd hactive hidle
  | later _ _ hactive => exact absurd hactive hidle

/-- Bytes are put into the buffer. -/
theorem buffered {text : Bool} {pending : List UInt8} (h : Connected w r (some (text, pending))) (source : List UInt8) :
    Connected { w with buffer := w.buffer ++ source } r (some (text, pending ++ source)) := by
  refine ⟨h.writer, h.reader, h.sides, ?_⟩
  cases h.synced with
  | first text hactive hfirst hformat hmessage => exact .first text hactive hfirst hformat hmessage
  | later text sent hactive hfirst hmessage =>
    rw [List.append_assoc]
    exact .later text sent hactive hfirst hmessage

/-- A sink is opened. -/
theorem opened (h : Connected w r none) (text : Bool) (contentLength : Option Nat) :
    Connected { w with activeWriter := true, formatOpcode := opcodeOf text, contentLength, isFirstFrame := true } r
      (some (text, [])) := by
  refine ⟨h.writer, h.reader, h.sides, ?_⟩
  cases h.synced with
  | idle _ hbuffer hmessage =>
    rw [← hbuffer]
    exact .first text rfl rfl rfl hmessage

/-- `write`: the complete segments are a frame, unless the contents may be known to end in them. -/
theorem write (h : Connected w r message) {source : List UInt8} {complete : Nat}
    (hsize : w.buffer.length + source.length < 2 ^ 63)
    (hsource : r.source = WebSocketWriter.sent (w.write source complete maskKey).2 ++ rest) :
    Follows r (w.write source complete maskKey).1 rest [] (message.map fun m => (m.1, m.2 ++ source)) := by
  rw [WebSocketWriter.write] at hsource ⊢
  by_cases hactive : w.activeWriter = true
  · rw [if_pos hactive] at hsource ⊢
    obtain ⟨⟨text, pending⟩, rfl⟩ := h.message_of_active hactive
    have hb := h.buffered source
    have hlength : (w.buffer ++ source).length < 2 ^ 63 := by
      rw [List.length_append]
      exact hsize
    dsimp only at hsource ⊢
    split at hsource
    · rename_i hemit
      rw [if_pos hemit]
      have hcount : min complete (w.buffer ++ source).length ≤ (w.buffer ++ source).length := Nat.min_le_right _ _
      rw [WebSocketWriter.writeMessageFrame_of_open hb.writer hcount] at hsource ⊢
      exact hb.notFinal hlength hactive hsource
    · rename_i hdefer
      rw [if_neg hdefer]
      exact hb.quiet hsource
  · rw [if_neg hactive] at hsource ⊢
    obtain rfl := h.message_of_idle hactive
    exact h.quiet hsource

/-- `writeClose` with a code that the protocol allows closes both ends. -/
theorem writeClose (h : Connected w r message) {code : Int} {reason : Option (List UInt8)} (hcode : code = 0 → reason = none)
    (hreason : (reason.getD []).length ≤ CLOSE_MESSAGE_MAX) (hvalid : WebSocketWriter.invalidCode code = none)
    (hsource : r.source = WebSocketWriter.sent (w.writeClose code reason maskKey).2 ++ rest) :
    r.step.source = rest ∧
      r.step.events = r.events ++ [.onReadClose (if code = 0 then CLOSE_NO_STATUS_CODE else code) (reason.getD [])] ∧
      Closed (w.writeClose code reason maskKey).1 r.step := by
  obtain ⟨payload, hpayload, hlength, hevent⟩ := closePayload_spec hcode hreason hvalid
  rw [WebSocketWriter.writeClose, hpayload] at hsource ⊢
  exact h.closing hlength hevent hsource

/-- With another code it throws before anything is written. -/
theorem writeClose_invalid (h : Connected w r message) {code : Int} {reason : Option (List UInt8)} {exception : String}
    (hinvalid : WebSocketWriter.invalidCode code = some exception)
    (hsource : r.source = WebSocketWriter.sent (w.writeClose code reason maskKey).2 ++ rest) :
    Follows r (w.writeClose code reason maskKey).1 rest [] message := by
  have hne : ¬ (code = 0 ∧ reason = none) := by
    rintro ⟨rfl, -⟩
    cases hinvalid
  have hpayload : WebSocketWriter.closePayload code reason = .error exception := by
    rw [WebSocketWriter.closePayload, if_neg hne, hinvalid]
    rfl
  rw [WebSocketWriter.writeClose, hpayload] at hsource ⊢
  exact h.quiet hsource

/-- What the reader makes of a call: no step, or one. -/
theorem step (h : Connected w r message) (hproper : Proper a) (hsize : w.buffer.length + byteCount [a] < 2 ^ 63)
    (hsource : r.source = WebSocketWriter.sent (w.step a).2 ++ rest) :
    ((sayStep ⟨false, message⟩ a).1.closed = false ∧
        Follows r (w.step a).1 rest (sayStep ⟨false, message⟩ a).2 (sayStep ⟨false, message⟩ a).1.message) ∨
      ((sayStep ⟨false, message⟩ a).1.closed = true ∧ r.step.source = rest ∧
        r.step.events = r.events ++ (sayStep ⟨false, message⟩ a).2 ∧ Closed (w.step a).1 r.step) := by
  have hone : w.buffer.length < 2 ^ 63 := Nat.lt_of_le_of_lt (Nat.le_add_right _ _) hsize
  cases a with
  | writePing payload maskKey =>
    refine .inl ⟨rfl, ?_⟩
    simpa only [sayStep, WebSocketWriter.step, Bool.false_eq_true, false_or] using h.control (.inl rfl) rfl hsource
  | writePong payload maskKey =>
    refine .inl ⟨rfl, ?_⟩
    simpa only [sayStep, WebSocketWriter.step, Bool.false_eq_true, false_or] using h.control (.inr rfl) rfl hsource
  | writeClose code reason maskKey =>
    simp only [sayStep, Bool.false_eq_true, false_or]
    cases hvalid : WebSocketWriter.invalidCode code with
    | none =>
      obtain ⟨hrest, hevents, hclosed⟩ := h.writeClose hproper.1 hproper.2 hvalid hsource
      exact .inr ⟨rfl, hrest, hevents, hclosed⟩
    | some exception => exact .inl ⟨rfl, h.writeClose_invalid hvalid hsource⟩
  | newMessageSink text contentLength =>
    rw [WebSocketWriter.step, WebSocketWriter.newMessageSink] at hsource ⊢
    by_cases hactive : w.activeWriter = true
    · rw [if_pos hactive] at hsource ⊢
      obtain ⟨m, rfl⟩ := h.message_of_active hactive
      exact .inl ⟨rfl, h.quiet hsource⟩
    · rw [if_neg hactive] at hsource ⊢
      obtain rfl := h.message_of_idle hactive
      exact .inl ⟨rfl, (h.opened text contentLength).quiet hsource⟩
  | write source complete maskKey => exact .inl ⟨rfl, h.write hsize hsource⟩
  | flush maskKey =>
    rw [WebSocketWriter.step, WebSocketWriter.flush] at hsource ⊢
    by_cases hactive : w.activeWriter = true
    · rw [if_pos hactive] at hsource ⊢
      obtain ⟨⟨text, pending⟩, rfl⟩ := h.message_of_active hactive
      rw [WebSocketWriter.writeMessageFrame_of_open h.writer (Nat.le_refl _)] at hsource ⊢
      exact .inl ⟨rfl, h.notFinal hone hactive hsource⟩
    · rw [if_neg hactive] at hsource ⊢
      exact .inl ⟨rfl, h.quiet hsource⟩
  | close maskKey =>
    rw [WebSocketWriter.step, WebSocketWriter.close] at hsource ⊢
    by_cases hactive : w.activeWriter = true
    · rw [if_pos hactive] at hsource ⊢
      obtain ⟨⟨text, pending⟩, rfl⟩ := h.message_of_active hactive
      rw [WebSocketWriter.writeMessageFrame_of_open h.writer (Nat.le_refl _)] at hsource ⊢
      exact .inl ⟨rfl, h.final hone hsource⟩
    · rw [if_neg hactive] at hsource ⊢
      obtain rfl := h.message_of_idle hactive
      exact .inl ⟨rfl, h.quiet hsource⟩

end Connected

/-- A frame takes bytes off the buffer, if it is written. -/
theorem WebSocketWriter.length_buffer_frame_le (w : WebSocketWriter) {n : Nat} {isFinal : Bool} {maskKey : MaskKey}
    {f : WebSocketWriter → WebSocketWriter} (hf : ∀ w, (f w).buffer = w.buffer) :
    (andThen (w.writeMessageFrame n isFinal maskKey) f).1.buffer.length ≤ w.buffer.length := by
  rw [writeMessageFrame]
  split
  · exact Nat.le_refl _
  · change (f _).buffer.length ≤ _
    rw [hf]
    exact (List.drop_sublist _ _).length_le

/-- The buffer grows by what is written into it at most. -/
theorem WebSocketWriter.length_buffer_step_le (w : WebSocketWriter) (a : Act) :
    (w.step a).1.buffer.length ≤ w.buffer.length + byteCount [a] := by
  cases a with
  | writePing | writePong => exact Nat.le_add_right _ _
  | writeClose code reason maskKey =>
    rw [step, writeClose]
    split <;> exact Nat.le_add_right _ _
  | newMessageSink text contentLength =>
    rw [step, newMessageSink]
    split <;> exact Nat.le_add_right _ _
  | write source complete maskKey =>
    have hbuffer : (w.buffer ++ source).length = w.buffer.length + byteCount [.write source complete maskKey] := by
      rw [List.length_append]
      rfl
    rw [step, write]
    split
    · dsimp only
      split
      · exact hbuffer ▸ length_buffer_frame_le { w with buffer := w.buffer ++ source } fun _ => rfl
      · exact Nat.le_of_eq hbuffer
    · exact Nat.le_add_right _ _
  | flush maskKey =>
    rw [step, flush]
    split
    · exact w.length_buffer_frame_le fun _ => rfl
    · exact Nat.le_add_right _ _
  | close maskKey =>
    rw [step, close]
    split
    · exact w.length_buffer_frame_le fun _ => rfl
    · exact Nat.le_add_right _ _

theorem byteCount_cons (a : WebSocketWriter.Act) (acts : List WebSocketWriter.Act) :
    byteCount (a :: acts) = byteCount [a] + byteCount acts := by
  cases a <;> simp [byteCount]

theorem Said.eq_of_open {s : Said} (h : s.closed = false) : s = ⟨false, s.message⟩ := by
  cases s
  cases h
  rfl

/-- What the reader makes of all calls. -/
theorem Connected.run {w : WebSocketWriter} {r : WebSocketReader} {message : Option (Bool × List UInt8)}
    {acts : List WebSocketWriter.Act} (h : Connected w r message) (hproper : ∀ a ∈ acts, Proper a)
    (hsize : w.buffer.length + byteCount acts < 2 ^ 63) (hsource : r.source = (w.run acts).2) :
    ∃ n, (r.run n).source = [] ∧ (r.run n).events = r.events ++ heard ⟨false, message⟩ acts ∧
      (((w.run acts).1.writerClosed = false ∧ (r.run n).Open) ∨ Closed (w.run acts).1 (r.run n)) := by
  induction acts generalizing w r message with
  | nil => exact ⟨0, hsource, (List.append_nil _).symm, .inl ⟨h.writer, h.reader⟩⟩
  | cons a acts ih =>
    rw [byteCount_cons] at hsize
    have hone : w.buffer.length + byteCount [a] < 2 ^ 63 := by omega
    have hgrown := w.length_buffer_step_le a
    rcases h.step (hproper a List.mem_cons_self) hone hsource with ⟨hopen, m, hrest, hevents, hc⟩ | ⟨hend, hrest, hevents, hclosed⟩
    · obtain ⟨n, hsource', hall, hlast⟩ := ih hc (fun b hb => hproper b (List.mem_cons_of_mem _ hb)) (by omega) hrest
      refine ⟨m + n, ?_⟩
      rw [WebSocketReader.run_add, heard, ← List.append_assoc, ← hevents, Said.eq_of_open hopen]
      exact ⟨hsource', hall, hlast⟩
    · obtain ⟨hbytes, hstill, hactive⟩ := WebSocketWriter.run_of_closed hclosed.writer acts
      refine ⟨1, hrest.trans hbytes, ?_, .inr ⟨hstill, hclosed.reader, fun h => hclosed.failed (hactive h)⟩⟩
      rw [heard, heard_of_closed hend, List.append_nil]
      exact hevents

/-- Whatever is called, in whatever pieces and with whatever masks, and also if some calls throw, the reader of the other side
can read all that was written; it tells its callback of exactly what was said, and it is closed when the writer is. It fails
only if the writer closed within a message. -/
theorem messages_arrive {isClient : Bool} {acts : List WebSocketWriter.Act} (hproper : ∀ a ∈ acts, Proper a)
    (hsize : byteCount acts < 2 ^ 63) :
    ∃ n, ((WebSocketReader.new (!isClient) ((WebSocketWriter.new isClient).run acts).2).run n).source = [] ∧
      ((WebSocketReader.new (!isClient) ((WebSocketWriter.new isClient).run acts).2).run n).events = heard ⟨false, none⟩ acts ∧
      ((WebSocketReader.new (!isClient) ((WebSocketWriter.new isClient).run acts).2).run n).closed =
        ((WebSocketWriter.new isClient).run acts).1.writerClosed ∧
      (((WebSocketWriter.new isClient).run acts).1.writerClosed = false ∨
          ((WebSocketWriter.new isClient).run acts).1.activeWriter = false →
        ((WebSocketReader.new (!isClient) ((WebSocketWriter.new isClient).run acts).2).run n).failed = none) := by
  have hnew : Connected (WebSocketWriter.new isClient)
      (WebSocketReader.new (!isClient) ((WebSocketWriter.new isClient).run acts).2) none :=
    ⟨rfl, ⟨rfl, rfl⟩, rfl, .idle rfl rfl rfl⟩
  obtain ⟨n, hsource, hevents, hlast⟩ := hnew.run hproper (by simpa [WebSocketWriter.new] using hsize) rfl
  refine ⟨n, hsource, hevents, ?_⟩
  rcases hlast with ⟨hwriter, hopen⟩ | hclosed
  · exact ⟨hopen.1.trans hwriter.symm, fun _ => hopen.2⟩
  · refine ⟨hclosed.reader.trans hclosed.writer.symm, fun hend => hend.elim (fun hopen => ?_) hclosed.failed⟩
    exact absurd (hopen.symm.trans hclosed.writer) (by decide)

/-- A text in two frames with a ping between them, a second sink that is refused, and a close, by a client. -/
def conversation : List WebSocketWriter.Act :=
  [.newMessageSink true none, .write [104, 105] 0 ⟨1, 2, 3, 4⟩, .flush ⟨1, 2, 3, 4⟩, .writePing [7] ⟨5, 6, 7, 8⟩,
    .newMessageSink false none, .write [33] 0 ⟨1, 2, 3, 4⟩, .close ⟨9, 10, 11, 12⟩, .writeClose 1000 none ⟨1, 1, 1, 1⟩,
    .writePing [8] ⟨5, 6, 7, 8⟩]

theorem messages_arrive_conversation : ∃ n,
    ((WebSocketReader.new false ((WebSocketWriter.new true).run conversation).2).run n).source = [] ∧
      ((WebSocketReader.new false ((WebSocketWriter.new true).run conversation).2).run n).events =
        [.onReadPing [7], .onReadMessage true [104, 105, 33], .onReadClose 1000 []] ∧
      ((WebSocketReader.new false ((WebSocketWriter.new true).run conversation).2).run n).closed = true ∧
      ((WebSocketReader.new false ((WebSocketWriter.new true).run conversation).2).run n).failed = none := by
  have hflags : ((WebSocketWriter.new true).run conversation).1.writerClosed = true ∧
      ((WebSocketWriter.new true).run conversation).1.activeWriter = false := by decide +kernel
  have hproper : ∀ a ∈ conversation, Proper a := by
    simp [conversation, Proper]
  have hsize : byteCount conversation < 2 ^ 63 := by decide
  obtain ⟨n, hsource, hevents, hend, hfailed⟩ := @messages_arrive true conversation hproper hsize
  exact ⟨n, hsource, hevents, hend.trans hflags.1, hfailed (.inr hflags.2)⟩

end Okhttp3

end LibraLive

import LibraLive.Lemmas.WebSocketFrames
import LibraLive.Lts
import LibraLive.SizedTable

/-!
# Bytes from anywhere

A reader that is given any bytes, from a peer that keeps to the protocol or not, tells its callback of nothing that the protocol
does not allow (`told_within_bounds`). It is not used again after an exception, and the bytes of a text are those that come
before `readUtf8`.
-/

namespace LibraLive

namespace Okhttp3

open WebSocketProtocol

/-- The bytes that the callback is given. -/
def FrameEvent.size : FrameEvent → Nat
  | .onReadMessage _ bytes => bytes.length
  | .onReadPing payload => payload.length
  | .onReadPong payload => payload.length
  | .onReadClose _ reason => reason.length

/-- What may be told: control frames are short, and the code of a close is a valid one or was not given. -/
def FrameEvent.Allowed : FrameEvent → Prop
  | .onReadMessage _ _ => True
  | .onReadPing payload => payload.length ≤ PAYLOAD_BYTE_MAX
  | .onReadPong payload => payload.length ≤ PAYLOAD_BYTE_MAX
  | .onReadClose code reason =>
    (code = CLOSE_NO_STATUS_CODE ∧ reason = []) ∨
      (closeCodeExceptionMessage code = none ∧ reason.length ≤ PAYLOAD_BYTE_MAX - 2)

/-- A close. -/
def FrameEvent.isClose : FrameEvent → Bool
  | .onReadClose _ _ => true
  | _ => false

/-- A number takes its bytes off. -/
theorem readBigEndian_length {k acc n : Nat} {source rest : List UInt8} (h : readBigEndian k acc source = some (n, rest)) :
    rest.length ≤ source.length := by
  induction k generalizing acc source with
  | zero =>
    obtain ⟨-, rfl⟩ := Prod.mk.inj (Option.some.inj h)
    exact Nat.le_refl _
  | succ k ih =>
    cases source with
    | nil => cases h
    | cons b source => exact Nat.le_succ_of_le (ih h)

namespace WebSocketReader

variable {r : WebSocketReader} {source rest : List UInt8} {header : FrameHeader}

theorem readLength_length {b1 : UInt8} {n : Nat} (h : readLength b1 source = .ok (n, rest)) : rest.length ≤ source.length := by
  rw [readLength] at h
  split at h
  · cases hread : readBigEndian 2 0 source with
    | none =>
      rw [hread] at h
      cases h
    | some length =>
      rw [hread] at h
      obtain rfl := Except.ok.inj h
      exact readBigEndian_length hread
  · split at h
    · cases hread : readBigEndian 8 0 source with
      | none =>
        rw [hread] at h
        cases h
      | some length =>
        rw [hread, Option.elim_some] at h
        split at h
        · cases h
        · obtain rfl := Except.ok.inj h
          exact readBigEndian_length hread
    · obtain ⟨-, rfl⟩ := Prod.mk.inj (Except.ok.inj h)
      exact Nat.le_refl _

theorem readMaskKey_length {maskKey : MaskKey} (h : readMaskKey source = .ok (maskKey, rest)) : rest.length ≤ source.length := by
  rw [readMaskKey.eq_def] at h
  split at h
  · obtain ⟨-, rfl⟩ := Prod.mk.inj (Except.ok.inj h)
    simp only [List.length_cons]
    omega
  · cases h

/-- A header that is read is one of a short frame, if it is one of a control frame. -/
theorem readHeader_spec {isClient : Bool} (h : readHeader isClient source = .ok (header, rest)) :
    (header.isControlFrame = true → header.frameLength ≤ PAYLOAD_BYTE_MAX) ∧ rest.length ≤ source.length := by
  cases source with
  | nil => cases h
  | cons b0 source =>
    rw [readHeader.eq_def] at h
    dsimp only at h
    split at h
    · cases h
    · split at h
      · cases h
      · cases source with
        | nil => cases h
        | cons b1 source =>
          dsimp only at h
          split at h
          · cases h
          · cases hlength : readLength b1 source with
            | error e =>
              rw [hlength] at h
              cases h
            | ok length =>
              have hle := readLength_length (hlength : _ = Except.ok (length.1, length.2))
              rw [hlength, Except.bind] at h
              split at h
              · cases h
              · rename_i hshort
                have hcontrol : decide (b0 &&& OPCODE_FLAG_CONTROL ≠ 0) = true → length.1 ≤ PAYLOAD_BYTE_MAX := fun hc =>
                  Nat.not_lt.mp fun hlt => hshort ⟨hc, hlt⟩
                simp only [List.length_cons]
                split at h
                · cases hkey : readMaskKey length.2 with
                  | error e =>
                    rw [hkey] at h
                    cases h
                  | ok key =>
                    have hle' := readMaskKey_length (hkey : _ = Except.ok (key.1, key.2))
                    rw [hkey] at h
                    obtain ⟨rfl, rfl⟩ := Prod.mk.inj (Except.ok.inj h)
                    exact ⟨hcontrol, by omega⟩
                · obtain ⟨rfl, rfl⟩ := Prod.mk.inj (Except.ok.inj h)
                  exact ⟨hcontrol, by omega⟩

/-- A payload that is read is as long as the header says. -/
theorem readPayload_spec {payload : List UInt8} (h : readPayload header source = .ok (payload, rest)) :
    payload.length = header.frameLength ∧ payload.length + rest.length = source.length := by
  rw [readPayload] at h
  split at h
  · cases h
  · rename_i henough
    obtain ⟨rfl, rfl⟩ := Prod.mk.inj (Except.ok.inj h)
    have htake : (source.take header.frameLength).length = header.frameLength :=
      List.length_take_of_le (Nat.not_lt.mp henough)
    have hlength : (header.maskKey.elim (source.take header.frameLength) fun maskKey =>
        toggleMask maskKey 0 (source.take header.frameLength)).length = header.frameLength := by
      cases header.maskKey
      · exact htake
      · exact (length_toggleMask _ _ _).trans htake
    refine ⟨hlength, ?_⟩
    rw [hlength, List.length_drop]
    omega

/-- What a control frame says is allowed, and no longer than the frame. -/
theorem controlEvent_spec {opcode : UInt8} {payload : List UInt8} {event : FrameEvent} (hlength : payload.length ≤ PAYLOAD_BYTE_MAX)
    (h : controlEvent opcode payload = .ok event) :
    event.Allowed ∧ event.size ≤ payload.length ∧ (event.isClose = true → opcode = OPCODE_CONTROL_CLOSE) := by
  rw [controlEvent.eq_def] at h
  split at h
  · obtain rfl := Except.ok.inj h
    exact ⟨hlength, Nat.le_refl _, Bool.noConfusion⟩
  · split at h
    · obtain rfl := Except.ok.inj h
      exact ⟨hlength, Nat.le_refl _, Bool.noConfusion⟩
    · split at h
      · rename_i hclose
        cases payload with
        | nil =>
          obtain rfl := Except.ok.inj h
          exact ⟨.inl ⟨rfl, rfl⟩, Nat.le_refl _, fun _ => hclose⟩
        | cons b0 payload =>
          cases payload with
          | nil => cases h
          | cons b1 reason =>
            dsimp only at h
            generalize (if b0.toNat * 256 + b1.toNat < 0x8000 then ((b0.toNat * 256 + b1.toNat : Nat) : Int)
              else ((b0.toNat * 256 + b1.toNat : Nat) : Int) - 0x10000) = code at h
            cases hmessage : closeCodeExceptionMessage code with
            | some message =>
              rw [hmessage] at h
              cases h
            | none =>
              rw [hmessage] at h
              obtain rfl := Except.ok.inj h
              simp only [List.length_cons] at hlength
              refine ⟨.inr ⟨hmessage, ?_⟩, ?_, fun _ => hclose⟩
              · omega
              · simp only [FrameEvent.size, List.length_cons]
                omega
      · cases h

/-- The bytes of the message that is being read. -/
def pendingSize (r : WebSocketReader) : Nat := (r.message.map fun message => message.2.length).getD 0

/-- What holds of a reader that was given `limit` bytes. -/
structure Guarded (limit : Nat) (r : WebSocketReader) : Prop where
  allowed : ∀ event ∈ r.events, event.Allowed
  last : ∀ before event after, r.events = before ++ event :: after → event.isClose = true → after = [] ∧ r.closed = true
  size : SizedTable.total FrameEvent.size r.events + r.pendingSize + r.source.length ≤ limit

namespace Guarded

variable {limit : Nat}

theorem fail (h : Guarded limit r) (e : ReadError) : Guarded limit (r.fail e) := ⟨h.allowed, h.last, h.size⟩

/-- Something more is told. -/
theorem told (h : Guarded limit r) (hopen : r.closed = false) {event : FrameEvent} {r' : WebSocketReader}
    (hevents : r'.events = r.events ++ [event]) (hallowed : event.Allowed) (hclose : event.isClose = true → r'.closed = true)
    (hsize : event.size + r'.pendingSize + r'.source.length ≤ r.pendingSize + r.source.length) : Guarded limit r' where
  allowed := by
    rw [hevents]
    intro e he
    rcases List.mem_append.mp he with he | he
    · exact h.allowed e he
    · obtain rfl := List.mem_singleton.mp he
      exact hallowed
  last before e after heq hisClose := by
    rw [hevents] at heq
    rcases Lts.snoc_cases heq with ⟨rfl, rfl, rfl⟩ | ⟨rest, rfl, hold⟩
    · exact ⟨rfl, hclose hisClose⟩
    · exact absurd (hopen.symm.trans (h.last _ _ _ hold hisClose).2) (by decide)
  size := by
    have hold := h.size
    rw [hevents, SizedTable.total_append, SizedTable.total_cons, SizedTable.total_nil]
    omega

theorem readControlFrame (h : Guarded limit r) (hopen : r.closed = false) (hshort : header.frameLength ≤ PAYLOAD_BYTE_MAX)
    (hle : source.length ≤ r.source.length) : Guarded limit (r.readControlFrame header source) := by
  rw [WebSocketReader.readControlFrame]
  cases hread : readPayload header source with
  | error e => exact h.fail e
  | ok read =>
    obtain ⟨hlength, hsum⟩ := readPayload_spec (hread : _ = Except.ok (read.1, read.2))
    dsimp only
    cases hevent : controlEvent header.opcode read.1 with
    | error e =>
      have hrest : Guarded limit { r with source := read.2 } := by
        refine ⟨h.allowed, h.last, ?_⟩
        have hold := h.size
        change SizedTable.total FrameEvent.size r.events + r.pendingSize + read.2.length ≤ limit
        omega
      exact hrest.fail e
    | ok event =>
      obtain ⟨hallowed, hsize, hclose⟩ := controlEvent_spec (hlength ▸ hshort) hevent
      have hbytes : event.size + r.pendingSize + read.2.length ≤ r.pendingSize + r.source.length := by omega
      dsimp only
      split
      · split
        · exact (h.told hopen rfl hallowed (fun _ => rfl) hbytes).fail _
        · exact h.told hopen rfl hallowed (fun _ => rfl) hbytes
      · rename_i hne
        exact h.told hopen rfl hallowed (fun hisClose => absurd (hclose hisClose) hne) hbytes

theorem readMessage (h : Guarded limit r) (hopen : r.closed = false) (opcode : UInt8) {buffer : List UInt8}
    (hbuffer : buffer.length ≤ r.pendingSize) (hle : source.length ≤ r.source.length) :
    Guarded limit (r.readMessage opcode buffer header source) := by
  rw [WebSocketReader.readMessage]
  cases hread : readPayload header source with
  | error e => exact h.fail e
  | ok read =>
    obtain ⟨-, hsum⟩ := readPayload_spec (hread : _ = Except.ok (read.1, read.2))
    have hlength : (buffer ++ read.1).length + read.2.length ≤ r.pendingSize + r.source.length := by
      rw [List.length_append]
      omega
    dsimp only
    split
    · exact h.told hopen rfl trivial Bool.noConfusion hlength
    · refine ⟨h.allowed, h.last, ?_⟩
      have hold := h.size
      change SizedTable.total FrameEvent.size r.events + (buffer ++ read.1).length + read.2.length ≤ limit
      omega

/-- Every frame keeps it, whatever it is. -/
theorem step (h : Guarded limit r) : Guarded limit r.step := by
  rw [WebSocketReader.step]
  split
  · exact h
  · rename_i hgo
    have hopen : r.closed = false := Bool.eq_false_iff.mpr fun hclosed => hgo (.inl hclosed)
    cases hheader : readHeader r.isClient r.source with
    | error e => exact h.fail e
    | ok read =>
      obtain ⟨hshort, hle⟩ := readHeader_spec (hheader : _ = Except.ok (read.1, read.2))
      dsimp only
      split
      · rename_i hcontrol
        exact h.readControlFrame hopen (hshort hcontrol) hle
      · cases hmessage : r.message with
        | none =>
          dsimp only
          split
          · exact h.fail _
          · exact h.readMessage hopen _ (Nat.zero_le _) hle
        | some message =>
          dsimp only
          split
          · exact h.fail _
          · refine h.readMessage hopen _ ?_ hle
            rw [pendingSize, hmessage]
            exact Nat.le_refl _

theorem run (h : Guarded limit r) (n : Nat) : Guarded limit (r.run n) := by
  induction n generalizing r with
  | zero => exact h
  | succ n ih => exact ih h.step

end Guarded

/-- Whatever bytes come, in a frame of any form: the callback is told of no ping, pong or close that the protocol does not allow, of
nothing after a close, and the bytes that it is given are no more than those that came. -/
theorem told_within_bounds (isClient : Bool) (bytes : List UInt8) (n : Nat) :
    (∀ event ∈ ((new isClient bytes).run n).events, event.Allowed) ∧
      (∀ before event after, ((new isClient bytes).run n).events = before ++ event :: after → event.isClose = true →
        after = [] ∧ ((new isClient bytes).run n).closed = true) ∧
      SizedTable.total FrameEvent.size ((new isClient bytes).run n).events ≤ bytes.length := by
  have hnew : Guarded bytes.length (new isClient bytes) := by
    refine ⟨fun event he => absurd he List.not_mem_nil, fun before event after heq => ?_, Nat.le_of_eq (Nat.zero_add _)⟩
    exact absurd heq.symm (List.append_ne_nil_of_right_ne_nil _ (List.cons_ne_nil _ _))
  have hg := hnew.run n
  exact ⟨hg.allowed, hg.last, Nat.le_trans (Nat.le_trans (Nat.le_add_right _ _) (Nat.le_add_right _ _)) hg.size⟩

end WebSocketReader

end Okhttp3

end LibraLive

import LibraLive.Okhttp3.FlowControl

/-!
# The steps of a connection

What a step of `Http2Connection` can be, said once (`Step`), with what its guards have checked.
-/

namespace LibraLive

namespace Okhttp3

namespace Http2Connection

variable {s s' : Http2Connection} {a : Act}

/-- What a step can be. -/
inductive Step (s : Http2Connection) : Act → Http2Connection → Prop where
  | newStream {pushed : Bool} :
    Step s (.newStream pushed) { s with streams := s.streams ++ [.new pushed s.peerInitialWindowSize] }
  | emitFrame {i size toWrite : Nat} {stream : Http2Stream} {outFinishedOnLastFrame outFinished : Bool} :
    s.streams[i]? = some stream → toWrite ≤ stream.bytesLeftInWriteWindow → stream.byteCount = 0 → stream.sinkFinished = false →
    Step s (.emitFrame i size outFinishedOnLastFrame) (s.setStream i { stream with
      bytesLeftInWriteWindow := stream.bytesLeftInWriteWindow - toWrite
      byteCount := toWrite
      outFinished := outFinished })
  | takeWindow {i maxDataLength toWrite : Nat} {stream : Http2Stream} : s.streams[i]? = some stream →
    toWrite ≤ s.bytesLeftInWriteWindow → toWrite ≤ stream.byteCount → 0 < stream.byteCount → stream.toWrite = 0 →
    (0 < maxDataLength → 0 < toWrite) →
    Step s (.takeWindow i maxDataLength) {
      s.setStream i { stream with byteCount := stream.byteCount - toWrite, toWrite := toWrite } with
      bytesLeftInWriteWindow := s.bytesLeftInWriteWindow - toWrite }
  | writeData {i : Nat} {stream : Http2Stream} {inFinished : Bool} : s.streams[i]? = some stream → 0 < stream.toWrite →
    (inFinished = true → stream.byteCount = 0) →
    Step s (.writeData i) { s.setStream i { stream with toWrite := 0, sinkFinished := stream.sinkFinished || inFinished } with
      data := s.data ++ [⟨i, stream.toWrite, inFinished⟩] }
  | closeSink {i : Nat} {stream : Http2Stream} : s.streams[i]? = some stream → stream.byteCount = 0 → stream.toWrite = 0 →
    stream.sinkFinished = false →
    Step s (.closeSink i) { s.setStream i { stream with sinkFinished := true } with data := s.data ++ [⟨i, 0, true⟩] }
  | giveUp {i : Nat} {stream : Http2Stream} : s.streams[i]? = some stream →
    Step s (.giveUp i) (s.setStream i { stream with byteCount := 0, gaveUp := true })
  | forget {i : Nat} {stream : Http2Stream} : s.streams[i]? = some stream →
    Step s (.forget i) (s.setStream i { stream with forgotten := true })
  | applySettings {peerInitialWindowSize : Nat} : s.settings = some peerInitialWindowSize →
    Step s .applySettings { s with
      settings := none
      peerInitialWindowSize
      delta := peerInitialWindowSize - s.peerInitialWindowSize
      streamsToNotify := if (peerInitialWindowSize : Int) - s.peerInitialWindowSize ≠ 0 then s.known else [] }
  | notifyStream {i : Nat} {rest : List Nat} {stream : Http2Stream} : s.streamsToNotify = i :: rest →
    s.streams[i]? = some stream →
    Step s .notifyStream { s.setStream i { stream with bytesLeftInWriteWindow := stream.bytesLeftInWriteWindow + s.delta } with
      streamsToNotify := rest }
  | updateConnection {increment : Nat} {rest : List WindowUpdate} : s.updates = ⟨none, increment⟩ :: rest →
    Step s .windowUpdate { s with bytesLeftInWriteWindow := s.bytesLeftInWriteWindow + increment, updates := rest }
  | updateStream {i increment : Nat} {rest : List WindowUpdate} {stream : Http2Stream} :
    s.updates = ⟨some i, increment⟩ :: rest → s.streams[i]? = some stream → stream.forgotten = false →
    Step s .windowUpdate { s.setStream i { stream with bytesLeftInWriteWindow := stream.bytesLeftInWriteWindow + increment } with
      updates := rest }
  | updateForgotten {i increment : Nat} {rest : List WindowUpdate} {stream : Http2Stream} :
    s.updates = ⟨some i, increment⟩ :: rest → s.streams[i]? = some stream → stream.forgotten = true →
    Step s .windowUpdate { s with updates := rest }
  | receiveFrame {frame : DataFrame} {rest : List DataFrame} {stream : Http2Stream} : s.receiving = none →
    s.data = frame :: rest → s.streams[frame.streamId]? = some stream →
    Step s .receiveFrame { s with data := rest, receiving := some ⟨frame.streamId, frame.length, 0, frame.inFinished⟩ }
  | pushFrame {frame : DataFrame} {rest : List DataFrame} {stream : Http2Stream} : s.receiving = none →
    s.data = frame :: rest → s.streams[frame.streamId]? = some stream → stream.pushed = true →
    Step s .receiveFrame { s with data := rest, uncredited := s.uncredited + frame.length }
  | skipFrame {frame : DataFrame} {rest : List DataFrame} {stream : Http2Stream} : s.receiving = none →
    s.data = frame :: rest → s.streams[frame.streamId]? = some stream → stream.removed = true →
    Step s .receiveFrame { s with data := rest, credits := s.credits ++ [frame.length] }
  | flowControlError {receiving : Receiving} {stream : Http2Stream} {read : Nat} : s.receiving = some receiving →
    s.streams[receiving.streamId]? = some stream → receiving.receiveBuffer = 0 →
    s.initialWindowSize < receiving.byteCount + stream.readBuffer →
    Step s (.receiveBytes read) { s with
      flowControlError := true
      lost := s.lost + receiving.byteCount
      receiving := some { receiving with byteCount := 0 } }
  | skipFinished {receiving : Receiving} {stream : Http2Stream} {read : Nat} : s.receiving = some receiving →
    s.streams[receiving.streamId]? = some stream → receiving.receiveBuffer = 0 → 0 < receiving.byteCount →
    stream.finished = true →
    Step s (.receiveBytes read) { s with lost := s.lost + receiving.byteCount, receiving := some { receiving with byteCount := 0 } }
  | receiveBytes {receiving : Receiving} {stream : Http2Stream} {read : Nat} : s.receiving = some receiving →
    s.streams[receiving.streamId]? = some stream → receiving.receiveBuffer = 0 → 0 < read → read ≤ receiving.byteCount →
    Step s (.receiveBytes read) { s with receiving := some { receiving with
      byteCount := receiving.byteCount - read
      receiveBuffer := read } }
  | discardBytes {receiving : Receiving} {stream : Http2Stream} : s.receiving = some receiving →
    s.streams[receiving.streamId]? = some stream → 0 < receiving.receiveBuffer → stream.closed = true →
    Step s .moveBytes { s with
      receiving := some { receiving with receiveBuffer := 0 }
      credits := s.credits ++ [receiving.receiveBuffer] }
  | moveBytes {receiving : Receiving} {stream : Http2Stream} : s.receiving = some receiving →
    s.streams[receiving.streamId]? = some stream → 0 < receiving.receiveBuffer → stream.closed = false →
    Step s .moveBytes {
      s.setStream receiving.streamId { stream with readBuffer := stream.readBuffer + receiving.receiveBuffer } with
      receiving := some { receiving with receiveBuffer := 0 } }
  | receiveEnd {receiving : Receiving} {stream : Http2Stream} : s.receiving = some receiving →
    s.streams[receiving.streamId]? = some stream → receiving.byteCount = 0 → receiving.receiveBuffer = 0 →
    Step s .receiveEnd { s.setStream receiving.streamId { stream with finished := stream.finished || receiving.inFinished } with
      receiving := none }
  | acknowledge {i read : Nat} {timedOut : Bool} {stream : Http2Stream} : s.streams[i]? = some stream → read ≤ stream.readBuffer →
    0 < stream.readBuffer → s.initialWindowSize / 2 ≤ stream.unacknowledgedBytesRead + read →
    Step s (.readBytes i read timedOut) { s.setStream i { stream with
        readBuffer := stream.readBuffer - read
        unacknowledgedBytesRead := 0 } with
      credits := if timedOut then s.credits else s.credits ++ [read]
      uncredited := if timedOut then s.uncredited + read else s.uncredited
      updates := s.updates ++ [⟨some i, stream.unacknowledgedBytesRead + read⟩] }
  | readBytes {i read : Nat} {timedOut : Bool} {stream : Http2Stream} : s.streams[i]? = some stream → read ≤ stream.readBuffer →
    0 < stream.readBuffer → (stream.errorCode = false → stream.unacknowledgedBytesRead + read < s.initialWindowSize / 2) →
    Step s (.readBytes i read timedOut) { s.setStream i { stream with
        readBuffer := stream.readBuffer - read
        unacknowledgedBytesRead := stream.unacknowledgedBytesRead + read } with
      credits := if timedOut then s.credits else s.credits ++ [read]
      uncredited := if timedOut then s.uncredited + read else s.uncredited }
  | closeSource {i : Nat} {stream : Http2Stream} : s.streams[i]? = some stream →
    Step s (.closeSource i) { s.setStream i { stream with closed := true, readBuffer := 0 } with
      credits := if 0 < stream.readBuffer then s.credits ++ [stream.readBuffer] else s.credits }
  | reset {i : Nat} {stream : Http2Stream} : s.streams[i]? = some stream →
    Step s (.reset i) (s.setStream i { stream with errorCode := true })
  | removeStream {i : Nat} {stream : Http2Stream} : s.streams[i]? = some stream →
    Step s (.removeStream i) (s.setStream i { stream with removed := true })
  | acknowledgeConnection {k read : Nat} : s.credits[k]? = some read →
    s.initialWindowSize / 2 ≤ s.unacknowledgedBytesRead + read →
    Step s (.updateConnectionFlowControl k) { s with
      credits := s.credits.eraseIdx k
      unacknowledgedBytesRead := 0
      updates := s.updates ++ [⟨none, s.unacknowledgedBytesRead + read⟩] }
  | credit {k read : Nat} : s.credits[k]? = some read → s.unacknowledgedBytesRead + read < s.initialWindowSize / 2 →
    Step s (.updateConnectionFlowControl k) { s with
      credits := s.credits.eraseIdx k
      unacknowledgedBytesRead := s.unacknowledgedBytesRead + read }

theorem onReceiving_eq_some {f : Receiving → Http2Stream → Option Http2Connection} (h : s.onReceiving f = some s') :
    ∃ receiving stream, s.receiving = some receiving ∧ s.streams[receiving.streamId]? = some stream ∧
      f receiving stream = some s' := by
  obtain ⟨receiving, hreceiving, h⟩ := Option.bind_eq_some_iff.mp h
  obtain ⟨stream, hstream, h⟩ := Option.bind_eq_some_iff.mp h
  exact ⟨receiving, stream, hreceiving, hstream, h⟩

theorem step_cases (h : s.step a = some s') : Step s a s' := by
  cases a with
  | newStream pushed =>
    change s.newStream pushed = some s' at h
    rw [Http2Connection.newStream] at h
    split at h
    · cases h
    · obtain rfl := Option.some.inj h
      exact .newStream
  | emitFrame i size outFinished =>
    obtain ⟨stream, hstream, h⟩ := Option.bind_eq_some_iff.mp h
    rw [Http2Connection.emitFrame] at h
    split at h
    · rename_i hcond
      obtain rfl := Option.some.inj h
      exact .emitFrame hstream (by omega) hcond.2.2.1 hcond.2.2.2.2
    · cases h
  | takeWindow i maxDataLength =>
    obtain ⟨stream, hstream, h⟩ := Option.bind_eq_some_iff.mp h
    rw [Http2Connection.takeWindow] at h
    split at h
    · rename_i hcond
      obtain rfl := Option.some.inj h
      exact .takeWindow hstream (by omega) (by omega) hcond.2.1 hcond.2.2 (by omega)
    · cases h
  | writeData i =>
    obtain ⟨stream, hstream, h⟩ := Option.bind_eq_some_iff.mp h
    rw [Http2Connection.writeData] at h
    split at h
    · rename_i hcond
      obtain rfl := Option.some.inj h
      exact .writeData hstream hcond (by simp)
    · cases h
  | closeSink i =>
    obtain ⟨stream, hstream, h⟩ := Option.bind_eq_some_iff.mp h
    rw [Http2Connection.closeSink] at h
    split at h
    · rename_i hcond
      obtain rfl := Option.some.inj h
      exact .closeSink hstream hcond.1 hcond.2.1 hcond.2.2
    · cases h
  | giveUp i =>
    obtain ⟨stream, hstream, h⟩ := Option.bind_eq_some_iff.mp h
    rw [Http2Connection.giveUp] at h
    split at h
    · obtain rfl := Option.some.inj h
      exact .giveUp hstream
    · cases h
  | forget i =>
    obtain ⟨stream, hstream, rfl⟩ := Option.map_eq_some_iff.mp h
    exact .forget hstream
  | applySettings =>
    change s.applySettings = some s' at h
    rw [Http2Connection.applySettings] at h
    split at h
    · cases h
    · rename_i hsettings
      obtain rfl := Option.some.inj h
      exact .applySettings hsettings
  | notifyStream =>
    change s.notifyStream = some s' at h
    rw [Http2Connection.notifyStream] at h
    split at h
    · cases h
    · rename_i hnotify
      obtain ⟨stream, hstream, rfl⟩ := Option.map_eq_some_iff.mp h
      exact .notifyStream hnotify hstream
  | windowUpdate =>
    change s.windowUpdate = some s' at h
    rw [windowUpdate] at h
    split at h
    · cases h
    · rename_i hupdates
      obtain rfl := Option.some.inj h
      exact .updateConnection hupdates
    · rename_i hupdates
      obtain ⟨stream, hstream, rfl⟩ := Option.map_eq_some_iff.mp h
      by_cases hforgotten : stream.forgotten = true
      · rw [if_pos hforgotten]
        exact .updateForgotten hupdates hstream hforgotten
      · rw [if_neg hforgotten]
        exact .updateStream hupdates hstream (Bool.eq_false_iff.mpr hforgotten)
  | receiveFrame =>
    change s.receiveFrame = some s' at h
    rw [Http2Connection.receiveFrame] at h
    split at h
    · rename_i hreceiving hdata
      obtain ⟨stream, hstream, rfl⟩ := Option.map_eq_some_iff.mp h
      by_cases hpushed : stream.pushed = true
      · rw [if_pos hpushed]
        exact .pushFrame hreceiving hdata hstream hpushed
      · rw [if_neg hpushed]
        by_cases hremoved : stream.removed = true
        · rw [if_pos hremoved]
          exact .skipFrame hreceiving hdata hstream hremoved
        · rw [if_neg hremoved]
          exact .receiveFrame hreceiving hdata hstream
    · cases h
  | receiveBytes read =>
    obtain ⟨receiving, stream, hreceiving, hstream, h⟩ := onReceiving_eq_some h
    rw [Http2Connection.receiveBytes] at h
    split at h
    · rename_i hcond
      split at h
      · rename_i herror
        obtain rfl := Option.some.inj h
        exact .flowControlError hreceiving hstream hcond.2 herror
      · split at h
        · rename_i hfinished
          obtain rfl := Option.some.inj h
          exact .skipFinished hreceiving hstream hcond.2 hcond.1 hfinished
        · split at h
          · rename_i hread
            obtain rfl := Option.some.inj h
            exact .receiveBytes hreceiving hstream hcond.2 hread.1 hread.2
          · cases h
    · cases h
  | moveBytes =>
    obtain ⟨receiving, stream, hreceiving, hstream, h⟩ := onReceiving_eq_some h
    rw [Http2Connection.moveBytes] at h
    split at h
    · rename_i hcond
      dsimp only at h
      split at h
      · rename_i hclosed
        obtain rfl := Option.some.inj h
        exact .discardBytes hreceiving hstream hcond hclosed
      · rename_i hopen
        obtain rfl := Option.some.inj h
        exact .moveBytes hreceiving hstream hcond (Bool.eq_false_iff.mpr hopen)
    · cases h
  | receiveEnd =>
    obtain ⟨receiving, stream, hreceiving, hstream, h⟩ := onReceiving_eq_some h
    rw [Http2Connection.receiveEnd] at h
    split at h
    · rename_i hcond
      obtain rfl := Option.some.inj h
      exact .receiveEnd hreceiving hstream hcond.1 hcond.2
    · cases h
  | readBytes i read timedOut =>
    obtain ⟨stream, hstream, h⟩ := Option.bind_eq_some_iff.mp h
    rw [Http2Connection.readBytes] at h
    split at h
    · rename_i hcond
      dsimp only at h
      split at h
      · rename_i hhalf
        obtain rfl := Option.some.inj h
        exact .acknowledge hstream hcond.2.2 hcond.2.1 hhalf.2
      · rename_i hhalf
        obtain rfl := Option.some.inj h
        exact .readBytes hstream hcond.2.2 hcond.2.1 fun herror => Nat.not_le.mp fun hle => hhalf ⟨herror, hle⟩
    · cases h
  | closeSource i =>
    obtain ⟨stream, hstream, rfl⟩ := Option.map_eq_some_iff.mp h
    exact .closeSource hstream
  | reset i =>
    obtain ⟨stream, hstream, rfl⟩ := Option.map_eq_some_iff.mp h
    exact .reset hstream
  | removeStream i =>
    obtain ⟨stream, hstream, h⟩ := Option.bind_eq_some_iff.mp h
    rw [Http2Connection.removeStream] at h
    split at h
    · obtain rfl := Option.some.inj h
      exact .removeStream hstream
    · cases h
  | updateConnectionFlowControl k =>
    obtain ⟨read, hread, rfl⟩ := Option.map_eq_some_iff.mp h
    by_cases hhalf : s.initialWindowSize / 2 ≤ s.unacknowledgedBytesRead + read
    · simp only [hhalf, if_true]
      exact .acknowledgeConnection hread hhalf
    · simp only [hhalf, if_false]
      exact .credit hread (Nat.not_le.mp hhalf)

end Http2Connection

end Okhttp3

end LibraLive

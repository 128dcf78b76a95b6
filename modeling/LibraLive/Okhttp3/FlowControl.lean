import LibraLive.Lts
import LibraLive.SizedTable

/-!
# Flow control of HTTP/2

What `Http2Connection` and `Http2Stream` do for the data that one end of a connection sends the other: the windows of the
sender, the frames on the wire, the buffers of the receiver and the window updates it sends back. The writer of each stream,
the thread that reads the receiver's socket, the threads that read from its streams, and the executors may take their steps in
any order. The settings of the receiver are those of its constructor: `setSettings` is not called. The connection is not
closed.
-/

namespace LibraLive

namespace Okhttp3

def OKHTTP_CLIENT_WINDOW_SIZE : Nat := 16 * 1024 * 1024

def DEFAULT_INITIAL_WINDOW_SIZE : Nat := 65535

/-- A DATA frame. A HEADERS frame that ends the stream does to it what an empty one does. -/
structure DataFrame where
  streamId : Nat
  length : Nat
  inFinished : Bool
  deriving DecidableEq, Repr

/-- A WINDOW_UPDATE frame, or the task of `writeWindowUpdateLater` that will write it; for the connection there is no stream. -/
structure WindowUpdate where
  streamId : Option Nat
  windowSizeIncrement : Nat
  deriving DecidableEq, Repr

/-- `FramingSource.receive` of the thread that reads: the bytes that are still to be read, and the receive buffer. -/
structure Receiving where
  streamId : Nat
  byteCount : Nat
  receiveBuffer : Nat
  inFinished : Bool
  deriving DecidableEq, Repr

/-- The two ends of a stream, which a server may have pushed. The sender's: the window, what `writeData` has still to write,
what of it has been taken from the window of the connection, whether it ends the stream, whether no more frames will be begun,
whether the writer has given up, and whether the stream has left the map. The receiver's: the read buffer, what has been read
and not acknowledged, `closed`, `finished`, whether there is an error code, and whether the stream has left the map. -/
structure Http2Stream where
  pushed : Bool
  bytesLeftInWriteWindow : Int
  byteCount : Nat
  toWrite : Nat
  outFinished : Bool
  sinkFinished : Bool
  gaveUp : Bool
  forgotten : Bool
  readBuffer : Nat
  unacknowledgedBytesRead : Nat
  closed : Bool
  finished : Bool
  errorCode : Bool
  removed : Bool
  deriving DecidableEq, Repr

/-- A new stream, on both ends. -/
def Http2Stream.new (pushed : Bool) (bytesLeftInWriteWindow : Int) : Http2Stream where
  pushed := pushed
  bytesLeftInWriteWindow := bytesLeftInWriteWindow
  byteCount := 0
  toWrite := 0
  outFinished := false
  sinkFinished := false
  gaveUp := false
  forgotten := false
  readBuffer := 0
  unacknowledgedBytesRead := 0
  closed := false
  finished := false
  errorCode := false
  removed := false

/-- The two ends of a connection: whether the receiver is a client, its `okHttpSettings`, the window and `peerSettings` of the
sender, the streams that `applyAndAckSettings` has yet to tell of its `delta`, what is on the way, the thread that reads, the
bytes for which a thread is about to call `updateConnectionFlowControl`, and what is not acknowledged. `lost` counts the bytes
that were skipped for good, `uncredited` those that were received and will never be acknowledged. -/
structure Http2Connection where
  client : Bool
  initialWindowSize : Nat
  bytesLeftInWriteWindow : Int
  peerInitialWindowSize : Nat
  delta : Int
  streamsToNotify : List Nat
  settings : Option Nat
  data : List DataFrame
  updates : List WindowUpdate
  receiving : Option Receiving
  credits : List Nat
  unacknowledgedBytesRead : Nat
  streams : List Http2Stream
  flowControlError : Bool
  lost : Nat
  uncredited : Nat
  deriving DecidableEq, Repr

namespace Http2Connection

/-- `okHttpSettings.getInitialWindowSize()` of a client or a server. -/
def okHttpInitialWindowSize (client : Bool) : Nat := if client then OKHTTP_CLIENT_WINDOW_SIZE else DEFAULT_INITIAL_WINDOW_SIZE

/-- After the constructors and `start` of the receiver, which is a client or a server. -/
def new (client : Bool) : Http2Connection where
  client := client
  initialWindowSize := okHttpInitialWindowSize client
  bytesLeftInWriteWindow := DEFAULT_INITIAL_WINDOW_SIZE
  peerInitialWindowSize := DEFAULT_INITIAL_WINDOW_SIZE
  delta := 0
  streamsToNotify := []
  settings := some (okHttpInitialWindowSize client)
  data := []
  updates :=
    if okHttpInitialWindowSize client ≠ DEFAULT_INITIAL_WINDOW_SIZE then
      [⟨none, okHttpInitialWindowSize client - DEFAULT_INITIAL_WINDOW_SIZE⟩]
    else []
  receiving := none
  credits := []
  unacknowledgedBytesRead := 0
  streams := []
  flowControlError := false
  lost := 0
  uncredited := 0

/-- A stream changes. -/
def setStream (s : Http2Connection) (i : Nat) (stream : Http2Stream) : Http2Connection :=
  { s with streams := s.streams.set i stream }

/-! ## The sender -/

/-- `newStream` of a client or a server, or `pushStream` of a server. -/
def newStream (s : Http2Connection) (pushed : Bool) : Option Http2Connection :=
  if pushed ∧ s.client = false then none else some { s with streams := s.streams ++ [.new pushed s.peerInitialWindowSize] }

/-- The first half of `emitFrame`, with `size` bytes in the send buffer: the window of the stream. -/
def emitFrame (s : Http2Connection) (i : Nat) (stream : Http2Stream) (size : Nat) (outFinished : Bool) :
    Option Http2Connection :=
  if 0 < stream.bytesLeftInWriteWindow ∧ 0 < size ∧ stream.byteCount = 0 ∧ stream.toWrite = 0 ∧ stream.sinkFinished = false then
    let toWrite := min stream.bytesLeftInWriteWindow.toNat size
    some (s.setStream i { stream with
      bytesLeftInWriteWindow := stream.bytesLeftInWriteWindow - toWrite
      byteCount := toWrite
      outFinished := outFinished && toWrite == size })
  else none

/-- The block of `writeData`: the window of the connection. -/
def takeWindow (s : Http2Connection) (i : Nat) (stream : Http2Stream) (maxDataLength : Nat) : Option Http2Connection :=
  if 0 < s.bytesLeftInWriteWindow ∧ 0 < stream.byteCount ∧ stream.toWrite = 0 then
    let toWrite := min (min stream.byteCount s.bytesLeftInWriteWindow.toNat) maxDataLength
    some { s.setStream i { stream with byteCount := stream.byteCount - toWrite, toWrite } with
      bytesLeftInWriteWindow := s.bytesLeftInWriteWindow - toWrite }
  else none

/-- `writer.data` of what was taken. -/
def writeData (s : Http2Connection) (i : Nat) (stream : Http2Stream) : Option Http2Connection :=
  if 0 < stream.toWrite then
    let inFinished := stream.outFinished && stream.byteCount == 0
    some { s.setStream i { stream with toWrite := 0, sinkFinished := stream.sinkFinished || inFinished } with
      data := s.data ++ [⟨i, stream.toWrite, inFinished⟩] }
  else none

/-- `FramingSink.close` of a stream whose send buffer is empty, or with its trailers. -/
def closeSink (s : Http2Connection) (i : Nat) (stream : Http2Stream) : Option Http2Connection :=
  if stream.byteCount = 0 ∧ stream.toWrite = 0 ∧ stream.sinkFinished = false then
    some { s.setStream i { stream with sinkFinished := true } with data := s.data ++ [⟨i, 0, true⟩] }
  else none

/-- The writer gives up what it is writing while it waits for a window: the stream was reset, or a timeout was over. -/
def giveUp (s : Http2Connection) (i : Nat) (stream : Http2Stream) : Option Http2Connection :=
  if stream.toWrite = 0 then some (s.setStream i { stream with byteCount := 0, gaveUp := true }) else none

/-- `removeStream` of the sender, at any time: the writer of a stream that was reset may go on as long as there is a window. -/
def forget (s : Http2Connection) (i : Nat) (stream : Http2Stream) : Http2Connection :=
  s.setStream i { stream with forgotten := true }

/-- The streams in the sender's map. -/
def known (s : Http2Connection) : List Nat :=
  (List.range s.streams.length).filter fun i => (s.streams[i]?.map fun stream => !stream.forgotten).getD false

/-- The block of `applyAndAckSettings`. -/
def applySettings (s : Http2Connection) : Option Http2Connection :=
  match s.settings with
  | none => none
  | some peerInitialWindowSize =>
    let s := { s with settings := none, peerInitialWindowSize, delta := peerInitialWindowSize - s.peerInitialWindowSize }
    some { s with streamsToNotify := if s.delta ≠ 0 then s.known else [] }

/-- A round of the loop of `applyAndAckSettings`. -/
def notifyStream (s : Http2Connection) : Option Http2Connection :=
  match s.streamsToNotify with
  | [] => none
  | i :: rest =>
    (s.streams[i]?).map fun stream =>
      { s.setStream i { stream with bytesLeftInWriteWindow := stream.bytesLeftInWriteWindow + s.delta } with
        streamsToNotify := rest }

/-- `windowUpdate` of the sender's reader. -/
def windowUpdate (s : Http2Connection) : Option Http2Connection :=
  match s.updates with
  | [] => none
  | ⟨none, increment⟩ :: rest => some { s with bytesLeftInWriteWindow := s.bytesLeftInWriteWindow + increment, updates := rest }
  | ⟨some i, increment⟩ :: rest =>
    (s.streams[i]?).map fun stream =>
      if stream.forgotten then { s with updates := rest }
      else
        { s.setStream i { stream with bytesLeftInWriteWindow := stream.bytesLeftInWriteWindow + increment } with
          updates := rest }

/-! ## The receiver -/

/-- `data` of the receiver's reader. The bytes of a pushed stream are for the push observer: `pushDataLater` takes them off the
connection, and nobody acknowledges them. -/
def receiveFrame (s : Http2Connection) : Option Http2Connection :=
  match s.receiving, s.data with
  | none, frame :: rest =>
    (s.streams[frame.streamId]?).map fun dataStream =>
      if dataStream.pushed then { s with data := rest, uncredited := s.uncredited + frame.length }
      else if dataStream.removed then { s with data := rest, credits := s.credits ++ [frame.length] }
      else { s with data := rest, receiving := some ⟨frame.streamId, frame.length, 0, frame.inFinished⟩ }
  | _, _ => none

/-- The first half of a round of `FramingSource.receive`, in which `read` bytes are read. -/
def receiveBytes (s : Http2Connection) (receiving : Receiving) (stream : Http2Stream) (read : Nat) : Option Http2Connection :=
  if 0 < receiving.byteCount ∧ receiving.receiveBuffer = 0 then
    if s.initialWindowSize < receiving.byteCount + stream.readBuffer then
      some { s with
        flowControlError := true
        lost := s.lost + receiving.byteCount
        receiving := some { receiving with byteCount := 0 } }
    else if stream.finished then
      some { s with lost := s.lost + receiving.byteCount, receiving := some { receiving with byteCount := 0 } }
    else if 0 < read ∧ read ≤ receiving.byteCount then
      some { s with receiving := some { receiving with
        byteCount := receiving.byteCount - read
        receiveBuffer := read } }
    else none
  else none

/-- Its second half. -/
def moveBytes (s : Http2Connection) (receiving : Receiving) (stream : Http2Stream) : Option Http2Connection :=
  if 0 < receiving.receiveBuffer then
    let s := { s with receiving := some { receiving with receiveBuffer := 0 } }
    if stream.closed then some { s with credits := s.credits ++ [receiving.receiveBuffer] }
    else some (s.setStream receiving.streamId { stream with readBuffer := stream.readBuffer + receiving.receiveBuffer })
  else none

/-- The end of `data`. -/
def receiveEnd (s : Http2Connection) (receiving : Receiving) (stream : Http2Stream) : Option Http2Connection :=
  if receiving.byteCount = 0 ∧ receiving.receiveBuffer = 0 then
    some { s.setStream receiving.streamId { stream with finished := stream.finished || receiving.inFinished } with
      receiving := none }
  else none

/-- The block of `FramingSource.read`, which delivers `read` bytes. If `exitAndThrowIfTimedOut` throws behind it, the
connection is not told of them. -/
def readBytes (s : Http2Connection) (i : Nat) (stream : Http2Stream) (read : Nat) (timedOut : Bool) : Option Http2Connection :=
  if stream.closed = false ∧ 0 < stream.readBuffer ∧ read ≤ stream.readBuffer then
    let unacknowledged := stream.unacknowledgedBytesRead + read
    let s := { s with
      credits := if timedOut then s.credits else s.credits ++ [read]
      uncredited := if timedOut then s.uncredited + read else s.uncredited }
    if stream.errorCode = false ∧ s.initialWindowSize / 2 ≤ unacknowledged then
      some { s.setStream i { stream with readBuffer := stream.readBuffer - read, unacknowledgedBytesRead := 0 } with
        updates := s.updates ++ [⟨some i, unacknowledged⟩] }
    else
      some (s.setStream i { stream with
        readBuffer := stream.readBuffer - read
        unacknowledgedBytesRead := unacknowledged })
  else none

/-- The block of `FramingSource.close`. -/
def closeSource (s : Http2Connection) (i : Nat) (stream : Http2Stream) : Http2Connection :=
  { s.setStream i { stream with closed := true, readBuffer := 0 } with
    credits := if 0 < stream.readBuffer then s.credits ++ [stream.readBuffer] else s.credits }

/-- `closeInternal` and `receiveRstStream`: there is an error code. -/
def reset (s : Http2Connection) (i : Nat) (stream : Http2Stream) : Http2Connection :=
  s.setStream i { stream with errorCode := true }

/-- `removeStream` of the receiver. -/
def removeStream (s : Http2Connection) (i : Nat) (stream : Http2Stream) : Option Http2Connection :=
  if stream.errorCode ∨ stream.finished ∨ stream.closed then some (s.setStream i { stream with removed := true }) else none

/-- `updateConnectionFlowControl`, by the thread that has the `k`-th credit. -/
def updateConnectionFlowControl (s : Http2Connection) (k : Nat) : Option Http2Connection :=
  (s.credits[k]?).map fun read =>
    let unacknowledged := s.unacknowledgedBytesRead + read
    let s := { s with credits := s.credits.eraseIdx k }
    if s.initialWindowSize / 2 ≤ unacknowledged then
      { s with unacknowledgedBytesRead := 0, updates := s.updates ++ [⟨none, unacknowledged⟩] }
    else { s with unacknowledgedBytesRead := unacknowledged }

/-! ## Steps -/

/-- What the threads of the two ends do. -/
inductive Act where
  | newStream (pushed : Bool)
  | emitFrame (i size : Nat) (outFinished : Bool)
  | takeWindow (i maxDataLength : Nat)
  | writeData (i : Nat)
  | closeSink (i : Nat)
  | giveUp (i : Nat)
  | forget (i : Nat)
  | applySettings
  | notifyStream
  | windowUpdate
  | receiveFrame
  | receiveBytes (read : Nat)
  | moveBytes
  | receiveEnd
  | readBytes (i read : Nat) (timedOut : Bool)
  | closeSource (i : Nat)
  | reset (i : Nat)
  | removeStream (i : Nat)
  | updateConnectionFlowControl (k : Nat)
  deriving DecidableEq, Repr

/-- What the thread that reads does next. -/
def onReceiving (s : Http2Connection) (f : Receiving → Http2Stream → Option Http2Connection) : Option Http2Connection :=
  s.receiving.bind fun receiving => (s.streams[receiving.streamId]?).bind (f receiving)

def step (s : Http2Connection) : Act → Option Http2Connection
  | .newStream pushed => s.newStream pushed
  | .emitFrame i size outFinished => (s.streams[i]?).bind fun stream => s.emitFrame i stream size outFinished
  | .takeWindow i maxDataLength => (s.streams[i]?).bind fun stream => s.takeWindow i stream maxDataLength
  | .writeData i => (s.streams[i]?).bind (s.writeData i)
  | .closeSink i => (s.streams[i]?).bind (s.closeSink i)
  | .giveUp i => (s.streams[i]?).bind (s.giveUp i)
  | .forget i => (s.streams[i]?).map (s.forget i)
  | .applySettings => s.applySettings
  | .notifyStream => s.notifyStream
  | .windowUpdate => s.windowUpdate
  | .receiveFrame => s.receiveFrame
  | .receiveBytes read => s.onReceiving fun receiving stream => s.receiveBytes receiving stream read
  | .moveBytes => s.onReceiving s.moveBytes
  | .receiveEnd => s.onReceiving s.receiveEnd
  | .readBytes i read timedOut => (s.streams[i]?).bind fun stream => s.readBytes i stream read timedOut
  | .closeSource i => (s.streams[i]?).map (s.closeSource i)
  | .reset i => (s.streams[i]?).map (s.reset i)
  | .removeStream i => (s.streams[i]?).bind (s.removeStream i)
  | .updateConnectionFlowControl k => s.updateConnectionFlowControl k

/-- The connection, with a receiver that is a client or a server. -/
def lts (client : Bool) : Lts Http2Connection Act := Lts.ofFun (new client) step

end Http2Connection

end Okhttp3

end LibraLive

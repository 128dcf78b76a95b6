import LibraLive.Channel

/-!
# One `NiubiPlayer` and its threads

The player from its constructor to its destructor: the prepare thread (`init_prepare`, and inside its `onPrepare` callback
`NiubiPlayer::start`), the demux thread (`init_start`), the stop thread (`init_stop`), the UI thread that calls `stop` and
deletes the player, and the two channels with theirs. As in a channel, a step executes the source up to its next access to
something another thread can change, and the results of the FFmpeg calls come in with the step.
-/

namespace LibraLive

/-- A statement of `NiubiPlayer::start`. -/
inductive StartPc where
  | setPlaying
  | setAudioChannel
  | videoStart
  | audioStart
  | createPlay
  deriving DecidableEq, Repr

/-- Where the prepare thread is. The numbers count the stream loop; `onError` carries the code it is about to report, and
`infoError` is the report after which the source goes on. `infoReported`, `errorReported` and `detach` are the ends of these
two calls of `JavaCallHelper::onError` and of `onPrepare`, back from Java. -/
inductive PreparePc where
  | openInput
  | findStreamInfo
  | infoError
  | infoReported
  | streamLoop (i : Nat)
  | findDecoder (i : Nat)
  | allocContext (i : Nat)
  | setParameters (i : Nat)
  | openDecoder (i : Nat)
  | makeChannel (i : Nat)
  | checkMedia
  | onError (code : Nat)
  | errorReported
  | onPrepare
  | start (pc : StartPc)
  | detach
  | ended
  deriving DecidableEq, Repr

/-- Back from Java, inside a method of the helper. -/
def PreparePc.inHelper : PreparePc → Bool
  | .infoReported | .errorReported | .detach => true
  | _ => false

/-- The queues in the order the EOF branch of `init_start` reads them. -/
inductive EofTest where
  | audioPackets
  | audioFrames
  | videoPackets
  | videoFrames
  deriving DecidableEq, Repr

/-- The channel whose queue a test reads. -/
def EofTest.kind : EofTest → Kind
  | .audioPackets | .audioFrames => .audio
  | .videoPackets | .videoFrames => .video

/-- How `init_start` left its loop: the flag was clear, everything was empty at the end of the file, or a read failed. -/
inductive LeaveReason where
  | notPlaying
  | eof
  | error
  deriving DecidableEq, Repr

/-- Where the demux thread is. -/
inductive DemuxPc where
  | notCreated
  | whileTest
  | audioSize
  | videoSize
  | throttled (kind : Kind)
  | readFrame
  | route (packet : AVPacket)
  | eofTest (test : EofTest)
  | leave (reason : LeaveReason)
  | stopVideo
  | stopAudio
  | ended
  deriving DecidableEq, Repr

/-- Where a test that found its queue empty leads: to the next one, or out of the loop. -/
def EofTest.next : EofTest → DemuxPc
  | .audioPackets => .eofTest .audioFrames
  | .audioFrames => .eofTest .videoPackets
  | .videoPackets => .eofTest .videoFrames
  | .videoFrames => .leave .eof

/-- Where the stop thread is. -/
inductive StopPc where
  | notCreated
  | joinPrepare
  | joinPlay
  | deleteVideo
  | deleteAudio
  | deleteHelper
  | closeFormat
  | ended
  deriving DecidableEq, Repr

/-- Where the UI thread is: before `stop`, after its first and its second statement, after it, after the destructor. -/
inductive UiPc where
  | idle
  | cleared
  | helperZero
  | stopped
  | released
  deriving DecidableEq, Repr

/-- A pointer of the player used while null, or the helper used after it was deleted. -/
inductive Fault where
  | nullChannel
  | nullHelper
  | deletedHelper
  deriving DecidableEq, Repr

/-- A call from native code into the Java object. -/
inductive Callback where
  | onError (code : Nat)
  | onPrepare
  deriving DecidableEq, Repr

/-- The player: its members, where its threads are, and the record of the run: packets read and packets freed by
`init_start`, calls into Java, how often the `JavaCallHelper` was deleted. `streams` is what `avformat_find_stream_info`
finds in the source. -/
structure Player where
  streams : List AVMediaType
  isPlaying : Bool
  callHelper : Bool
  audioChannel : Option Channel
  videoChannel : Option Channel
  prepare : PreparePc
  demux : DemuxPc
  stopper : StopPc
  ui : UiPc
  fault : Option Fault
  reads : List AVPacket
  packetAllocs : Nat
  freedPackets : List AVPacket
  callbacks : List Callback
  helperDeletes : Nat

/-- The player after its constructor and `prepare()`: the prepare thread is about to open the source. -/
def Player.new (streams : List AVMediaType) : Player where
  streams := streams
  isPlaying := false
  callHelper := true
  audioChannel := none
  videoChannel := none
  prepare := .openInput
  demux := .notCreated
  stopper := .notCreated
  ui := .idle
  fault := none
  reads := []
  packetAllocs := 0
  freedPackets := []
  callbacks := []
  helperDeletes := 0

/-! ## Error codes (`common/CommonInclude.h`) -/

def FFMPEG_CAN_NOT_OPEN_URL : Nat := 1
def FFMPEG_CAN_NOT_FIND_STREAMS : Nat := 2
def FFMPEG_FIND_DECODER_FAIL : Nat := 3
def FFMPEG_ALLOC_CODEC_CONTEXT_FAIL : Nat := 4
def FFMPEG_CODEC_CONTEXT_PARAMETERS_FAIL : Nat := 6
def FFMPEG_OPEN_DECODER_FAIL : Nat := 7
def FFMPEG_NO_MEDIA : Nat := 8

namespace Player

/-- The channel of a kind. -/
def channel (s : Player) : Kind → Option Channel
  | .audio => s.audioChannel
  | .video => s.videoChannel

/-- Replace the channel of a kind. -/
def setChannel (s : Player) (k : Kind) (c : Option Channel) : Player :=
  match k with
  | .audio => { s with audioChannel := c }
  | .video => { s with videoChannel := c }

/-- A thread used a bad pointer; nothing runs after that. -/
def crashed (s : Player) : Bool :=
  s.fault.isSome || (s.audioChannel.any (·.crash.isSome) || s.videoChannel.any (·.crash.isSome))

/-! ## The prepare thread -/

/-- `callHelper->onError(THREAD_CHILD, code)` up to the call into Java, after which the thread is at `next`. -/
def onError (s : Player) (code : Nat) (next : PreparePc) : Player :=
  if s.callHelper then { s with callbacks := s.callbacks ++ [.onError code], prepare := next }
  else { s with fault := some .nullHelper }

/-- `vm->DetachCurrentThread()` at the end of a method of the helper, which reads its member `vm`. -/
def detach (s : Player) (next : PreparePc) : Player :=
  if 0 < s.helperDeletes then { s with fault := some .deletedHelper } else { s with prepare := next }

/-- `NiubiPlayer::start`, one statement; inside `videoChannel->start()` and `audioChannel->start()`, one statement of
those. -/
def start (s : Player) : StartPc → Option Player
  | .setPlaying => some { s with isPlaying := true, prepare := .start .setAudioChannel }
  | .setAudioChannel =>
    match s.videoChannel with
    | none => some { s with prepare := .start .audioStart }
    | some c => (c.act (.setAudioChannel s.audioChannel.isSome)).map fun c' =>
        { s with videoChannel := some c', prepare := .start .videoStart }
  | .videoStart =>
    match s.videoChannel with
    | none => none
    | some c =>
      if c.ctl = .running then some { s with prepare := .start .audioStart }
      else (c.act .start).map fun c' => { s with videoChannel := some c' }
  | .audioStart =>
    match s.audioChannel with
    | none => some { s with prepare := .start .createPlay }
    | some c =>
      if c.ctl = .running then some { s with prepare := .start .createPlay }
      else (c.act .start).map fun c' => { s with audioChannel := some c' }
  | .createPlay => some { s with demux := .whileTest, prepare := .detach }

/-- `init_prepare`; `ret` is what the FFmpeg call of the step returns, 0 for a null pointer where it returns a pointer. -/
def initPrepare (s : Player) (ret : Int) : Option Player :=
  match s.prepare with
  | .openInput => some { s with prepare := if ret ≠ 0 then .onError FFMPEG_CAN_NOT_OPEN_URL else .findStreamInfo }
  | .findStreamInfo => some { s with prepare := if ret < 0 then .infoError else .streamLoop 0 }
  -- reported, but the source has no `return` here
  | .infoError => some (s.onError FFMPEG_CAN_NOT_FIND_STREAMS .infoReported)
  | .infoReported => some (s.detach (.streamLoop 0))
  | .streamLoop i => some { s with prepare := if i < s.streams.length then .findDecoder i else .checkMedia }
  | .findDecoder i => some { s with prepare := if ret = 0 then .onError FFMPEG_FIND_DECODER_FAIL else .allocContext i }
  | .allocContext i => some { s with
      prepare := if ret = 0 then .onError FFMPEG_ALLOC_CODEC_CONTEXT_FAIL else .setParameters i }
  | .setParameters i => some { s with
      prepare := if ret < 0 then .onError FFMPEG_CODEC_CONTEXT_PARAMETERS_FAIL else .openDecoder i }
  | .openDecoder i => some { s with prepare := if ret ≠ 0 then .onError FFMPEG_OPEN_DECODER_FAIL else .makeChannel i }
  | .makeChannel i =>
    match s.streams[i]? with
    | some .video => some { s with videoChannel := some (Channel.new .video i), prepare := .streamLoop (i + 1) }
    | some .audio => some { s with audioChannel := some (Channel.new .audio i), prepare := .streamLoop (i + 1) }
    | _ => some { s with prepare := .streamLoop (i + 1) }
  | .checkMedia => some { s with
      prepare := if s.audioChannel.isNone && s.videoChannel.isNone then .onError FFMPEG_NO_MEDIA else .onPrepare }
  | .onError code => some (s.onError code .errorReported)
  | .errorReported => some (s.detach .ended)
  | .onPrepare =>
    if s.callHelper then some { s with callbacks := s.callbacks ++ [.onPrepare], prepare := .start .setPlaying }
    else some { s with fault := some .nullHelper }
  | .start pc => s.start pc
  | .detach => some (s.detach .ended)
  | .ended => none

/-! ## The demux thread -/

/-- The queue a test of the EOF branch reads. -/
def eofQueueEmpty (c : Channel) : EofTest → Bool
  | .audioPackets | .videoPackets => c.packets.empty
  | .audioFrames | .videoFrames => c.frames.empty

/-- `packets.push` on the channel the packet belongs to; a packet of no channel is pushed nowhere, and not freed. -/
def route (s : Player) (packet : AVPacket) : Player :=
  if s.audioChannel.any (fun c => packet.stream_index = c.id) then
    { s with audioChannel := s.audioChannel.map (·.pushPacket packet) }
  else if s.videoChannel.any (fun c => packet.stream_index = c.id) then
    { s with videoChannel := s.videoChannel.map (·.pushPacket packet) }
  else s

/-- `init_start`; the arguments are what `av_read_frame` returns and puts into the packet. -/
def initStart (s : Player) (ret stream_index flags : Int) : Option Player :=
  match s.demux with
  | .whileTest => some { s with demux := if s.isPlaying then .audioSize else .leave .notPlaying }
  | .audioSize => some { s with
      demux := if s.audioChannel.any (fun c => decide (100 < c.packets.size)) then .throttled .audio else .videoSize }
  | .videoSize => some { s with
      demux := if s.videoChannel.any (fun c => decide (100 < c.packets.size)) then .throttled .video else .readFrame }
  | .throttled _ => some { s with demux := .whileTest }
  | .readFrame =>
    if ret = 0 then
      some { s with
        reads := s.reads ++ [⟨s.packetAllocs, stream_index, flags⟩]
        packetAllocs := s.packetAllocs + 1
        demux := .route ⟨s.packetAllocs, stream_index, flags⟩ }
    else
      some { s with
        freedPackets := s.freedPackets ++ [⟨s.packetAllocs, 0, 0⟩]
        packetAllocs := s.packetAllocs + 1
        demux := if ret = AVERROR_EOF then .eofTest .audioPackets else .leave .error }
  | .route packet => some { s.route packet with demux := .whileTest }
  -- the four `empty()` calls, one after the other; a null channel pointer is not tested here
  | .eofTest test =>
    match s.channel test.kind with
    | none => some { s with fault := some .nullChannel }
    | some c => some { s with
        demux := if eofQueueEmpty c test then test.next else .whileTest }
  | .leave _ => some { s with isPlaying := false, demux := .stopVideo }
  | .stopVideo =>
    match s.videoChannel with
    | none => some { s with fault := some .nullChannel }
    | some c =>
      if c.ctl = .stopped then some { s with demux := .stopAudio }
      else (c.act .stop).map fun c' => { s with videoChannel := some c' }
  | .stopAudio =>
    match s.audioChannel with
    | none => some { s with fault := some .nullChannel }
    | some c =>
      if c.ctl = .stopped then some { s with demux := .ended }
      else (c.act .stop).map fun c' => { s with audioChannel := some c' }
  | .notCreated | .ended => none

/-! ## The stop thread and the UI thread -/

/-- `init_stop`. A `pthread_join` waits for the thread; joining `pid_play` when the demux thread was never created comes
back at once. -/
def initStop (s : Player) : Option Player :=
  match s.stopper with
  | .joinPrepare => if s.prepare = .ended then some { s with stopper := .joinPlay } else none
  | .joinPlay =>
    if s.demux = .ended ∨ s.demux = .notCreated then some { s with stopper := .deleteVideo } else none
  | .deleteVideo => some { s with videoChannel := none, stopper := .deleteAudio }
  | .deleteAudio => some { s with audioChannel := none, stopper := .deleteHelper }
  | .deleteHelper => some { s with
      callHelper := false
      helperDeletes := s.helperDeletes + (if s.callHelper then 1 else 0)
      stopper := .closeFormat }
  | .closeFormat => some { s with stopper := .ended }
  | .notCreated | .ended => none

/-- `NiubiPlayer::stop` on the UI thread. -/
def stop (s : Player) : Option Player :=
  match s.ui with
  | .idle => some { s with isPlaying := false, ui := .cleared }
  | .cleared => some { s with callHelper := false, ui := .helperZero }
  | .helperZero => some { s with stopper := .joinPrepare, ui := .stopped }
  | .stopped | .released => none

/-- `~NiubiPlayer`, when the UI thread is not inside `stop`. -/
def destroy (s : Player) : Option Player :=
  match s.ui with
  | .idle | .stopped => some { s with
      callHelper := false
      helperDeletes := s.helperDeletes + (if s.callHelper then 1 else 0)
      ui := .released }
  | .cleared | .helperZero | .released => none

end Player

/-! ## The player as a system -/

/-- The steps a thread of the channel takes by itself; the others are steps of a thread of the player. -/
def ChannelAct.own : ChannelAct → Bool
  | .decode _ | .output _ | .wakeDecode | .wakeOutput | .playReturn => true
  | .start | .stop | .push _ | .setAudioChannel _ => false

/-- A step: of the prepare, demux or stop thread, a statement of `stop` or the destructor on the UI thread, or a step of a
thread of a channel. -/
inductive PlayerAct where
  | prepare (ret : Int)
  | demux (ret stream_index flags : Int)
  | stopper
  | stop
  | destroy
  | channel (kind : Kind) (act : ChannelAct)
  deriving DecidableEq, Repr

namespace Player

/-- One step of a player that has not crashed. The player's life ends with its destructor: a thread that would still run
the player's code then is not followed here (`App` does), only a method of the helper is followed to its end. -/
def step (s : Player) (a : PlayerAct) : Option Player :=
  if s.crashed then none
  else if s.ui = .released then
    match a with
    | .prepare ret => if s.prepare.inHelper then s.initPrepare ret else none
    | _ => none
  else
    match a with
    | .prepare ret => s.initPrepare ret
    | .demux ret stream_index flags => s.initStart ret stream_index flags
    | .stopper => s.initStop
    | .stop => s.stop
    | .destroy => s.destroy
    | .channel k act =>
      if act.own then
        match s.channel k with
        | none => none
        | some c => (c.act act).map fun c' => s.setChannel k (some c')
      else none

/-- A player whose source has the given streams. -/
def lts (streams : List AVMediaType) : Lts Player PlayerAct := Lts.ofFun (Player.new streams) step

end Player

end LibraLive

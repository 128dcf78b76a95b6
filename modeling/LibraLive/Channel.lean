import LibraLive.Lts
import LibraLive.MessageQueue

/-!
# One channel and its threads

`BaseChannel` with what `AudioChannel` and `VideoChannel` add to it, the decode thread and the output thread of the channel
(`render`, or the threads that run `bqPlayerCallback`), and the calls of `start` and `stop`. A step of a thread executes the
source up to and including its next access to something another thread can change: the flag `isPlaying`, a queue's length,
a critical section of a queue. What FFmpeg, OpenSL and the clocks answer comes in with the step.
-/

namespace LibraLive

/-- Which of the two classes a channel is of. -/
inductive Kind where
  | audio
  | video
  deriving DecidableEq, Repr

/-- Where the decode thread is. -/
inductive DecodePc where
  | notCreated
  | enter
  | whileTest
  | sizeFlag
  | sizeTest
  | pop (pc : PopPc)
  | sendPacket
  | receiveFrame (sent : AVPacket)
  | addFrame
  | getFrame
  | push (frame : AVFrame)
  | leave
  | ended
  deriving DecidableEq, Repr

/-- Where the output thread is: `render` for a video channel; for an audio channel the one activation of
`bqPlayerCallback`, or the buffer it left with OpenSL (`outstanding`). -/
inductive OutputPc where
  | notCreated
  | enter
  | whileTest
  | pop (pc : PopPc)
  | audioTime
  | sync
  | show
  | convert
  | enqueue (dataSize : Int)
  | outstanding
  | leave
  | ended
  deriving DecidableEq, Repr

/-- How far the calls of `start` and then `stop` are. -/
inductive CtlPc where
  | constructed
  | playing
  | working1
  | working2
  | decodeCreated
  | running
  | cleared
  | back1
  | back2
  | decodeJoined
  | outputJoined
  | swrFreed
  | stopped
  deriving DecidableEq, Repr

/-- The thread `audio_play`: it runs `init_start` and the first activation of the callback, then returns. -/
inductive PlayPc where
  | notCreated
  | running
  | returning
  | ended
  deriving DecidableEq, Repr

/-- A pointer a thread of the channel used although it was null or freed. -/
inductive Crash where
  | nullAudioChannel
  | nullFrame
  | freedSwrContext
  deriving DecidableEq, Repr

/-- A channel: the members the threads use, the state of its threads with their local variables, and the record of the
run: packets sent to the codec, frames that were output or dropped as late, packets and frames freed. -/
structure Channel where
  kind : Kind
  id : Int
  packets : MessageQueue AVPacket
  frames : MessageQueue AVFrame
  isPlaying : Bool
  audioChannel : Bool
  swrContext : Bool
  ctl : CtlPc
  decode : DecodePc
  packet : Option AVPacket
  frame : Option AVFrame
  output : OutputPc
  outFrame : Option AVFrame
  play : PlayPc
  crash : Option Crash
  frameAllocs : Nat
  sent : List AVPacket
  finished : List AVFrame
  freedPackets : List AVPacket
  freedFrames : List AVFrame

/-- The constructors: `BaseChannel` and the subclass. -/
def Channel.new (kind : Kind) (id : Int) : Channel where
  kind := kind
  id := id
  packets := MessageQueue.new
  frames := MessageQueue.new
  isPlaying := false
  audioChannel := false
  swrContext := true
  ctl := .constructed
  decode := .notCreated
  packet := none
  frame := none
  output := .notCreated
  outFrame := none
  play := .notCreated
  crash := none
  frameAllocs := 0
  sent := []
  finished := []
  freedPackets := []
  freedFrames := []

/-! ## Wake-ups -/

/-- `pthread_cond_signal` for a decode thread in `packets.pop`. -/
def DecodePc.signalled : DecodePc → DecodePc
  | .pop pc => .pop pc.signalled
  | pc => pc

/-- `pthread_cond_signal` for an output thread in `frames.pop`. -/
def OutputPc.signalled : OutputPc → OutputPc
  | .pop pc => .pop pc.signalled
  | pc => pc

namespace Channel

/-! ## The queues -/

/-- `packets.push(packet)`: the decode thread is the only one that can wait on this queue. -/
def pushPacket (c : Channel) (packet : AVPacket) : Channel :=
  { c with
    packets := (c.packets.push packet).1
    freedPackets := c.freedPackets ++ (c.packets.push packet).2
    decode := if c.packets.state then c.decode.signalled else c.decode }

/-- `frames.push(frame)`. -/
def pushFrame (c : Channel) (frame : AVFrame) : Channel :=
  { c with
    frames := (c.frames.push frame).1
    freedFrames := c.freedFrames ++ (c.frames.push frame).2
    output := if c.frames.state then c.output.signalled else c.output }

/-- `packets.gotoWork()`. -/
def packetsGotoWork (c : Channel) : Channel :=
  { c with packets := c.packets.gotoWork, decode := c.decode.signalled }

/-- `frames.gotoWork()`. -/
def framesGotoWork (c : Channel) : Channel :=
  { c with frames := c.frames.gotoWork, output := c.output.signalled }

/-- `packets.backWork()`. -/
def packetsBackWork (c : Channel) : Channel :=
  { c with packets := c.packets.backWork, decode := c.decode.signalled }

/-- `frames.backWork()`. -/
def framesBackWork (c : Channel) : Channel :=
  { c with frames := c.frames.backWork, output := c.output.signalled }

/-- `frames.sync()`: the frame `dropAvFrame` drops counts as dropped late. -/
def framesSync (c : Channel) : Channel :=
  { c with
    frames := (c.frames.sync dropAvFrame).1
    finished := c.finished ++ (c.frames.sync dropAvFrame).2
    freedFrames := c.freedFrames ++ (c.frames.sync dropAvFrame).2 }

/-- `releaseAvPacket(packet)` on the local variable of `decode`: free it, unless it is null, and set it to null. -/
def releaseAvPacket (c : Channel) : Channel :=
  { c with packet := none, freedPackets := c.freedPackets ++ c.packet.toList }

/-- `releaseAvFrame(frame)` on the local variable of `decode`. -/
def releaseAvFrame (c : Channel) : Channel :=
  { c with frame := none, freedFrames := c.freedFrames ++ c.frame.toList }

/-- `releaseAvFrame(frame)` on the local variable of the output thread. -/
def releaseOutFrame (c : Channel) : Channel :=
  { c with outFrame := none, freedFrames := c.freedFrames ++ c.outFrame.toList }

/-! ## The decode threads -/

/-- One critical section of `packets.pop(packet)` in `decode`. -/
def decodePop (c : Channel) : Channel :=
  { c with
    packets := c.packets.popSection.2.1
    packet := c.packets.popSection.2.2 <|> c.packet
    decode := .pop c.packets.popSection.1 }

/-- The part both `decode` loops share: the loop test, the size check, `packets.pop` and the tests on its result. -/
def decodeHead (c : Channel) : Option Channel :=
  match c.decode with
  | .whileTest => some { c with decode := if c.isPlaying then .sizeFlag else .leave }
  -- `isPlaying && frames.size() > 100`: the flag is read a second time, and when it is clear the size is not read
  | .sizeFlag => some { c with decode := if c.isPlaying then .sizeTest else .pop .call }
  | .sizeTest => some { c with decode := if 100 < c.frames.size then .whileTest else .pop .call }
  | .pop .call => some c.decodePop
  | .pop .woken => some c.decodePop
  | .pop (.returned ret) =>
    some { c with decode := if !c.isPlaying then .leave else if ret then .sendPacket else .whileTest }
  | _ => none

end Channel

/-- `AudioChannel::decode`; `ret` is what the FFmpeg call of the step returns. -/
def AudioChannel.decode (c : Channel) (ret : Int) : Option Channel :=
  match c.decode with
  | .enter => some { c with decode := .whileTest, packet := none }
  | .sendPacket =>
    match c.packet with
    | none => none
    | some packet =>
      let c' := { c with sent := c.sent ++ [packet] }.releaseAvPacket
      if ret ≠ 0 then some { c' with decode := .leave }
      else some { c' with
        frame := some ⟨c.frameAllocs, none⟩, frameAllocs := c.frameAllocs + 1, decode := .receiveFrame packet }
  | .receiveFrame sent =>
    if ret = AVERROR_EAGAIN ∨ ret = AVERROR_EOF ∨ ret = AVERROR_EINVAL ∨ ret = AVERROR_INPUT_CHANGED then
      some { c.releaseAvFrame with decode := .whileTest }
    else if ret ≠ 0 then some { c.releaseAvFrame with decode := .leave }
    else some { c with
      frame := none, decode := .push { serial := (c.frame.map AVFrame.serial).getD 0, sentLast := some sent } }
  | .push frame => some { c.pushFrame frame with decode := .whileTest }
  | .leave => some { c.releaseAvPacket with decode := .ended }
  | _ => c.decodeHead

/-- `VideoChannel::decode` with its `doFilter`; `ret` is what the FFmpeg call of the step returns. One frame is received
into, over and over, and every turn through the filter pushes a frame of its own, filled or not. -/
def VideoChannel.decode (c : Channel) (ret : Int) : Option Channel :=
  match c.decode with
  | .enter => some { c with
      decode := .whileTest, packet := none, frame := some ⟨c.frameAllocs, none⟩, frameAllocs := c.frameAllocs + 1 }
  | .sendPacket =>
    match c.packet with
    | none => none
    | some packet =>
      let c' := { c with sent := c.sent ++ [packet] }
      if ret ≠ 0 then some { c' with decode := .leave }
      else some { c'.releaseAvPacket with decode := .receiveFrame packet }
  | .receiveFrame sent =>
    if ret = AVERROR_EAGAIN then some { c with frame := c.frame.map ({ · with sentLast := none }), decode := .whileTest }
    else if ret ≠ 0 then some { c with frame := c.frame.map ({ · with sentLast := none }), decode := .leave }
    else some { c with
      frame := some { serial := (c.frame.map AVFrame.serial).getD 0, sentLast := some sent }, decode := .addFrame }
  -- `av_buffersrc_add_frame_flags`: a failure is only logged
  | .addFrame => some { c with frameAllocs := c.frameAllocs + 1, decode := .getFrame }
  | .getFrame => some { c with
      decode := .push ⟨c.frameAllocs - 1, if ret < 0 then none else c.frame.bind AVFrame.sentLast⟩ }
  | .push frame => some { c.pushFrame frame with
      frame := c.frame.map ({ · with sentLast := none }), decode := .whileTest }
  | .leave => some { c.releaseAvFrame.releaseAvPacket with decode := .ended }
  | _ => c.decodeHead

/-! ## The output threads -/

/-- What the surroundings answer a step of an output thread: the sign of `videoTime - audioTime`, what `swr_convert`
returns, and whether the OpenSL calls of `init_start` succeed. -/
structure OutputInput where
  time_diff : Ordering
  samples : Int
  slResult : Bool
  deriving DecidableEq, Repr

/-- One critical section of `frames.pop(frame)` in an output thread. -/
def Channel.outputPop (c : Channel) : Channel :=
  { c with
    frames := c.frames.popSection.2.1
    outFrame := c.frames.popSection.2.2 <|> c.outFrame
    output := .pop c.frames.popSection.1 }

/-- `VideoChannel::render`. -/
def VideoChannel.render (c : Channel) (i : OutputInput) : Option Channel :=
  match c.output with
  | .enter => some { c with output := .whileTest, outFrame := none }
  | .whileTest => some { c with output := if c.isPlaying then .pop .call else .leave }
  | .pop .call => some c.outputPop
  | .pop .woken => some c.outputPop
  | .pop (.returned ret) =>
    some { c with output := if !c.isPlaying then .leave else if ret then .audioTime else .whileTest }
  | .audioTime =>
    if !c.audioChannel then some { c with crash := some .nullAudioChannel }
    else
      match i.time_diff with
      | .lt => some { c with finished := c.finished ++ c.outFrame.toList, output := .sync }
      | _ => some { c with output := .show }
  -- the late frame itself is not released, and `continue` keeps it in the variable
  | .sync => some { c.framesSync with output := .whileTest }
  | .show => some { { c with finished := c.finished ++ c.outFrame.toList }.releaseOutFrame with output := .whileTest }
  | .leave => some { c.releaseOutFrame with isPlaying := false, output := .ended }
  | _ => none

/-- `AudioChannel::init_start`, `bqPlayerCallback` and `getPcm`: the thread `audio_play` sets OpenSL up and runs the
callback once; OpenSL runs it again for every buffer it has played. -/
def AudioChannel.getPcm (c : Channel) (i : OutputInput) : Option Channel :=
  match c.output with
  | .enter =>
    if i.slResult then some { c with output := .pop .call, outFrame := none }
    else some { c with output := .ended, play := .returning }
  | .pop .call => some c.outputPop
  | .pop .woken => some c.outputPop
  | .pop (.returned ret) =>
    if !c.isPlaying then some { (if ret then c.releaseOutFrame else c) with output := .enqueue 0 }
    else some { c with output := .convert }
  | .convert =>
    match c.outFrame with
    | none => some { c with crash := some .nullFrame }
    | some frame =>
      if !c.swrContext then some { c with crash := some .freedSwrContext }
      else some { { c with finished := c.finished ++ [frame] }.releaseOutFrame with
        output := .enqueue (i.samples * 2 * 2) }
  | .enqueue dataSize => some { c with
      output := if 0 < dataSize then .outstanding else .ended
      play := if c.play = .running then .returning else c.play }
  | .outstanding => some { c with output := .pop .call, outFrame := none }
  | _ => none

/-! ## `start` and `stop` -/

/-- The two `gotoWork` calls of `start` and the two `backWork` calls of `stop` come in an order of the class. -/
def Channel.gotoWork (c : Channel) (first : Bool) : Channel :=
  match c.kind, first with
  | .video, true => c.framesGotoWork
  | .video, false => c.packetsGotoWork
  | .audio, true => c.packetsGotoWork
  | .audio, false => c.framesGotoWork

/-- The first and the second `backWork` of `stop`. -/
def Channel.backWork (c : Channel) (first : Bool) : Channel :=
  match c.kind, first with
  | .video, true => c.framesBackWork
  | .video, false => c.packetsBackWork
  | .audio, true => c.packetsBackWork
  | .audio, false => c.framesBackWork

/-- `VideoChannel::start` and `AudioChannel::start`, one statement. -/
def Channel.start (c : Channel) : Option Channel :=
  match c.ctl with
  | .constructed => some { c with isPlaying := true, ctl := .playing }
  | .playing => some { c.gotoWork true with ctl := .working1 }
  | .working1 => some { c.gotoWork false with ctl := .working2 }
  | .working2 => some { c with decode := .enter, ctl := .decodeCreated }
  | .decodeCreated => some { c with
      output := .enter, play := if c.kind = .audio then .running else c.play, ctl := .running }
  | _ => none

/-- The thread the second `pthread_join` of `stop` waits for has returned. -/
def Channel.outputReturned (c : Channel) : Bool :=
  match c.kind with
  | .video => c.output = .ended
  | .audio => c.play = .ended

/-- No activation of the callback is under way, so that `Destroy` of the OpenSL player can return. -/
def Channel.callbackIdle (c : Channel) : Bool :=
  c.output = .outstanding || c.output = .ended

/-- `VideoChannel::stop` and `AudioChannel::stop`, one statement; a `pthread_join` is not passed before its thread
returned, and `Destroy` on the OpenSL player not while a callback runs. -/
def Channel.stop (c : Channel) : Option Channel :=
  match c.ctl with
  | .running => some { c with isPlaying := false, ctl := .cleared }
  | .cleared => some { c.backWork true with ctl := .back1 }
  | .back1 => some { c.backWork false with ctl := .back2 }
  | .back2 => if c.decode = .ended then some { c with ctl := .decodeJoined } else none
  | .decodeJoined => if c.outputReturned then some { c with ctl := .outputJoined } else none
  | .outputJoined =>
    match c.kind with
    | .video => some { c with ctl := .stopped }
    | .audio => some { c with swrContext := false, ctl := .swrFreed }
  | .swrFreed => if c.callbackIdle then some { c with output := .ended, ctl := .stopped } else none
  | _ => none

/-! ## The channel as a system -/

/-- A step: of the decode thread, of the output thread, a spurious wake-up of one of them, the return of `audio_play`, a
statement of `start` or `stop`, a packet pushed from outside, or `setAudioChannel`. -/
inductive ChannelAct where
  | decode (ret : Int)
  | output (i : OutputInput)
  | wakeDecode
  | wakeOutput
  | playReturn
  | start
  | stop
  | push (packet : AVPacket)
  | setAudioChannel (channel : Bool)
  deriving DecidableEq, Repr

/-- One step of a channel whose threads have not crashed the process. -/
def Channel.act (c : Channel) : ChannelAct → Option Channel
  | .decode ret =>
    match c.kind with
    | .audio => AudioChannel.decode c ret
    | .video => VideoChannel.decode c ret
  | .output i =>
    match c.kind with
    | .audio => AudioChannel.getPcm c i
    | .video => VideoChannel.render c i
  | .wakeDecode => if c.decode = .pop .asleep then some { c with decode := .pop .woken } else none
  | .wakeOutput => if c.output = .pop .asleep then some { c with output := .pop .woken } else none
  | .playReturn => if c.play = .returning then some { c with play := .ended } else none
  | .start => c.start
  | .stop => c.stop
  | .push packet => some (c.pushPacket packet)
  | .setAudioChannel channel => if c.ctl = .constructed then some { c with audioChannel := channel } else none

/-- One step of a channel; nothing runs after a crash. -/
def Channel.step (c : Channel) (a : ChannelAct) : Option Channel := if c.crash.isSome then none else c.act a

/-- A channel on its own: packets are pushed to it at any time, its `start` and then its `stop` are called at any time. -/
def Channel.lts (kind : Kind) : Lts Channel ChannelAct where
  init c := ∃ id : Int, c = Channel.new kind id
  step c a c' := c.step a = some c'

end LibraLive

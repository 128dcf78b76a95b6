import LibraLive.CInt
import LibraLive.Channel

/-!
# The audio output, thread by thread

`Channel` knows one place for the output of an audio channel. Here the threads behind it are told apart: `audio_play`, which
runs `init_start` and in it the first `bqPlayerCallback`, and the threads on which OpenSL runs `bqPlayerCallback` again. Of
OpenSL only this is assumed: it runs the callback once for every buffer that was enqueued, after it has played it, and never
otherwise, and `Destroy` returns when no callback is under way. The channel itself, with its decode thread and the calls of
`start` and `stop`, is the one of `Channel`, which calls `stop` after `start` because the demux thread calls it, a thread
that `NiubiPlayer::start` creates after it has started the channels.
-/

namespace LibraLive

/-- Where a thread is inside `bqPlayerCallback` and the `getPcm` it calls: in `frames.pop`, behind it with its result, at
`swr_get_delay`, at `swr_convert`, back in the callback with the size of the data, or done with `Enqueue`. -/
inductive CallbackPc where
  | pop
  | popped (ret : Bool)
  | getDelay
  | convert
  | enqueue (dataSize : Int)
  | returned
  deriving DecidableEq, Repr

/-- One `bqPlayerCallback` under way: where it is, and the variable `frame` of its `getPcm`. -/
structure BqCallback where
  pc : CallbackPc
  frame : Option AVFrame
  deriving DecidableEq, Repr

/-- The callback as it is called. -/
def BqCallback.called : BqCallback := ⟨.pop, none⟩

/-- The callback has not passed its `Enqueue`. -/
def BqCallback.beforeEnqueue (cb : BqCallback) : Bool := cb.pc ≠ .returned

/-- The callback is inside `getPcm`. -/
def BqCallback.inGetPcm (cb : BqCallback) : Bool :=
  match cb.pc with
  | .pop | .popped _ | .getDelay | .convert => true
  | .enqueue _ | .returned => false

/-- The callback is past the `isPlaying` check of `getPcm`: it reads the frame and uses the resampler. -/
def BqCallback.resampling (cb : BqCallback) : Bool := cb.pc = .getDelay || cb.pc = .convert

/-- The OpenSL calls of `init_start` whose results it tests. -/
inductive SlCall where
  | createEngine
  | realizeEngine
  | engineInterface
  | createOutputMix
  | realizeOutputMix
  deriving DecidableEq, Repr

/-- Where the thread `audio_play` is: at a tested call, at the calls from `CreateAudioPlayer` to `SetPlayState`, none of
which is tested, in the callback it calls itself, or returned. (The untested calls are taken to succeed.) -/
inductive AudioPlayPc where
  | notCreated
  | tested (call : SlCall)
  | createPlayer
  | callback (cb : BqCallback)
  | ended
  deriving DecidableEq, Repr

/-- What follows a tested call that succeeds. -/
def SlCall.next : SlCall → AudioPlayPc
  | .createEngine => .tested .realizeEngine
  | .realizeEngine => .tested .engineInterface
  | .engineInterface => .tested .createOutputMix
  | .createOutputMix => .tested .realizeOutputMix
  | .realizeOutputMix => .createPlayer

/-- The callback `audio_play` is in. -/
def AudioPlayPc.activation : AudioPlayPc → Option BqCallback
  | .callback cb => some cb
  | _ => none

/-- An audio channel with its output threads: the channel (whose own output place stays unused), `audio_play`, the callbacks
OpenSL runs, the number of buffers enqueued and not yet played, and whether `init_start` has called the callback. -/
structure AudioOutput where
  channel : Channel
  audioPlay : AudioPlayPc
  callbacks : List BqCallback
  queued : Nat
  activated : Bool

/-- The channel as constructed. -/
def AudioOutput.new (id : Int) : AudioOutput where
  channel := Channel.new .audio id
  audioPlay := .notCreated
  callbacks := []
  queued := 0
  activated := false

/-- The `SLDataLocator_AndroidSimpleBufferQueue` of `init_start` holds two buffers. -/
def bufferQueueCapacity : Nat := 2

/-- The output format: stereo, 16 bits, 44.1 kHz. -/
def out_channels : Int := 2

def out_sample_size : Int := 2

def out_sample_rate : Int := 44100

/-- The size of `out_buffers`, which the constructor allocates. -/
def out_buffers_size : Int := out_sample_rate * out_sample_size * out_channels

/-- `av_rescale_rnd(a, b, c, AV_ROUND_UP)`. -/
def av_rescale_up (a b c : Int) : Int := ⌈(a * b / c : ℚ)⌉

/-- `max_samples` of `getPcm`, for what `swr_get_delay` returns and the fields of the frame. -/
def max_samples (delays nb_samples sample_rate : Int) : Int :=
  av_rescale_up (delays + nb_samples) out_sample_rate sample_rate

/-- `samples * out_sample_size * out_channels` as an `int`: two bytes for each of two channels. -/
def pcmDataSize (samples : Int) : Int := (samples * 2 * 2).bmod 0x100000000

/-- A callback uses the frame and then the resampler; it goes on to `next` unless one of them is gone. -/
def BqCallback.use (c : Channel) (cb : BqCallback) (next : AVFrame → Channel × BqCallback) : Channel × BqCallback :=
  match cb.frame with
  | none => ({ c with crash := some .nullFrame }, cb)
  | some frame => if !c.swrContext then ({ c with crash := some .freedSwrContext }, cb) else next frame

/-- `AudioChannel::getPcm`, one step; `samples` is what `swr_convert` returns. A section of `pop` that ends in the wait leaves
the thread where it is: whenever it gets out of the wait, it runs the next section. -/
def BqCallback.getPcm (c : Channel) (cb : BqCallback) (samples : Int) : Channel × BqCallback :=
  match cb.pc with
  | .pop =>
    ({ c with frames := c.frames.popSection.2.1 },
      { pc := match c.frames.popSection.1 with
          | .returned ret => .popped ret
          | _ => .pop
        frame := c.frames.popSection.2.2 <|> cb.frame })
  | .popped ret =>
    if !c.isPlaying then
      if ret then ({ c with freedFrames := c.freedFrames ++ cb.frame.toList }, ⟨.enqueue 0, none⟩)
      else (c, { cb with pc := .enqueue 0 })
    else (c, { cb with pc := .getDelay })
  | .getDelay => cb.use c fun _ => (c, { cb with pc := .convert })
  | .convert => cb.use c fun frame =>
      ({ c with finished := c.finished ++ [frame], freedFrames := c.freedFrames ++ [frame] },
        ⟨.enqueue (pcmDataSize samples), none⟩)
  | .enqueue _ | .returned => (c, cb)

namespace AudioOutput

/-- The callbacks under way, on whatever thread. -/
def activations (s : AudioOutput) : List BqCallback := s.audioPlay.activation.toList ++ s.callbacks

/-- The callbacks that have not passed their `Enqueue`. -/
def active (s : AudioOutput) : List BqCallback := s.activations.filter BqCallback.beforeEnqueue

/-- The threads that run callbacks: `audio_play`, and those of OpenSL. -/
inductive Thread where
  | audioPlay
  | openSl (i : Nat)
  deriving DecidableEq, Repr

/-- The callback a thread is in. -/
def activation (s : AudioOutput) : Thread → Option BqCallback
  | .audioPlay => s.audioPlay.activation
  | .openSl i => s.callbacks[i]?

/-- The thread goes on in its callback. -/
def setActivation (s : AudioOutput) (t : Thread) (cb : BqCallback) : AudioOutput :=
  match t with
  | .audioPlay => { s with audioPlay := .callback cb }
  | .openSl i => { s with callbacks := s.callbacks.set i cb }

/-- The thread returns from its callback; `audio_play` ends with that. -/
def returnFrom (s : AudioOutput) : Thread → AudioOutput
  | .audioPlay => { s with audioPlay := .ended }
  | .openSl i => { s with callbacks := s.callbacks.eraseIdx i }

/-- `bqPlayerCallback`, one step of the thread that is in it. -/
def bqPlayerCallback (s : AudioOutput) (t : Thread) (samples : Int) : Option AudioOutput :=
  match s.activation t with
  | none => none
  | some cb =>
    match cb.pc with
    -- `if (dataSize > 0)` `Enqueue`, which a full queue refuses
    | .enqueue dataSize => some { s.setActivation t { cb with pc := .returned } with
        queued := if 0 < dataSize ∧ s.queued < bufferQueueCapacity then s.queued + 1 else s.queued }
    | .returned => some (s.returnFrom t)
    | _ => some { s.setActivation t (cb.getPcm s.channel samples).2 with
        channel := (cb.getPcm s.channel samples).1 }

/-- `init_start` up to its call of the callback. -/
def initStart (s : AudioOutput) (slResult : Bool) : Option AudioOutput :=
  match s.audioPlay with
  | .tested call => some { s with audioPlay := if slResult then call.next else .ended }
  | .createPlayer => some { s with audioPlay := .callback BqCallback.called, activated := true }
  | .notCreated | .callback _ | .ended => none

/-- OpenSL has played a buffer and runs the callback. -/
def bufferFinished (s : AudioOutput) : Option AudioOutput :=
  if 0 < s.queued then
    some { s with queued := s.queued - 1, callbacks := s.callbacks ++ [BqCallback.called] }
  else none

/-- `AudioChannel::start`, one statement; the last one creates `audio_play`. -/
def start (s : AudioOutput) : Option AudioOutput :=
  match s.channel.ctl with
  | .decodeCreated => some { s with
      channel := { s.channel with ctl := .running }, audioPlay := .tested .createEngine }
  | _ => s.channel.start.map fun c => { s with channel := c }

/-- `AudioChannel::stop`, one statement: it joins `audio_play` but no thread of OpenSL; these `Destroy` waits for. -/
def stop (s : AudioOutput) : Option AudioOutput :=
  match s.channel.ctl with
  | .decodeJoined =>
    if s.audioPlay = .ended then some { s with channel := { s.channel with ctl := .outputJoined } } else none
  | .swrFreed =>
    if s.callbacks = [] then some { s with channel := { s.channel with ctl := .stopped }, queued := 0 } else none
  | _ => s.channel.stop.map fun c => { s with channel := c }

/-- A step: of the decode thread, of `audio_play` before its callback, of a thread in the callback, of OpenSL, of `start` or
`stop`, or a packet pushed from outside. -/
inductive Act where
  | decode (ret : Int)
  | wakeDecode
  | push (packet : AVPacket)
  | initStart (slResult : Bool)
  | callback (t : Thread) (samples : Int)
  | bufferFinished
  | start
  | stop
  deriving DecidableEq, Repr

/-- One step of an audio channel whose threads have not crashed the process. -/
def act (s : AudioOutput) : Act → Option AudioOutput
  | .decode ret => (s.channel.act (.decode ret)).map fun c => { s with channel := c }
  | .wakeDecode => (s.channel.act .wakeDecode).map fun c => { s with channel := c }
  | .push packet => (s.channel.act (.push packet)).map fun c => { s with channel := c }
  | .initStart slResult => s.initStart slResult
  | .callback t samples => s.bqPlayerCallback t samples
  | .bufferFinished => s.bufferFinished
  | .start => s.start
  | .stop => s.stop

/-- One step; nothing runs after a crash. -/
def step (s : AudioOutput) (a : Act) : Option AudioOutput := if s.channel.crash.isSome then none else s.act a

/-- An audio channel from its constructor on. -/
def lts : Lts AudioOutput Act where
  init s := ∃ id : Int, s = AudioOutput.new id
  step s a s' := s.step a = some s'

end AudioOutput

end LibraLive

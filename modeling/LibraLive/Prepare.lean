import LibraLive.Player

/-!
# `init_prepare` from beginning to end

`Player.initPrepare` takes the routine statement by statement, for what other threads may do in between. Here it runs in one
piece, given what the FFmpeg calls return for the source, and keeps account of what it allocates: the codec contexts and the
channel objects. A context and a channel are known by the stream in whose turn of the loop they were made.
-/

namespace LibraLive

/-- A stream of the source, with what the four FFmpeg calls of its turn of the loop return, 0 for a null pointer. -/
structure SourceStream where
  codec_type : AVMediaType
  find_decoder : Int
  alloc_context3 : Int
  parameters_to_context : Int
  open2 : Int
  deriving DecidableEq, Repr

/-- A source: what the two FFmpeg calls before the loop return, and the streams. -/
structure Source where
  open_input : Int
  find_stream_info : Int
  streams : List SourceStream
  deriving DecidableEq, Repr

/-- A channel object as `init_prepare` makes it. -/
structure ChannelObject where
  kind : Kind
  id : Nat
  mAvCodecContext : Nat
  deriving DecidableEq, Repr

/-- What `init_prepare` has done so far: the two members it stores channels in, the contexts it allocated, the contexts that
were freed, the channel objects it created, and its calls into Java. -/
structure Prepare where
  audioChannel : Option ChannelObject
  videoChannel : Option ChannelObject
  contexts : List Nat
  freedContexts : List Nat
  created : List ChannelObject
  callbacks : List Callback
  deriving DecidableEq, Repr

namespace Prepare

/-- The player as constructed. -/
def new : Prepare where
  audioChannel := none
  videoChannel := none
  contexts := []
  freedContexts := []
  created := []
  callbacks := []

/-- The member for a kind of channel. -/
def channel (r : Prepare) : Kind → Option ChannelObject
  | .audio => r.audioChannel
  | .video => r.videoChannel

/-- `callHelper->onError(THREAD_CHILD, code)`. -/
def onError (r : Prepare) (code : Nat) : Prepare := { r with callbacks := r.callbacks ++ [.onError code] }

/-- `callHelper->onPrepare(THREAD_CHILD)`. -/
def onPrepare (r : Prepare) : Prepare := { r with callbacks := r.callbacks ++ [.onPrepare] }

/-- `avcodec_alloc_context3`, where it succeeds. -/
def allocContext (r : Prepare) (i : Nat) : Prepare := { r with contexts := r.contexts ++ [i] }

/-- The end of a turn of the loop: a stream of video or audio gets a channel, which takes the context over and replaces what
the member pointed to; the context of any other stream stays in the local variable. -/
def makeChannel (r : Prepare) (i : Nat) : AVMediaType → Prepare
  | .video => { r with videoChannel := some ⟨.video, i, i⟩, created := r.created ++ [⟨.video, i, i⟩] }
  | .audio => { r with audioChannel := some ⟨.audio, i, i⟩, created := r.created ++ [⟨.audio, i, i⟩] }
  | .other => r

/-- After the loop. -/
def checkMedia (r : Prepare) : Prepare :=
  if r.audioChannel.isNone && r.videoChannel.isNone then r.onError FFMPEG_NO_MEDIA else r.onPrepare

/-- The loop over the streams, from stream `i` on, and what comes after it. No exit frees the context of its turn. -/
def streamLoop (r : Prepare) (i : Nat) : List SourceStream → Prepare
  | [] => r.checkMedia
  | stream :: streams =>
    if stream.find_decoder = 0 then r.onError FFMPEG_FIND_DECODER_FAIL
    else if stream.alloc_context3 = 0 then r.onError FFMPEG_ALLOC_CODEC_CONTEXT_FAIL
    else if stream.parameters_to_context < 0 then (r.allocContext i).onError FFMPEG_CODEC_CONTEXT_PARAMETERS_FAIL
    else if stream.open2 ≠ 0 then (r.allocContext i).onError FFMPEG_OPEN_DECODER_FAIL
    else ((r.allocContext i).makeChannel i stream.codec_type).streamLoop (i + 1) streams

/-- `init_prepare`. A failure of `avformat_find_stream_info` is reported, but the routine goes on. -/
def initPrepare (source : Source) : Prepare :=
  if source.open_input ≠ 0 then new.onError FFMPEG_CAN_NOT_OPEN_URL
  else (if source.find_stream_info < 0 then new.onError FFMPEG_CAN_NOT_FIND_STREAMS else new).streamLoop 0 source.streams

/-! ## What each part leaves alone -/

section
variable (r : Prepare) (i code : Nat) (type : AVMediaType)

@[simp] theorem callbacks_new : new.callbacks = [] := rfl
@[simp] theorem callbacks_onError : (r.onError code).callbacks = r.callbacks ++ [.onError code] := rfl
@[simp] theorem callbacks_onPrepare : r.onPrepare.callbacks = r.callbacks ++ [.onPrepare] := rfl
@[simp] theorem callbacks_allocContext : (r.allocContext i).callbacks = r.callbacks := rfl
@[simp] theorem callbacks_makeChannel : (r.makeChannel i type).callbacks = r.callbacks := by cases type <;> rfl
@[simp] theorem contexts_makeChannel : (r.makeChannel i type).contexts = r.contexts := by cases type <;> rfl
@[simp] theorem freedContexts_makeChannel : (r.makeChannel i type).freedContexts = r.freedContexts := by cases type <;> rfl

end

end Prepare

end LibraLive

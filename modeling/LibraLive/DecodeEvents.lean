import LibraLive.Change
import LibraLive.Channel
import LibraLive.Ownership

/-!
# A decode thread by itself

What the two `decode` functions do with packets and frames, and a decode thread whose surroundings do what they please: the
queues may hold anything at any time, so that `pop` returns anything, and `isPlaying` may change at any time. What a step
acquires, gives to the queue and frees is what it changes in the two queues, in what was freed and in the number of
allocations; which packet or frame it reads or writes is said for each statement.
-/

namespace LibraLive

/-- A packet, or a frame by its allocation. -/
inductive Resource where
  | packet (packet : AVPacket)
  | frame (serial : Nat)
  deriving DecidableEq, Repr

/-- The packet in the variable. -/
def Channel.packetVariable (c : Channel) : List Resource := c.packet.toList.map .packet

/-- The frame in the variable. -/
def Channel.frameVariable (c : Channel) : List Resource := c.frame.toList.map fun frame => .frame frame.serial

/-- What a step of a decode thread changes hands: the packets and frames it freed, the frames that joined the queue, the packets
that it took off the queue and the frames it allocated. A frame pushed to a queue that is not working is freed by the push. -/
def Channel.handed (c c' : Channel) : List (OwnEvent Resource) :=
  (Change.joined c.freedPackets c'.freedPackets).map (fun packet => .free (.packet packet)) ++
    (Change.joined c.freedFrames c'.freedFrames).map (fun frame => .free (.frame frame.serial)) ++
    (Change.joined c.frames.queue.items c'.frames.queue.items).map (fun frame => .pass (.frame frame.serial)) ++
    (Change.left c.packets.queue.items c'.packets.queue.items).map (fun packet => .acquire (.packet packet)) ++
    (List.range' c.frameAllocs (c'.frameAllocs - c.frameAllocs)).map (fun serial => .acquire (.frame serial))

/-- What `AudioChannel::decode` reads or writes in a step: `avcodec_send_packet`, `avcodec_receive_frame`. -/
def AudioChannel.uses (c : Channel) : List Resource :=
  match c.decode with
  | .sendPacket => c.packetVariable
  | .receiveFrame _ => c.frameVariable
  | _ => []

/-- What `VideoChannel::decode` and its `doFilter` read or write in a step, before they give anything away:
`avcodec_send_packet`, `avcodec_receive_frame` and the `av_frame_unref` after it, `av_buffersrc_add_frame_flags`,
`av_buffersink_get_frame`. -/
def VideoChannel.uses (c : Channel) : List Resource :=
  match c.decode with
  | .sendPacket => c.packetVariable
  | .receiveFrame _ | .addFrame => c.frameVariable
  | .getFrame => [.frame (c.frameAllocs - 1)]
  | _ => []

/-- What they write after it: `av_frame_unref`, when the frame that the filter filled has been pushed. -/
def VideoChannel.usesAfter (c : Channel) : List Resource :=
  match c.decode with
  | .push _ => c.frameVariable
  | _ => []

/-- What a step of `AudioChannel::decode` does with packets and frames. -/
def AudioChannel.events (c c' : Channel) : List (OwnEvent Resource) := (AudioChannel.uses c).map .use ++ c.handed c'

/-- What a step of `VideoChannel::decode` and its `doFilter` does with packets and frames. -/
def VideoChannel.events (c c' : Channel) : List (OwnEvent Resource) :=
  (VideoChannel.uses c).map .use ++ c.handed c' ++ (VideoChannel.usesAfter c).map .use

/-- The step with which something happens, of the decode thread or of the others. -/
inductive DecodeAct where
  | decode (ret : Int)
  | others
  deriving DecidableEq, Repr

/-- What a step does with packets and frames, of either class. -/
def Channel.events (c : Channel) (a : DecodeAct) (c' : Channel) : List (OwnEvent Resource) :=
  match a with
  | .decode _ =>
    match c.kind with
    | .audio => AudioChannel.events c c'
    | .video => VideoChannel.events c c'
  | .others => []

/-- What the other threads may do: anything but change the local variables of the decode thread and its place, except that they
wake it. -/
structure Channel.Meddled (c c' : Channel) : Prop where
  kind : c'.kind = c.kind
  packet : c'.packet = c.packet
  frame : c'.frame = c.frame
  frameAllocs : c'.frameAllocs = c.frameAllocs
  decode : c'.decode = c.decode ∨ c'.decode = c.decode.signalled

/-- A decode thread from its first statement on, with nothing in its variables, among threads that do as they please. -/
def Channel.decodeLts (kind : Kind) : Lts Channel DecodeAct where
  init c := c.kind = kind ∧ c.decode = .enter ∧ c.packet = none ∧ c.frame = none
  step c a c' :=
    match a with
    | .decode ret => c.act (.decode ret) = some c'
    | .others => c.Meddled c'

end LibraLive

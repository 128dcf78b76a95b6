import LibraLive.Lts

/-!
# `UdpManager`

The thread that `playServer` starts: it receives datagrams into one packet, again and again, and hands the text of the packet to
`dispatchMessage`. `stopServer` may be called at any time, by any thread, and clears the flag before it closes the socket.
Decoding and JSON are code of the platform; what they do with the text is a parameter.
-/

namespace LibraLive

/-- A value of a JSON object, as far as comparing it with a string goes. -/
inductive JsonValue where
  | null
  | boolean (value : Bool)
  | number (text : String)
  | string (value : String)
  | array
  | object
  deriving DecidableEq, Repr

/-- `String(bytes)` and `JSONObject`, whose constructor may throw a `JSONException`. -/
structure Platform (Obj : Type) where
  decode : List UInt8 → String
  JSONObject : String → Option Obj
  opt : Obj → String → Option JsonValue
  optString : Obj → String → String

/-- `CmdType`. -/
inductive CmdType where
  | PLAY
  | STOP
  deriving DecidableEq, Repr

/-- `name` is the name of the entry: the parameter of the constructor is not a property. -/
def CmdType.name : CmdType → String
  | .PLAY => "PLAY"
  | .STOP => "STOP"

/-- The parameter that an entry is declared with. -/
def CmdType.parameter : CmdType → String
  | .PLAY => "play"
  | .STOP => "stop"

/-- A `JSONObject` that is written: an empty one, with another string in it, and as a text. -/
structure JsonWriter (Obj : Type) where
  new : Obj
  put : Obj → String → String → Obj
  toString : Obj → String

/-- A call of a `CmdListener`. -/
inductive CmdCall where
  | onPlay (url : String)
  | onStop
  deriving DecidableEq, Repr

/-- `ByteArray(1024 * 64)`. No datagram is longer. -/
abbrev bufSize : Nat := 1024 * 64

/-- `DatagramPacket`. -/
structure DatagramPacket where
  data : List UInt8
  length : Nat
  deriving DecidableEq, Repr

namespace DatagramPacket

/-- Before anything was received. -/
def new : DatagramPacket where
  data := List.replicate bufSize 0
  length := bufSize

/-- `receive` overwrites the beginning of the buffer. -/
def fill (packet : DatagramPacket) (datagram : List UInt8) : DatagramPacket where
  data := datagram ++ packet.data.drop datagram.length
  length := datagram.length

end DatagramPacket

/-- Where the thread is: before it reads the flag, in `receive`, before `dispatchMessage`, done, or ended by an exception. -/
inductive ReceivePlace where
  | readFlag
  | receive
  | dispatch
  | ended
  | thrown
  deriving DecidableEq, Repr

/-- `UdpManager` after `playServer`, with its socket and its thread. Besides, the number of the round the thread is in, and
what arrived, was received, was dispatched and was called, the last three with the rounds. -/
structure UdpManager where
  flag : Bool
  closed : Bool
  stopping : Nat
  listener : Bool
  waiting : List (List UInt8)
  packet : DatagramPacket
  place : ReceivePlace
  round : Nat
  arrived : List (List UInt8)
  received : List (Nat × List UInt8)
  dispatched : List (Nat × String)
  calls : List (Nat × CmdCall)
  deriving DecidableEq, Repr

/-- What happens next: a statement of the thread, `receive` returns or throws, a datagram arrives, one of the two statements of
`stopServer`, or the listener is set. -/
inductive UdpAct where
  | run
  | receive
  | ioException
  | arrive (datagram : List UInt8)
  | clearFlag
  | close
  | setListener (listener : Bool)
  deriving DecidableEq, Repr

namespace UdpManager

variable {Obj : Type}

/-- `playServer`. -/
def playServer : UdpManager where
  flag := true
  closed := false
  stopping := 0
  listener := false
  waiting := []
  packet := .new
  place := .readFlag
  round := 0
  arrived := []
  received := []
  dispatched := []
  calls := []

/-- `dispatchMessage`: nothing after an exception, else the call of the listener, if there is one to call. -/
def dispatchMessage (p : Platform Obj) (listener : Bool) (msg : String) : Option (Option CmdCall) :=
  match p.JSONObject msg with
  | none => none
  | some obj =>
    if p.opt obj "cmd" = some (.string CmdType.PLAY.name) then
      some (if listener then some (.onPlay (p.optString obj "url")) else none)
    else if p.opt obj "cmd" = some (.string CmdType.STOP.name) then
      some (if listener then some .onStop else none)
    else some none

/-- `sendMsg`. -/
def sendMsg (w : JsonWriter Obj) : String := w.toString (w.put (w.put w.new "cmd" "play") "url" "")

/-- `String(it.data, 0, it.length)`. -/
def dataStr (p : Platform Obj) (s : UdpManager) : String := p.decode (s.packet.data.take s.packet.length)

/-- The thread calls `dispatchMessage`. -/
def dispatch (p : Platform Obj) (s : UdpManager) : UdpManager :=
  let dataStr := s.dataStr p
  let dispatched := s.dispatched ++ [(s.round, dataStr)]
  match dispatchMessage p s.listener dataStr with
  | none => { s with
      dispatched
      place := .thrown }
  | some call => { s with
      dispatched
      place := .readFlag
      calls := s.calls ++ call.toList.map (s.round, ·) }

/-- A step of the thread, of the socket or of somebody else. -/
def step (p : Platform Obj) (s : UdpManager) : UdpAct → Option UdpManager
  | .run =>
    match s.place with
    | .readFlag =>
      if s.flag then
        some { s with
          place := .receive
          round := s.round + 1 }
      else some { s with place := .ended }
    | .dispatch => some (s.dispatch p)
    | _ => none
  | .receive =>
    match s.place, s.closed, s.waiting with
    | .receive, false, datagram :: waiting =>
      some { s with
        waiting := waiting
        packet := s.packet.fill datagram
        place := .dispatch
        received := s.received ++ [(s.round, datagram)] }
    | _, _, _ => none
  | .ioException =>
    match s.place with
    -- the exception is printed and the packet is what it was
    | .receive => some { s with place := .dispatch }
    | _ => none
  | .arrive datagram =>
    if s.closed = false ∧ datagram.length ≤ bufSize then
      some { s with
        waiting := s.waiting ++ [datagram]
        arrived := s.arrived ++ [datagram] }
    else none
  | .clearFlag => some { s with
      flag := false
      stopping := s.stopping + 1 }
  | .close =>
    if 0 < s.stopping then
      some { s with
        closed := true
        stopping := s.stopping - 1 }
    else none
  | .setListener listener => some { s with listener := listener }

/-- The runs of the manager. -/
def lts (p : Platform Obj) : Lts UdpManager UdpAct := Lts.ofFun playServer (step p)

end UdpManager

end LibraLive

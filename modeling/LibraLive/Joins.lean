import LibraLive.Lts
import LibraLive.Channel

/-!
# The threads of one `NiubiPlayer` and who joins them

The thread ids of a player and its channels, with everything that creates or joins a thread: `prepare`, whose thread calls the
listener, `start` and `stop`, each called any number of times and from any thread of the app, `init_start` and `init_stop`. What
a thread does in between is the subject of `Player`; here `init_prepare` makes the channels it likes, and a loop ends when a
step says so.
-/

namespace LibraLive

/-- A thread of a channel: its id is `pid_decode` or `pid_audio_decode`, `pid_render` or `pid_audio_play`. -/
inductive ChannelThread where
  | decode (kind : Kind)
  | output (kind : Kind)
  deriving DecidableEq, Repr

namespace ChannelThread

/-- The channel a thread belongs to. -/
def kind : ChannelThread → Kind
  | .decode kind | .output kind => kind

/-- The order in which `start` creates the threads and `init_start` joins them. -/
def next : ChannelThread → Option ChannelThread
  | .decode .video => some (.output .video)
  | .output .video => some (.decode .audio)
  | .decode .audio => some (.output .audio)
  | .output .audio => none

/-- How many threads come before in that order. -/
def rank : ChannelThread → Nat
  | .decode .video => 0
  | .output .video => 1
  | .decode .audio => 2
  | .output .audio => 3

end ChannelThread

/-- A thread that the player created: the one of `prepare`, and those that a call of `start` created, the calls numbered in
their order. -/
inductive ThreadId where
  | prepare
  | play (call : Nat)
  | channel (thread : ChannelThread) (call : Nat)
  deriving DecidableEq, Repr

/-- The two ids of a channel, `none` as initialized. -/
structure ChannelIds where
  pid_decode : Option ThreadId
  pid_output : Option ThreadId
  deriving DecidableEq, Repr

namespace ChannelIds

/-- In a channel as constructed. -/
def new : ChannelIds where
  pid_decode := none
  pid_output := none

/-- The id of a thread of the channel. -/
def pid (c : ChannelIds) : ChannelThread → Option ThreadId
  | .decode _ => c.pid_decode
  | .output _ => c.pid_output

/-- `pthread_create` writes the id. -/
def setPid (c : ChannelIds) (thread : ChannelThread) (id : ThreadId) : ChannelIds :=
  match thread with
  | .decode _ => { c with pid_decode := some id }
  | .output _ => { c with pid_output := some id }

end ChannelIds

/-- Where the prepare thread is: in `init_prepare`, in the listener that `onPrepare` calls, in a call of `start` of this
player. -/
inductive PreparePlace where
  | initPrepare
  | onPrepare
  | start (call : Nat)
  | ended
  deriving DecidableEq, Repr

/-- Where a call of `start` is: about to create a thread of a channel, about to create that of `init_start`, back. -/
inductive StartPlace where
  | create (thread : ChannelThread)
  | play
  | returned
  deriving DecidableEq, Repr

/-- Where the thread of `init_start` is that a call of `start` created. A `pthread_join` reads the id, then waits. -/
inductive PlayPlace where
  | notCreated
  | loop
  | join (thread : ChannelThread)
  | wait (thread : ChannelThread) (id : Option ThreadId)
  | ended
  deriving DecidableEq, Repr

/-- A call of `start`, with the thread it creates last. -/
structure StartCall where
  caller : StartPlace
  play : PlayPlace
  deriving DecidableEq, Repr

/-- The call at its beginning. -/
def StartCall.new : StartCall where
  caller := .create (.decode .video)
  play := .notCreated

/-- Where the thread of `init_stop` is that a call of `stop` created; it touches no thread after the channels. -/
inductive StopPlace where
  | joinPrepare
  | waitPrepare
  | joinPlay
  | waitPlay (id : Option ThreadId)
  | deleteVideo
  | deleteAudio
  | ended
  deriving DecidableEq, Repr

/-- The player: its ids, the calls so far, whether it used a channel that is not there, and the record of the run: threads
created, threads of channels that have returned, the ids `pthread_join` was called with, the threads it came back for, the
channels `init_stop` deleted. -/
structure Joins where
  pid_play : Option ThreadId
  audioChannel : Option ChannelIds
  videoChannel : Option ChannelIds
  prepare : PreparePlace
  starts : List StartCall
  stops : List StopPlace
  crashed : Bool
  created : List ThreadId
  ended : List ThreadId
  joins : List (Option ThreadId)
  joined : List ThreadId
  deleted : List Kind
  deriving DecidableEq, Repr

/-- A step: the prepare thread makes a channel, gives up, calls the listener, is in it (which finds the handle of this player
or not) or comes back from `start`; `start` or `stop` is called from elsewhere; one of the calls of `start`, one of the
threads of `init_start` or of `init_stop` goes on; a thread of a channel returns. -/
inductive JoinsAct where
  | makeChannel (kind : Kind)
  | fail
  | onPrepare
  | listener (own : Bool)
  | started
  | callStart
  | callStop
  | start (call : Nat)
  | play (call : Nat)
  | stop (call : Nat)
  | returns (thread : ChannelThread) (call : Nat)
  deriving DecidableEq, Repr

namespace Joins

/-- After the constructor and `prepare()`. -/
def new : Joins where
  pid_play := none
  audioChannel := none
  videoChannel := none
  prepare := .initPrepare
  starts := []
  stops := []
  crashed := false
  created := [.prepare]
  ended := []
  joins := []
  joined := []
  deleted := []

/-- The channel of a kind. -/
def channel (s : Joins) : Kind → Option ChannelIds
  | .audio => s.audioChannel
  | .video => s.videoChannel

/-- Replace the channel of a kind. -/
def setChannel (s : Joins) (kind : Kind) (c : Option ChannelIds) : Joins :=
  match kind with
  | .audio => { s with audioChannel := c }
  | .video => { s with videoChannel := c }

/-- The thread has returned. -/
def hasEnded (s : Joins) : ThreadId → Bool
  | .prepare => s.prepare = .ended
  | .play call => (s.starts[call]?).any (·.play = .ended)
  | .channel thread call => .channel thread call ∈ s.ended

/-- `pthread_join` is called with an id. -/
def callJoin (s : Joins) (id : Option ThreadId) : Joins := { s with joins := s.joins ++ [id] }

/-- `pthread_join` comes back: for an id that was never written at once, otherwise when the thread has returned. -/
def returnJoin (s : Joins) (id : Option ThreadId) : Option Joins :=
  if id.all s.hasEnded then some { s with joined := s.joined ++ id.toList } else none

/-- A call of `start` goes on. -/
def setCaller (s : Joins) (i : Nat) (caller : StartPlace) : Joins :=
  { s with starts := s.starts.modify i ({ · with caller := caller }) }

/-- A thread of `init_start` goes on. -/
def setPlay (s : Joins) (i : Nat) (play : PlayPlace) : Joins :=
  { s with starts := s.starts.modify i ({ · with play := play }) }

/-- A thread of `init_stop` goes on. -/
def setStop (s : Joins) (i : Nat) (stop : StopPlace) : Joins := { s with stops := s.stops.set i stop }

/-- `NiubiPlayer::start` and in it `VideoChannel::start` and `AudioChannel::start`, up to the next thread. A channel that is
not there is skipped; one that vanishes in its `start` is used all the same. -/
def start (s : Joins) (i : Nat) : StartPlace → Option Joins
  | .create thread =>
    match s.channel thread.kind with
    | none =>
      match thread with
      | .decode kind => some (s.setCaller i (((ChannelThread.output kind).next).elim .play .create))
      | .output _ => some { s with crashed := true }
    | some c => some { (s.setChannel thread.kind (some (c.setPid thread (.channel thread i)))).setCaller i
        (thread.next.elim .play .create) with created := s.created ++ [.channel thread i] }
  | .play => some { (s.setCaller i .returned).setPlay i .loop with
      pid_play := some (.play i)
      created := s.created ++ [.play i] }
  | .returned => none

/-- `init_start`, and in it `VideoChannel::stop` and `AudioChannel::stop`, which it calls on whatever is in the pointers. -/
def initStart (s : Joins) (i : Nat) : PlayPlace → Option Joins
  | .loop => some (s.setPlay i (.join (.decode .video)))
  | .join thread =>
    match s.channel thread.kind with
    | none => some { s with crashed := true }
    | some c => some ((s.callJoin (c.pid thread)).setPlay i (.wait thread (c.pid thread)))
  | .wait thread id => (s.returnJoin id).map (·.setPlay i (thread.next.elim .ended .join))
  | .notCreated | .ended => none

/-- `DELETE` of the channel of a kind. -/
def deleteChannel (s : Joins) (kind : Kind) : Joins :=
  match s.channel kind with
  | none => s
  | some _ => { s.setChannel kind none with deleted := s.deleted ++ [kind] }

/-- `init_stop`. -/
def initStop (s : Joins) (i : Nat) : StopPlace → Option Joins
  | .joinPrepare => some ((s.callJoin (some .prepare)).setStop i .waitPrepare)
  | .waitPrepare => (s.returnJoin (some .prepare)).map (·.setStop i .joinPlay)
  | .joinPlay => some ((s.callJoin s.pid_play).setStop i (.waitPlay s.pid_play))
  | .waitPlay id => (s.returnJoin id).map (·.setStop i .deleteVideo)
  | .deleteVideo => some ((s.deleteChannel .video).setStop i .deleteAudio)
  | .deleteAudio => some ((s.deleteChannel .audio).setStop i .ended)
  | .ended => none

/-- `start` is called. -/
def callStart (s : Joins) : Joins := { s with starts := s.starts ++ [.new] }

/-- A step of a player that has not crashed. -/
def act (s : Joins) : JoinsAct → Option Joins
  | .makeChannel kind => if s.prepare = .initPrepare then some (s.setChannel kind (some .new)) else none
  | .fail => if s.prepare = .initPrepare then some { s with prepare := .ended } else none
  | .onPrepare => if s.prepare = .initPrepare then some { s with prepare := .onPrepare } else none
  | .listener own =>
    if s.prepare = .onPrepare then
      some (if own then { s.callStart with prepare := .start s.starts.length } else { s with prepare := .ended })
    else none
  | .started =>
    match s.prepare with
    | .start call => if (s.starts[call]?).any (·.caller = .returned) then some { s with prepare := .ended } else none
    | _ => none
  | .callStart => some s.callStart
  | .callStop => some { s with stops := s.stops ++ [.joinPrepare] }
  | .start call => (s.starts[call]?).bind fun c => s.start call c.caller
  | .play call => (s.starts[call]?).bind fun c => s.initStart call c.play
  | .stop call => (s.stops[call]?).bind fun place => s.initStop call place
  | .returns thread call =>
    if .channel thread call ∈ s.created then some { s with ended := s.ended ++ [.channel thread call] } else none

/-- One step; nothing is followed after a crash. -/
def step (s : Joins) (a : JoinsAct) : Option Joins := if s.crashed then none else s.act a

/-- One player. -/
def lts : Lts Joins JoinsAct := Lts.ofFun new step

end Joins

end LibraLive

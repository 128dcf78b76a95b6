import LibraLive.Lts

/-!
# The player objects of an app and everything that has a pointer to them

One `LibraLivePlayer` with its `playerHandle`, the `NiubiPlayer` objects its `prepare` creates, the UI thread that calls
`prepare`, `start`, `stop` and `release`, and the threads the players create. What a thread does to the members of its player
is the subject of `Player`; here a thread is known by the player it works on, and a step says whether it uses that player, so
that objects that are created and deleted, threads that are created twice and handles that are overwritten can be followed.
-/

namespace LibraLive

/-- Where `init_stop` is. A `pthread_join` reads the member with the thread's id, then waits without touching the player; an
id that was never written names no thread. -/
inductive InitStopPc where
  | readPre
  | joinPre (thread : Nat)
  | readPlay
  | joinPlay (thread : Option Nat)
  | deleteVideo
  | deleteAudio
  | deleteHelper
  | closeFormat
  deriving DecidableEq, Repr

/-- Where a thread is that a player created: in `init_prepare`, in the listener that `onPrepare` of the player calls, inside
that in `native_start` of a handle, in `init_start` or in `init_stop`. -/
inductive AppThread where
  | initPrepare (player : Nat)
  | onPrepare (player : Nat)
  | start (player : Nat) (handle : Nat)
  | initStart (player : Nat)
  | initStop (player : Nat) (pc : InitStopPc)
  | ended
  deriving DecidableEq, Repr

/-- Where the UI thread is: outside of a call, or in one. `storing` and `zeroing` are the assignments to `playerHandle` after
`native_prepare` and after `native_release`. -/
inductive AppUi where
  | idle
  | storing (handle : Nat)
  | starting (handle : Nat)
  | stopping (handle : Nat)
  | releasing (handle : Nat)
  | zeroing
  deriving DecidableEq, Repr

/-- A `NiubiPlayer` object: the threads it created last, whether `native_stop` was called on it, whether it was deleted. -/
structure NativePlayer where
  pid_pre : Nat
  pid_play : Option Nat
  stopCalled : Bool
  deleted : Bool
  deriving DecidableEq, Repr

/-- The app: the handle the `LibraLivePlayer` stores (`none` for 0), the objects and the threads created so far, and the
object that was used after it was deleted, if that happened. A handle is the place of its object in `players`. -/
structure App where
  playerHandle : Option Nat
  players : List NativePlayer
  threads : List AppThread
  ui : AppUi
  fault : Option Nat
  deriving DecidableEq, Repr

/-- A `LibraLivePlayer` as constructed. -/
def App.new : App where
  playerHandle := none
  players := []
  threads := []
  ui := .idle
  fault := none

/-- A method of `LibraLivePlayer`. -/
inductive Call where
  | prepare
  | start
  | stop
  | release
  deriving DecidableEq, Repr

/-- How a step of a thread ends: in the same function, by its return, or in `onPrepare`, which `init_prepare` calls last. -/
inductive Outcome where
  | goesOn
  | returns
  | prepared
  deriving DecidableEq, Repr

/-- A step: the UI thread enters a method, goes on in the one it is in, or a thread takes a step. -/
inductive AppAct where
  | call (method : Call)
  | ui (outcome : Outcome)
  | thread (i : Nat) (outcome : Outcome)
  deriving DecidableEq, Repr

/-- The player that the next step of a thread reads or writes. -/
def AppThread.uses : AppThread → Option Nat
  | .initPrepare player | .initStart player => some player
  | .start _ handle => some handle
  | .initStop _ (.joinPre _) | .initStop _ (.joinPlay _) => none
  | .initStop player _ => some player
  | .onPrepare _ | .ended => none

/-- The player that the next step of the UI thread reads or writes. -/
def AppUi.uses : AppUi → Option Nat
  | .starting handle | .stopping handle | .releasing handle => some handle
  | .idle | .storing _ | .zeroing => none

namespace App

/-- `delete` was executed on the player. -/
def isDeleted (s : App) (handle : Nat) : Bool := (s.players[handle]?).any (·.deleted)

/-- The thread has returned. -/
def hasEnded (s : App) (thread : Nat) : Bool := s.threads[thread]? = some .ended

/-- A thread comes to another place. -/
def setThread (s : App) (i : Nat) (thread : AppThread) : App := { s with threads := s.threads.set i thread }

/-- `native_prepare`: a new object and its prepare thread; the handle is returned to the caller. -/
def nativePrepare (s : App) : App :=
  { s with
    players := s.players ++ [⟨s.threads.length, none, false, false⟩]
    threads := s.threads ++ [.initPrepare s.players.length]
    ui := .storing s.players.length }

/-- The last statement of `NiubiPlayer::start`: `pid_play` is overwritten. -/
def createPlay (s : App) (handle : Nat) : App :=
  { s with
    players := s.players.modify handle ({ · with pid_play := some s.threads.length })
    threads := s.threads ++ [.initStart handle] }

/-- The last statement of `NiubiPlayer::stop`. -/
def createStop (s : App) (handle : Nat) : App :=
  { s with
    players := s.players.modify handle ({ · with stopCalled := true })
    threads := s.threads ++ [.initStop handle .readPre] }

/-- `DELETE(player)` in `native_release`. -/
def delete (s : App) (handle : Nat) : App :=
  { s with players := s.players.modify handle ({ · with deleted := true }) }

/-- The UI thread enters a method of `LibraLivePlayer`, which reads `playerHandle`; handle 0 makes the native call return at
once. -/
def call (s : App) : Call → App
  | .prepare => s.nativePrepare
  | .start => { s with ui := s.playerHandle.elim .idle .starting }
  | .stop => { s with ui := s.playerHandle.elim .idle .stopping }
  | .release => { s with ui := s.playerHandle.elim .zeroing .releasing }

/-- The next step of the UI thread in the method it is in. -/
def uiStep (s : App) (outcome : Outcome) : Option App :=
  match s.ui with
  | .idle => none
  | .storing handle => some { s with playerHandle := some handle, ui := .idle }
  | .starting handle => some (if outcome = .goesOn then s else { s.createPlay handle with ui := .idle })
  | .stopping handle => some (if outcome = .goesOn then s else { s.createStop handle with ui := .idle })
  | .releasing handle => some { s.delete handle with ui := .zeroing }
  | .zeroing => some { s with playerHandle := none, ui := .idle }

/-- The next step of `init_stop`. -/
def initStop (s : App) (i player : Nat) (pc : InitStopPc) : Option App :=
  match pc with
  | .readPre => (s.players[player]?).map fun p => s.setThread i (.initStop player (.joinPre p.pid_pre))
  | .joinPre thread => if s.hasEnded thread then some (s.setThread i (.initStop player .readPlay)) else none
  | .readPlay => (s.players[player]?).map fun p => s.setThread i (.initStop player (.joinPlay p.pid_play))
  | .joinPlay thread => if thread.all s.hasEnded then some (s.setThread i (.initStop player .deleteVideo)) else none
  | .deleteVideo => some (s.setThread i (.initStop player .deleteAudio))
  | .deleteAudio => some (s.setThread i (.initStop player .deleteHelper))
  | .deleteHelper => some (s.setThread i (.initStop player .closeFormat))
  | .closeFormat => some (s.setThread i .ended)

/-- The next step of a thread. The listener calls `start` of the `LibraLivePlayer`, which reads `playerHandle`. -/
def threadStep (s : App) (i : Nat) (thread : AppThread) (outcome : Outcome) : Option App :=
  match thread with
  | .initPrepare player =>
    match outcome with
    | .goesOn => some s
    | .returns => some (s.setThread i .ended)
    | .prepared => some (s.setThread i (.onPrepare player))
  | .onPrepare player => some (s.setThread i (s.playerHandle.elim .ended (.start player)))
  | .start _ handle => some (if outcome = .goesOn then s else (s.createPlay handle).setThread i .ended)
  | .initStart _ => some (if outcome = .goesOn then s else s.setThread i .ended)
  | .initStop player pc => s.initStop i player pc
  | .ended => none

/-- The player a step reads or writes. -/
def usedBy (s : App) : AppAct → Option Nat
  | .call _ => none
  | .ui _ => s.ui.uses
  | .thread i _ => (s.threads[i]?).bind AppThread.uses

/-- What a step does to live objects. -/
def act (s : App) : AppAct → Option App
  | .call method => if s.ui = .idle then some (s.call method) else none
  | .ui outcome => s.uiStep outcome
  | .thread i outcome => (s.threads[i]?).bind fun thread => s.threadStep i thread outcome

/-- One step; a step that uses a deleted object is recorded, and nothing is followed after it. -/
def step (s : App) (a : AppAct) : Option App :=
  if s.fault.isSome then none
  else
    match s.usedBy a with
    | none => s.act a
    | some handle => if s.isDeleted handle then some { s with fault := some handle } else s.act a

/-- An app with one `LibraLivePlayer`. -/
def lts : Lts App AppAct := Lts.ofFun App.new step

end App

end LibraLive

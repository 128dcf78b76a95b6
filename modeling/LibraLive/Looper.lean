import Mathlib.Algebra.GroupWithZero.Nat
import LibraLive.Lts

/-!
# `Looper`

The message loop of `looper/Looper.cpp`: any number of calls of `postMessage` and `quit`, the worker in `loop` and the
destructor, interleaved between any two statements. A pointer to a `LooperMessage` is the number of the `new` that made it;
every call makes one message, so it is the number of the call as well.
-/

namespace LibraLive

/-- A `sem_t`, and whether `sem_destroy` was called for it. -/
structure Sem where
  count : Nat
  destroyed : Bool
  deriving DecidableEq, Repr

/-- `LooperMessage`. -/
structure LooperMessage where
  what : Int
  arg1 : Int
  arg2 : Int
  obj : Nat
  next : Option Nat
  quit : Bool
  deriving DecidableEq, Repr

/-- Where a call is: in `addMessage` up to its second `sem_post`, then, for `quit` only, at the statements after it. -/
inductive CallPlace where
  | waitProtect
  | readHead
  | flush (h : Option Nat)
  | walk (h : Nat)
  | linkHead
  | postProtect
  | postData
  | join
  | destroyData
  | destroyProtect
  | setRunning
  | returned
  deriving DecidableEq, Repr

/-- A call of `postMessage`, or one of `quit`. -/
structure LooperCall where
  quit : Bool
  flush : Bool
  place : CallPlace
  deriving DecidableEq, Repr

/-- Where the worker is in `loop`, with the message it holds. -/
inductive WorkerPlace where
  | waitData
  | waitProtect
  | readHead
  | takeNext (msg : Nat)
  | postEmpty
  | postTaken (msg : Nat)
  | dispatch (msg : Nat)
  | delete (msg : Nat)
  | returned
  deriving DecidableEq, Repr

/-- Where the destructor is: not called, in a call of `quit`, back. -/
inductive DestructorPlace where
  | notCalled
  | quitting (call : Nat)
  | returned
  deriving DecidableEq, Repr

/-- The fields of `Looper` with the messages ever allocated and the threads in it, whether a semaphore was used after
`sem_destroy`, and the record of the run: the messages in the order `addMessage` linked them; those removed from the list, by
the worker or by the `flush` of a call; those passed to `handleMessage`; the `delete`s; how often the worker was joined. -/
structure Looper where
  messages : List LooperMessage
  head : Option Nat
  headWriteProtect : Sem
  headDataAvailable : Sem
  running : Bool
  worker : WorkerPlace
  calls : List LooperCall
  destructor : DestructorPlace
  fault : Bool
  linked : List Nat
  removed : List (Nat × Option Nat)
  handled : List Nat
  deletes : List Nat
  joins : Nat
  deriving DecidableEq, Repr

/-- A step: `postMessage`, `quit` or the destructor is called, the destructor comes back, or one of the calls or the worker
executes its next statement. -/
inductive LooperAct where
  | postMessage (what arg1 arg2 : Int) (obj : Nat) (flush : Bool)
  | quit
  | destructor
  | call (i : Nat)
  | worker
  deriving DecidableEq, Repr

namespace Sem

/-- `sem_init`. -/
def new (value : Nat) : Sem where
  count := value
  destroyed := false

/-- `sem_wait` returns. -/
def wait (m : Sem) : Sem := { m with count := m.count - 1 }

/-- `sem_post`. -/
def post (m : Sem) : Sem := { m with count := m.count + 1 }

/-- `sem_destroy`. -/
def destroy (m : Sem) : Sem := { m with destroyed := true }

end Sem

namespace Looper

/-- After the constructor. -/
def new : Looper where
  messages := []
  head := none
  headWriteProtect := .new 1
  headDataAvailable := .new 0
  running := true
  worker := .waitData
  calls := []
  destructor := .notCalled
  fault := false
  linked := []
  removed := []
  handled := []
  deletes := []
  joins := 0

/-- `msg->next`. -/
def next (s : Looper) (msg : Nat) : Option Nat := (s.messages[msg]?).bind (·.next)

/-- `msg->quit`. -/
def isQuit (s : Looper) (msg : Nat) : Bool := (s.messages[msg]?).any (·.quit)

/-- A semaphore is used after `sem_destroy`. -/
def setFault (s : Looper) : Looper := { s with fault := true }

/-- The call goes on. -/
def setCall (s : Looper) (i : Nat) (place : CallPlace) : Looper :=
  { s with calls := s.calls.modify i ({ · with place := place }) }

/-- The worker goes on. -/
def setWorker (s : Looper) (place : WorkerPlace) : Looper := { s with worker := place }

/-- `sem_wait(&headWriteProtect)` returns and the thread goes on, or it is executed too late. -/
def waitProtect (s : Looper) (k : Looper → Looper) : Option Looper :=
  if s.headWriteProtect.destroyed then some s.setFault
  else if s.headWriteProtect.count = 0 then none
  else some (k { s with headWriteProtect := s.headWriteProtect.wait })

/-- `sem_post(&headWriteProtect)`, and the thread goes on. -/
def postProtect (s : Looper) (k : Looper → Looper) : Looper :=
  if s.headWriteProtect.destroyed then s.setFault else k { s with headWriteProtect := s.headWriteProtect.post }

/-- `sem_wait(&headDataAvailable)` returns and the thread goes on, or it is executed too late. -/
def waitData (s : Looper) (k : Looper → Looper) : Option Looper :=
  if s.headDataAvailable.destroyed then some s.setFault
  else if s.headDataAvailable.count = 0 then none
  else some (k { s with headDataAvailable := s.headDataAvailable.wait })

/-- `sem_post(&headDataAvailable)`, and the thread goes on. -/
def postData (s : Looper) (k : Looper → Looper) : Looper :=
  if s.headDataAvailable.destroyed then s.setFault else k { s with headDataAvailable := s.headDataAvailable.post }

/-- `delete msg` of a message taken off the list by the `flush` of a call. -/
def flushMessage (s : Looper) (i msg : Nat) : Looper :=
  { s with removed := s.removed ++ [(msg, some i)], deletes := s.deletes ++ [msg] }

/-- `head = msg`. -/
def linkHead (s : Looper) (msg : Nat) : Looper := { s with head := some msg, linked := s.linked ++ [msg] }

/-- `h->next = msg`. -/
def linkNext (s : Looper) (h msg : Nat) : Looper :=
  { s with messages := s.messages.modify h ({ · with next := some msg }), linked := s.linked ++ [msg] }

/-- The next statement of a call: `addMessage` with the message of the call, then the rest of `quit`. -/
def callStep (s : Looper) (i : Nat) (c : LooperCall) : Option Looper :=
  match c.place with
  | .waitProtect => s.waitProtect (·.setCall i .readHead)
  | .readHead =>
    if c.flush then some (s.setCall i (.flush s.head))
    else some (s.setCall i (s.head.elim .linkHead .walk))
  | .flush none => some (s.setCall i .linkHead)
  | .flush (some h) => some ((s.flushMessage i h).setCall i (.flush (s.next h)))
  | .walk h =>
    match s.next h with
    | some n => some (s.setCall i (.walk n))
    | none => some ((s.linkNext h i).setCall i .postProtect)
  | .linkHead => some ((s.linkHead i).setCall i .postProtect)
  | .postProtect => some (s.postProtect (·.setCall i .postData))
  | .postData => some (s.postData (·.setCall i (if c.quit then .join else .returned)))
  | .join => if s.worker = .returned then some ({ s with joins := s.joins + 1 }.setCall i .destroyData) else none
  | .destroyData => some ({ s with headDataAvailable := s.headDataAvailable.destroy }.setCall i .destroyProtect)
  | .destroyProtect => some ({ s with headWriteProtect := s.headWriteProtect.destroy }.setCall i .setRunning)
  | .setRunning => some ({ s with running := false }.setCall i .returned)
  | .returned => none

/-- The next statement of `loop`. -/
def workerStep (s : Looper) : WorkerPlace → Option Looper
  | .waitData => s.waitData (·.setWorker .waitProtect)
  | .waitProtect => s.waitProtect (·.setWorker .readHead)
  | .readHead => some (s.setWorker (s.head.elim .postEmpty .takeNext))
  | .takeNext msg =>
    some ({ s with head := s.next msg, removed := s.removed ++ [(msg, none)] }.setWorker (.postTaken msg))
  | .postEmpty => some (s.postProtect (·.setWorker .waitData))
  | .postTaken msg => some (s.postProtect (·.setWorker (.dispatch msg)))
  | .dispatch msg =>
    if s.isQuit msg then some ({ s with deletes := s.deletes ++ [msg] }.setWorker .returned)
    else some ({ s with handled := s.handled ++ [msg] }.setWorker (.delete msg))
  | .delete msg => some ({ s with deletes := s.deletes ++ [msg] }.setWorker .waitData)
  | .returned => none

/-- `postMessage` or `quit` is called: its message is allocated and `addMessage` entered. -/
def callAdd (s : Looper) (msg : LooperMessage) (flush : Bool) : Looper :=
  { s with messages := s.messages ++ [msg], calls := s.calls ++ [⟨msg.quit, flush, .waitProtect⟩] }

/-- `postMessage`; the shorter forms of it pass 0 and `NULL`. -/
def postMessage (s : Looper) (what arg1 arg2 : Int) (obj : Nat) (flush : Bool) : Looper :=
  s.callAdd ⟨what, arg1, arg2, obj, none, false⟩ flush

/-- `quit`, up to `addMessage`. -/
def quit (s : Looper) : Looper := s.callAdd ⟨0, 0, 0, 0, none, true⟩ false

/-- `~Looper`. -/
def destroy (s : Looper) : Option Looper :=
  match s.destructor with
  | .notCalled =>
    some (if s.running then { s.quit with destructor := .quitting s.calls.length } else { s with destructor := .returned })
  | .quitting i => if (s.calls[i]?).any (·.place = .returned) then some { s with destructor := .returned } else none
  | .returned => none

/-- A step; after the destructor has returned nothing is called. -/
def act (s : Looper) : LooperAct → Option Looper
  | .postMessage what arg1 arg2 obj flush =>
    if s.destructor = .returned then none else some (s.postMessage what arg1 arg2 obj flush)
  | .quit => if s.destructor = .returned then none else some s.quit
  | .destructor => s.destroy
  | .call i => (s.calls[i]?).bind (s.callStep i)
  | .worker => s.workerStep s.worker

/-- One step; nothing is followed after a semaphore was used that is no more. -/
def step (s : Looper) (a : LooperAct) : Option Looper := if s.fault then none else s.act a

/-- One looper. -/
def lts : Lts Looper LooperAct := Lts.ofFun new step

end Looper

end LibraLive

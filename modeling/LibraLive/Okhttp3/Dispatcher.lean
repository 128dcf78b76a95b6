import Mathlib.Data.List.Basic
import LibraLive.Lts
import LibraLive.Stacks

/-!
# `Dispatcher`

The scheduler of the asynchronous calls, `Dispatcher.java`, with the parts of `RealCall` that call it. Any number of threads
use it, and their steps may come in any order. A block that is `synchronized` is one step, but for the loop of
`promoteAndExecute`: there other threads may decrement an `AtomicInteger` between two of its rounds, as that needs no lock. An
`AsyncCall` is known by its number, and so is the `AtomicInteger` that was made with it. Callbacks and executors may throw.
-/

namespace LibraLive

namespace Okhttp3

/-- `AsyncCall`: the host of its request, whether it is for a web socket, and the `AtomicInteger` that it refers to. -/
structure AsyncCall where
  host : String
  forWebSocket : Bool
  callsPerHost : Nat
  deriving DecidableEq, Repr

/-- What a thread still has to do. -/
inductive Frame where
  /-- `promoteAndExecute()`, up to the end of its block; and for `finished` whether there is an idle callback. -/
  | promote (idleCallback : Bool)
  /-- The loop over `executableCalls`, and whether the idle callback is run after it. -/
  | execute (executableCalls : List Nat) (idle : Bool)
  /-- `AsyncCall.execute` or the failure of `executeOn`, up to `callsPerHost().decrementAndGet()`. -/
  | call (call : Nat)
  /-- `finished(runningAsyncCalls, call)`. -/
  | remove (call : Nat)
  /-- `executeOn`, while the executor runs the call in this thread. -/
  | ran (call : Nat)
  /-- The end of the `finally` of `executeOn`, when an exception goes on. -/
  | rethrow
  /-- `RealCall.execute` up to `finished(runningSyncCalls, call)`. -/
  | syncCall (call : Nat)
  deriving DecidableEq, Repr

/-- How `executor.execute` ends, or the idle callback. -/
inductive Outcome where
  /-- A thread was started for the call. -/
  | started
  /-- The call was rejected, and `onFailure` has returned. -/
  | rejected
  /-- The call was run by this thread, and has returned. -/
  | ran
  /-- The call was rejected and `onFailure` has thrown, or there was another exception. -/
  | threw
  /-- The call was run by this thread, and has thrown. -/
  | ranAndThrew
  deriving DecidableEq, Repr

/-- An exception is on its way. -/
def Outcome.throws : Outcome → Bool
  | .threw | .ranAndThrew => true
  | _ => false

/-- An exception leaves all that a thread is in, up to an `executeOn` whose `finally` calls `finished` before it goes on. -/
def unwind : List Frame → List Frame
  | [] => []
  | .ran call :: rest => .call call :: .rethrow :: rest
  | _ :: rest => unwind rest

/-- The loop of `promoteAndExecute`: the thread that is in it and has the lock, the calls it has not come to, and those it
took. -/
structure Scan where
  thread : Nat
  rest : List Nat
  executableCalls : List Nat
  deriving DecidableEq, Repr

/-- `Dispatcher`, the calls that were made, the `AtomicInteger`s and the threads. `finished` lists the asynchronous calls that
`finished` has removed, `idled` counts the runs of the idle callback. -/
structure Dispatcher where
  maxRequests : Int
  maxRequestsPerHost : Int
  idleCallback : Bool
  readyAsyncCalls : List Nat
  runningAsyncCalls : List Nat
  runningSyncCalls : List Nat
  calls : List AsyncCall
  counters : List Int
  syncCalls : Nat
  scan : Option Scan
  threads : List (List Frame)
  finished : List Nat
  idled : Nat
  /-- `AssertionError("Call wasn't in-flight!")` was thrown. -/
  fault : Bool
  deriving DecidableEq, Repr

namespace Dispatcher

/-- A new dispatcher. -/
def new : Dispatcher where
  maxRequests := 64
  maxRequestsPerHost := 5
  idleCallback := false
  readyAsyncCalls := []
  runningAsyncCalls := []
  runningSyncCalls := []
  calls := []
  counters := []
  syncCalls := 0
  scan := none
  threads := []
  finished := []
  idled := 0
  fault := false

/-- The `AtomicInteger` of a call. -/
def counterOf (s : Dispatcher) (call : Nat) : Nat := (s.calls[call]?.map (·.callsPerHost)).getD call

/-- `host()`. -/
def host (s : Dispatcher) (call : Nat) : Option String := s.calls[call]?.map (·.host)

/-- `findExistingCallWithHost`. -/
def findExistingCallWithHost (s : Dispatcher) (host : String) : Option Nat :=
  (s.runningAsyncCalls ++ s.readyAsyncCalls).find? fun existingCall => s.host existingCall = some host

/-- The block of `enqueue`, for a new `AsyncCall`. It is among the ready ones already when it looks for a call of its host; to
reuse its own `AtomicInteger` changes nothing. -/
def enqueue (s : Dispatcher) (host : String) (forWebSocket : Bool) : Dispatcher :=
  let call := s.calls.length
  let callsPerHost :=
    if forWebSocket then call
    else
      match s.findExistingCallWithHost host with
      | some existingCall => s.counterOf existingCall
      | none => call
  { s with
    readyAsyncCalls := s.readyAsyncCalls ++ [call]
    calls := s.calls ++ [⟨host, forWebSocket, callsPerHost⟩]
    counters := s.counters ++ [0]
    threads := s.threads ++ [[.promote false]] }

/-- `runningCallsCount`. -/
def runningCallsCount (s : Dispatcher) : Nat := s.runningAsyncCalls.length + s.runningSyncCalls.length

/-- The end of the block of `promoteAndExecute`. -/
def promoteEnd (s : Dispatcher) (scan : Scan) (idleCallback : Bool) (rest : List Frame) : Dispatcher :=
  let isRunning := decide (0 < s.runningCallsCount)
  { s with
    scan := none
    threads := s.threads.set scan.thread (.execute scan.executableCalls (!isRunning && idleCallback) :: rest) }

/-- A call of the loop is promoted. -/
def promote (s : Dispatcher) (scan : Scan) (asyncCall : Nat) (ready : List Nat) : Dispatcher :=
  { s with
    readyAsyncCalls := s.readyAsyncCalls.erase asyncCall
    runningAsyncCalls := s.runningAsyncCalls ++ [asyncCall]
    counters := s.counters.modify (s.counterOf asyncCall) (· + 1)
    scan := some ⟨scan.thread, ready, scan.executableCalls ++ [asyncCall]⟩ }

/-- A round of the loop of `promoteAndExecute`. -/
def promoteAndExecute (s : Dispatcher) (scan : Scan) (idleCallback : Bool) (rest : List Frame) : Dispatcher :=
  match scan.rest with
  | [] => s.promoteEnd scan idleCallback rest
  | asyncCall :: ready =>
    if s.maxRequests ≤ s.runningAsyncCalls.length then s.promoteEnd scan idleCallback rest
    else if s.maxRequestsPerHost ≤ s.counters.getD (s.counterOf asyncCall) 0 then
      { s with scan := some ⟨scan.thread, ready, scan.executableCalls⟩ }
    else s.promote scan asyncCall ready

/-- `executeOn`. After a rejection, or another exception of the executor, `finished` is called here; if the executor runs the
call at once it calls `finished` itself, and `executeOn` does so again should the call throw. -/
def executeOn (s : Dispatcher) (i : Nat) (outcome : Outcome) (call : Nat) (calls : List Nat) (idle : Bool) (rest : List Frame) :
    Dispatcher :=
  match outcome with
  | .started => { s with threads := s.threads.set i (.execute calls idle :: rest) ++ [[.call call]] }
  | .rejected => { s with threads := s.threads.set i (.call call :: .execute calls idle :: rest) }
  | .ran => { s with threads := s.threads.set i (.call call :: .ran call :: .execute calls idle :: rest) }
  | .threw => { s with threads := s.threads.set i (.call call :: .rethrow :: .execute calls idle :: rest) }
  | .ranAndThrew =>
    { s with threads := s.threads.set i (.call call :: .rethrow :: .ran call :: .execute calls idle :: rest) }

/-- `callsPerHost().decrementAndGet()`. -/
def decrement (s : Dispatcher) (i : Nat) (call : Nat) (rest : List Frame) : Dispatcher :=
  { s with
    counters := s.counters.modify (s.counterOf call) (· - 1)
    threads := s.threads.set i (.remove call :: rest) }

/-- The block of `finished`, for an asynchronous call. -/
def remove (s : Dispatcher) (i : Nat) (call : Nat) (rest : List Frame) : Dispatcher :=
  if call ∈ s.runningAsyncCalls then
    { s with
      runningAsyncCalls := s.runningAsyncCalls.erase call
      finished := s.finished ++ [call]
      threads := s.threads.set i (.promote s.idleCallback :: rest) }
  else { s with fault := true, threads := s.threads.set i (unwind rest) }

/-- The block of `finished`, for a synchronous call. -/
def removeSync (s : Dispatcher) (i : Nat) (call : Nat) (rest : List Frame) : Dispatcher :=
  if call ∈ s.runningSyncCalls then
    { s with
      runningSyncCalls := s.runningSyncCalls.erase call
      threads := s.threads.set i (.promote s.idleCallback :: rest) }
  else { s with fault := true, threads := s.threads.set i (unwind rest) }

/-- The next step of thread `i`, and how the executor or the idle callback ends if the step calls it. It has to wait for the
lock, but for a decrement, for a round of the loop it is in, for the idle callback and for the end of `executeOn`. -/
def stepThread (s : Dispatcher) (i : Nat) (outcome : Outcome) : Option Dispatcher :=
  match s.threads[i]?, s.scan with
  | none, _ | some [], _ => none
  | some (.call call :: rest), _ => some (s.decrement i call rest)
  | some (.execute [] idle :: rest), _ =>
    some { s with
      idled := if idle then s.idled + 1 else s.idled
      threads := s.threads.set i (if idle && outcome.throws then unwind rest else rest) }
  | some (.ran _ :: rest), _ => some { s with threads := s.threads.set i rest }
  | some (.rethrow :: rest), _ => some { s with threads := s.threads.set i (unwind rest) }
  | some (.promote idleCallback :: rest), some scan =>
    if scan.thread = i then some (s.promoteAndExecute scan idleCallback rest) else none
  | some (.promote _ :: _), none => some { s with scan := some ⟨i, s.readyAsyncCalls, []⟩ }
  | some (.execute (call :: calls) idle :: rest), none => some (s.executeOn i outcome call calls idle rest)
  | some (.remove call :: rest), none => some (s.remove i call rest)
  | some (.syncCall call :: rest), none => some (s.removeSync i call rest)
  | some (_ :: _), some _ => none

/-- What is done to a dispatcher: a thread calls a method, or goes on. -/
inductive Act where
  | enqueue (host : String) (forWebSocket : Bool)
  | execute
  | setMaxRequests (maxRequests : Int)
  | setMaxRequestsPerHost (maxRequestsPerHost : Int)
  | setIdleCallback (idleCallback : Bool)
  | thread (i : Nat) (outcome : Outcome)
  deriving DecidableEq, Repr

/-- A thread calls a method, which is its block here and what comes after it a new thread. The two setters throw for a number
below one. -/
def callMethod (s : Dispatcher) : Act → Option Dispatcher
  | .enqueue host forWebSocket => some (s.enqueue host forWebSocket)
  | .execute => some { s with
      runningSyncCalls := s.runningSyncCalls ++ [s.syncCalls]
      syncCalls := s.syncCalls + 1
      threads := s.threads ++ [[.syncCall s.syncCalls]] }
  | .setMaxRequests n =>
    if n < 1 then none else some { s with maxRequests := n, threads := s.threads ++ [[.promote false]] }
  | .setMaxRequestsPerHost n =>
    if n < 1 then none else some { s with maxRequestsPerHost := n, threads := s.threads ++ [[.promote false]] }
  | .setIdleCallback idleCallback => some { s with idleCallback := idleCallback }
  | .thread _ _ => none

/-- A step. A method waits for the lock. -/
def step (s : Dispatcher) : Act → Option Dispatcher
  | .thread i outcome => s.stepThread i outcome
  | a => if s.scan.isSome then none else s.callMethod a

/-- The dispatcher under any number of threads. -/
def lts : Lts Dispatcher Act := Lts.ofFun new step

end Dispatcher

end Okhttp3

end LibraLive

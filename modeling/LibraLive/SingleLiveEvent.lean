import LibraLive.Dispatcher
import LibraLive.Lts

/-!
# `SingleLiveEvent`

A `LiveData` that hands every value to one observer only: it registers observers of its own, which pass a value on if
nobody else did since it was set.
-/

namespace LibraLive

open LiveData

/-- The observer that `observe` makes for another one; each call makes a new one. -/
structure SingleObserver (K : Type*) where
  serial : Nat
  observer : K
  deriving DecidableEq, Repr

/-- What happens with the values: one is set, or an observer is called with one. -/
inductive LiveEvent (T K : Type*) where
  | set (value : T)
  | changed (observer : K) (value : T)
  deriving DecidableEq, Repr

/-- The fields of the class, and what is counted here: the observers that it made, its warnings in the log, and the events
in order. -/
structure SingleFields (T K : Type*) where
  pending : Bool
  observers : Nat
  warnings : Nat
  events : List (LiveEvent T K)
  deriving DecidableEq, Repr

/-- The class. A value may be `null`. -/
abbrev SingleLiveEvent (T K O : Type*) := Dispatcher (Option T) (SingleObserver K) O (SingleFields (Option T) K)

/-- What is done with it on the main thread: it is set or called, an observer is registered, an owner comes to a state, an
observer is told so, or the observer that was called returns. -/
inductive SingleOp (T K O : Type*) where
  | setValue (value : Option T)
  | call
  | observe (owner : O) (observer : K)
  | moveTo (owner : O) (state : State)
  | onStateChanged (observer : SingleObserver K)
  | returned
  deriving DecidableEq, Repr

namespace SingleLiveEvent

variable {T K O : Type*}

def start : SingleLiveEvent T K O :=
  Dispatcher.start
    { pending := false
      observers := 0
      warnings := 0
      events := [] }

/-- The observer that `observe` makes: `if (pending.compareAndSet(true, false)) observer.onChanged(t)`. -/
def onChanged (s : SingleFields (Option T) K) (call : Notification (Option T) (SingleObserver K)) :
    SingleFields (Option T) K × Bool :=
  if s.pending then
    ({ s with
        pending := false
        events := s.events ++ [.changed call.observer.observer call.value] }, true)
  else (s, false)

variable [DecidableEq K]

/-- `setValue`. -/
def setValue (s : SingleLiveEvent T K O) (value : Option T) : SingleLiveEvent T K O :=
  Dispatcher.setValue onChanged
    { s with
      client := { s.client with
        pending := true
        events := s.client.events ++ [.set value] } } value

/-- `call`. -/
def call (s : SingleLiveEvent T K O) : SingleLiveEvent T K O := setValue s none

/-- `observe`; a warning does not keep it from registering. -/
def observe [DecidableEq O] (s : SingleLiveEvent T K O) (owner : O) (observer : K) : Option (SingleLiveEvent T K O) :=
  let hasActiveObservers := s.liveData.mObservers.any (·.mActive)
  Dispatcher.observe
    { s with
      client := { s.client with
        observers := s.client.observers + 1
        warnings := if hasActiveObservers then s.client.warnings + 1 else s.client.warnings } }
    owner ⟨s.client.observers, observer⟩

variable [DecidableEq O]

/-- One of the things that are done. -/
def step (s : SingleLiveEvent T K O) : SingleOp T K O → Option (SingleLiveEvent T K O)
  | .setValue value => some (setValue s value)
  | .call => some (call s)
  | .observe owner observer => observe s owner observer
  | .moveTo owner state => s.moveTo owner state
  | .onStateChanged observer => s.onStateChanged onChanged observer
  | .returned => s.returned onChanged

variable (T K O) in
/-- The runs. -/
def lts : Lts (SingleLiveEvent T K O) (SingleOp T K O) := Lts.ofFun start step

end SingleLiveEvent

/-- `SharedViewModel.state`, which has a value from the beginning. -/
def SharedViewModel.state {K O : Type*} [DecidableEq K] : SingleLiveEvent Int32 K O :=
  SingleLiveEvent.setValue SingleLiveEvent.start (some 0)

end LibraLive

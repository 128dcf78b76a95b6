import LibraLive.LiveData
import LibraLive.Lts

/-!
# `BaseLiveDataKT`

A `LiveData` that a new observer should not get an old value of: after `observe` of the super class it sets, by
reflection, the version that the observer has seen. It is put beside a plain `LiveData`, and both are used in the same
way.
-/

namespace LibraLive

open LiveData

namespace BaseLiveDataKT

variable {T K O : Type*} [DecidableEq K] [DecidableEq O]

/-- The wrapper of the observer is looked up, and has seen the present version from now on; `NullPointerException` if
there is none. -/
def check (d : LiveData T K O) (observer : K) : Option (LiveData T K O) :=
  if (d.find observer).isNone then none
  else some { d with
    mObservers := d.mObservers.map fun w => if w.mObserver = observer then { w with mLastVersion := d.mVersion } else w }

/-- `observe`; there is no result after an exception. -/
def observe (isStep : Bool) (d : LiveData T K O) (lifecycle : O → State) (owner : O) (observer : K) :
    Option (LiveData T K O × List (Notification T K)) :=
  (d.observe lifecycle owner observer).bind fun (d, calls) =>
    if isStep then (check d observer).map fun d => (d, calls) else some (d, calls)

end BaseLiveDataKT

/-! ## How it is used -/

/-- What an app does with the value, and what happens to the owners. -/
inductive Use (T K O : Type*) where
  | setValue (value : T)
  | observe (owner : O) (observer : K)
  | stateChanged (owner : O) (state : State)
  deriving DecidableEq, Repr

/-- What an observer could note: it was registered, when the value had this version, or it was called. -/
inductive Entry (T K : Type*) where
  | registered (observer : K) (version : Int)
  | called (call : Notification T K)
  deriving DecidableEq, Repr

/-- The owners, the value, and everything that was noted. -/
structure Scene (T K O : Type*) where
  lifecycle : O → State
  liveData : LiveData T K O
  log : List (Entry T K)

namespace Scene

variable {T K O : Type*} [DecidableEq K] [DecidableEq O]

/-- No value yet, no observers. -/
def start : Scene T K O where
  lifecycle _ := .INITIALIZED
  liveData := LiveData.empty
  log := []

/-- The observer is registered now and was not before. -/
def noteRegistered (s : Scene T K O) (d : LiveData T K O) (observer : K) : List (Entry T K) :=
  if (s.liveData.find observer).isNone ∧ (d.find observer).isSome then [.registered observer s.liveData.mVersion] else []

/-- A step with a value that has this `observe`. A destroyed owner stays destroyed, one that is not may come to any state. -/
def step (observe : LiveData T K O → (O → State) → O → K → Option (LiveData T K O × List (Notification T K)))
    (s : Scene T K O) : Use T K O → Option (Scene T K O)
  | .setValue value =>
    let (d, calls) := s.liveData.setValue s.lifecycle value
    some { s with
      liveData := d
      log := s.log ++ calls.map .called }
  | .observe owner observer =>
    (observe s.liveData s.lifecycle owner observer).map fun (d, calls) =>
      { s with
        liveData := d
        log := s.log ++ (s.noteRegistered d observer ++ calls.map .called) }
  | .stateChanged owner state =>
    if s.lifecycle owner = .DESTROYED then none
    else
      let lifecycle := Function.update s.lifecycle owner state
      let (d, calls) := s.liveData.onStateChanged lifecycle owner
      some
        { lifecycle
          liveData := d
          log := s.log ++ calls.map .called }

end Scene

/-- A plain `LiveData` and a `BaseLiveDataKT`. -/
structure Scenes (T K O : Type*) where
  plain : Scene T K O
  kt : Scene T K O

namespace Scenes

variable {T K O : Type*} [DecidableEq K] [DecidableEq O]

def start : Scenes T K O := ⟨.start, .start⟩

/-- Both are used in the same way. -/
def step (s : Scenes T K O) (use : Use T K O) : Option (Scenes T K O) :=
  (s.plain.step LiveData.observe use).bind fun plain =>
    (s.kt.step (BaseLiveDataKT.observe true) use).map fun kt => ⟨plain, kt⟩

variable (T K O) in
/-- The runs. -/
def lts : Lts (Scenes T K O) (Use T K O) := Lts.ofFun start step

end Scenes

end LibraLive

import LibraLive.LiveData
import LibraLive.Lts

/-!
# `HomeFragment` and `MsgFragment`

Two lists that an observer fills. The view of a fragment is made and destroyed any number of times; every view is an owner
of its own with one observer and a new adapter, and the value outlives it in the view model.
-/

namespace LibraLive

open LiveData

/-- A value that the view of a fragment observes. The views are counted, and all but the last one are destroyed. -/
structure Viewed (T : Type*) where
  data : LiveData T Nat Nat
  view : Nat
  state : State
  deriving DecidableEq, Repr

namespace Viewed

variable {T : Type*}

/-- Before the first view. -/
def ofData (data : LiveData T Nat Nat) : Viewed T where
  data
  view := 0
  state := .DESTROYED

def lifecycle (s : Viewed T) (owner : Nat) : State := if owner = s.view then s.state else .DESTROYED

def setValue (s : Viewed T) (value : T) : Viewed T × List (Notification T Nat) :=
  let (data, calls) := s.data.setValue s.lifecycle value
  ({ s with data }, calls)

/-- A view is made, which is not started yet, and its observer is registered. -/
def onViewCreated (s : Viewed T) : Option (Viewed T × List (Notification T Nat)) :=
  if s.state ≠ .DESTROYED then none
  else
    let s := { s with
      view := s.view + 1
      state := .INITIALIZED }
    (s.data.observe s.lifecycle s.view s.view).map fun (data, calls) => ({ s with data }, calls)

/-- The view comes to a state. -/
def moveTo (s : Viewed T) (state : State) : Option (Viewed T × List (Notification T Nat)) :=
  if s.state = .DESTROYED then none
  else
    let s := { s with state }
    let (data, calls) := s.data.onStateChanged s.lifecycle s.view
    some ({ s with data }, calls)

end Viewed

/-- The adapter of the view: its items, and what these should have been after the latest delivery. -/
structure ListAdapter (Item : Type*) where
  items : List Item
  loaded : List Item
  deriving DecidableEq, Repr

namespace ListAdapter

variable {Item : Type*}

/-- A new adapter. -/
def new : ListAdapter Item where
  items := []
  loaded := []

/-- A delivery, which adds items to the ones that there are. -/
def addAll (adapter : ListAdapter Item) (items loaded : List Item) : ListAdapter Item where
  items := adapter.items ++ items
  loaded

end ListAdapter

/-! ## `HomeFragment` -/

/-- The fragment with its `HomeViewModel`, and the pages of the responses. -/
structure HomeFragment (HomeBean : Type*) where
  mHomeBeans : List HomeBean
  mDataBeans : Viewed (List HomeBean)
  adapter : ListAdapter HomeBean
  pages : List (List HomeBean)
  deriving DecidableEq, Repr

/-- What happens to it: a successful response arrives, a new fragment gets the view model that there is, a view is made,
or it comes to a state. -/
inductive HomeAct (HomeBean : Type*) where
  | getArticleJson (datas : List HomeBean)
  | onCreate
  | onViewCreated
  | moveTo (state : State)
  deriving DecidableEq, Repr

namespace HomeFragment

variable {HomeBean : Type*}

def start : HomeFragment HomeBean where
  mHomeBeans := []
  mDataBeans := .ofData LiveData.empty
  adapter := .new
  pages := []

/-- The observer that `onViewCreated` registers. -/
def observer (s : HomeFragment HomeBean) (call : Notification (List HomeBean) Nat) : HomeFragment HomeBean :=
  { s with adapter := s.adapter.addAll call.value s.pages.flatten }

/-- `onCreate` asks for one more page only. The page of a response is put after the ones before it, and the response is
then made to have them all. -/
def step (s : HomeFragment HomeBean) : HomeAct HomeBean → Option (HomeFragment HomeBean)
  | .getArticleJson datas =>
    let mHomeBeans := s.mHomeBeans ++ datas
    let (mDataBeans, calls) := s.mDataBeans.setValue mHomeBeans
    some (calls.foldl observer { s with
      mHomeBeans
      mDataBeans
      pages := s.pages ++ [datas] })
  | .onCreate => if s.mDataBeans.state = .DESTROYED then some s else none
  | .onViewCreated => s.mDataBeans.onViewCreated.map fun (mDataBeans, calls) =>
    calls.foldl observer { s with
      mDataBeans
      adapter := .new }
  | .moveTo state => (s.mDataBeans.moveTo state).map fun (mDataBeans, calls) => calls.foldl observer { s with mDataBeans }

variable (HomeBean) in
def lts : Lts (HomeFragment HomeBean) (HomeAct HomeBean) := Lts.ofFun start step

end HomeFragment

/-! ## `MsgFragment` -/

structure Video (Uri : Type*) where
  id : Int64
  name : String
  uri : Uri
  deriving DecidableEq, Repr

/-- The fragment with the `state` of its view model, a number or `null`, what was posted and not set yet, and the videos
it has found. -/
structure MsgFragment (Uri : Type*) where
  state : Viewed (Option Int32)
  mPendingData : Option (Option Int32)
  videos : List (Video Uri)
  adapter : ListAdapter (Video Uri)
  deriving DecidableEq, Repr

/-- What happens to it: a new fragment gets the view model that there is and the rows of a cursor, unless it gets no
cursor, a view is made or comes to a state, or the posted value is set. -/
inductive MsgAct where
  | onCreate (cursor : Option (List (Int64 × String)))
  | onViewCreated
  | moveTo (state : State)
  | posted
  deriving DecidableEq, Repr

namespace MsgFragment

variable {Uri : Type*} (withAppendedId : Int64 → Uri)

def start : MsgFragment Uri where
  state := .ofData (.ofValue (some 0))
  mPendingData := none
  videos := []
  adapter := .new

/-- A video for every row of the cursor. -/
def addVideos (videos : List (Video Uri)) : List (Int64 × String) → List (Video Uri)
  | [] => videos
  | (id, name) :: rows => addVideos (videos ++ [⟨id, name, withAppendedId id⟩]) rows

/-- A posted value replaces one that is still to be set. -/
def postValue (s : MsgFragment Uri) (value : Option Int32) : MsgFragment Uri :=
  { s with mPendingData := some value }

def loadVideoData (s : MsgFragment Uri) : Option (List (Int64 × String)) → MsgFragment Uri
  | none => s
  | some rows => { s with videos := addVideos withAppendedId s.videos rows }.postValue (s.state.data.mData.join.map (· + 1))

/-- The observer that `onViewCreated` registers. -/
def observer (s : MsgFragment Uri) (_call : Notification (Option Int32) Nat) : MsgFragment Uri :=
  { s with adapter := s.adapter.addAll s.videos s.videos }

def step (s : MsgFragment Uri) : MsgAct → Option (MsgFragment Uri)
  | .onCreate cursor =>
    if s.state.state = .DESTROYED then some ({ s with videos := [] }.loadVideoData withAppendedId cursor) else none
  | .onViewCreated => s.state.onViewCreated.map fun (state, calls) =>
    calls.foldl observer { s with
      state
      adapter := .new }
  | .moveTo state => (s.state.moveTo state).map fun (state, calls) => calls.foldl observer { s with state }
  | .posted => s.mPendingData.map fun value =>
    let (state, calls) := s.state.setValue value
    calls.foldl observer { s with
      state
      mPendingData := none }

def lts : Lts (MsgFragment Uri) MsgAct := Lts.ofFun start (step withAppendedId)

end MsgFragment

end LibraLive

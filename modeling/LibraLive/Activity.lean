import LibraLive.App

/-!
# `PlayerActivity` and its life cycle

The callbacks Android calls on the UI thread, and what `PlayerActivity` does in them with its one `LibraLivePlayer`:
`prepare` in `onResume`, `stop` in `onStop`, `release` in `onDestroy`. Each callback runs to its end before the next one; the
record says what became of the handles.
-/

namespace LibraLive

/-- The callbacks of the life cycle that `PlayerActivity` overrides, and `onPause`. -/
inductive ActivityCallback where
  | onCreate
  | onResume
  | onPause
  | onStop
  | onDestroy
  deriving DecidableEq, Repr

/-- Between two callbacks: not yet created, created (or started) and not resumed, in the foreground, paused, stopped, gone. -/
inductive Stage where
  | initial
  | created
  | resumed
  | paused
  | stopped
  | destroyed
  deriving DecidableEq, Repr

/-- The callback Android may call next, and where it leads. A paused activity comes back or is stopped; a stopped one comes
back to the foreground, is stopped again without having been there, or is destroyed; an activity that finishes itself while
it is created is destroyed at once. -/
def Stage.next : Stage → ActivityCallback → Option Stage
  | .initial, .onCreate => some .created
  | .created, .onResume | .paused, .onResume | .stopped, .onResume => some .resumed
  | .resumed, .onPause => some .paused
  | .created, .onStop | .paused, .onStop | .stopped, .onStop => some .stopped
  | .created, .onDestroy | .stopped, .onDestroy => some .destroyed
  | _, _ => none

/-- The sequences of callbacks Android allows, with the stage they lead to. -/
inductive Lifecycle : List ActivityCallback → Stage → Prop where
  | nil : Lifecycle [] .initial
  | snoc {callbacks : List ActivityCallback} {stage stage' : Stage} {callback : ActivityCallback} :
      Lifecycle callbacks stage → stage.next callback = some stage' → Lifecycle (callbacks ++ [callback]) stage'

/-- What becomes of a handle: `native_prepare` returned it, `native_stop` and `native_release` were called with it,
`playerHandle` was assigned another one while it held it; or `onDestroy` has returned. -/
inductive NativeEvent where
  | returned (handle : Nat)
  | stopped (handle : Nat)
  | released (handle : Nat)
  | overwritten (handle : Nat)
  | destroyed
  deriving DecidableEq, Repr

/-- The activity: its app, and what became of the handles so far. -/
structure Activity where
  app : App
  events : List NativeEvent

/-- The UI thread goes on in the method it is in, at most `n` steps. -/
def App.finish : Nat → App → App
  | 0, s => s
  | n + 1, s =>
    match s.uiStep .returns with
    | none => s
    | some s' => s'.finish n

/-- The UI thread runs a method of `LibraLivePlayer`; none takes more than two steps after the call. -/
def App.perform (s : App) (method : Call) : App := (s.call method).finish 2

namespace Activity

/-- Before `onCreate`. -/
def new : Activity where
  app := App.new
  events := []

/-- `player.prepare()`. -/
def prepare (a : Activity) : Activity where
  app := a.app.perform .prepare
  events := a.events ++ [.returned a.app.players.length] ++ a.app.playerHandle.toList.map .overwritten

/-- `player.stop()`. -/
def stop (a : Activity) : Activity where
  app := a.app.perform .stop
  events := a.events ++ a.app.playerHandle.toList.map .stopped

/-- `player.release()`. -/
def release (a : Activity) : Activity where
  app := a.app.perform .release
  events := a.events ++ a.app.playerHandle.toList.map .released

/-- A callback of the activity. -/
def callback (a : Activity) : ActivityCallback → Activity
  | .onCreate => { a with app := App.new }
  | .onResume => a.prepare
  | .onPause => a
  | .onStop => a.stop
  | .onDestroy => { a.release with events := a.release.events ++ [.destroyed] }

/-- The callbacks, one after the other. -/
def run (callbacks : List ActivityCallback) : Activity := callbacks.foldl callback new

@[simp] theorem run_nil : run [] = new := rfl

@[simp] theorem run_append (callbacks : List ActivityCallback) (last : ActivityCallback) :
    run (callbacks ++ [last]) = (run callbacks).callback last := by
  simp [run]

end Activity

/-! ## What a method of `LibraLivePlayer` leads to -/

namespace App

variable {s : App}

/-- `prepare` stores the handle of the new player. -/
theorem perform_prepare (s : App) : s.perform .prepare =
    { s.nativePrepare with playerHandle := some s.players.length, ui := .idle } := rfl

/-- `stop` with a handle creates a stop thread. -/
theorem perform_stop_some {handle : Nat} (h : s.playerHandle = some handle) :
    s.perform .stop = { s.createStop handle with ui := .idle } := by
  simp [perform, call, h, finish, uiStep, createStop]

/-- `stop` with handle 0 does nothing. -/
theorem perform_stop_none (h : s.playerHandle = none) : s.perform .stop = { s with ui := .idle } := by
  simp [perform, call, h, finish, uiStep]

/-- `release` with a handle deletes the player. -/
theorem perform_release_some {handle : Nat} (h : s.playerHandle = some handle) :
    s.perform .release = { s.delete handle with playerHandle := none, ui := .idle } := by
  simp [perform, call, h, finish, uiStep, delete]

/-- `release` with handle 0 deletes nothing. -/
theorem perform_release_none (h : s.playerHandle = none) : s.perform .release = { s with ui := .idle } := by
  simp [perform, call, h, finish, uiStep]

end App

end LibraLive

import LibraLive.Fifo
import LibraLive.Ffmpeg

/-!
# `message_queue`

The template of `common/message_queue.h`. Every operation but `size` and `empty` runs under the queue's mutex, so a
critical section is one function here; `pop` has two kinds of them, since `pthread_cond_wait` gives the mutex back in the
middle. An operation that frees values returns them: they are what it passed to `releaseCallBack`.
-/

namespace LibraLive

/-- `message_queue<T>`: the `std::queue` (with its history) and whether it accepts values. -/
structure MessageQueue (α : Type*) where
  queue : Fifo α
  state : Bool

/-- Where a thread is inside `pop`: about to lock, in `pthread_cond_wait`, out of it and about to lock again, or back in
the caller with the return value. -/
inductive PopPc where
  | call
  | asleep
  | woken
  | returned (ret : Bool)
  deriving DecidableEq, Repr

/-- `pthread_cond_signal` as one waiter sees it: a thread in `pthread_cond_wait` is woken. -/
def PopPc.signalled : PopPc → PopPc
  | .asleep => .woken
  | pc => pc

/-- What `setSyncHandle` installs: a function on the queue, and the values it freed. -/
abbrev SyncHandle (α : Type*) := Fifo α → Fifo α × List α

namespace MessageQueue

variable {α : Type*}

/-- The queue as constructed: empty, `state{false}`. -/
def new : MessageQueue α := ⟨Fifo.empty, false⟩

/-- `push`: the value joins the queue, or is freed when the queue is not working. -/
def push (q : MessageQueue α) (value : α) : MessageQueue α × List α :=
  if q.state then ({ q with queue := q.queue.push value }, []) else (q, [value])

/-- One critical section of `pop`: the loop test, then either the wait or the return. The last component is the value
assigned to the out parameter, if it is assigned. -/
def popSection (q : MessageQueue α) : PopPc × MessageQueue α × Option α :=
  if q.state && q.queue.items.isEmpty then (.asleep, q, none)
  else
    match q.queue.items with
    | [] => (.returned false, q, none)
    | value :: _ => (.returned true, { q with queue := q.queue.pop }, some value)

/-- `size()`, read without the mutex. -/
def size (q : MessageQueue α) : Nat := q.queue.items.length

/-- `empty()`, read without the mutex. -/
def empty (q : MessageQueue α) : Bool := q.queue.items.isEmpty

/-- `clear`: every value is freed, front first. -/
def clear (q : MessageQueue α) : MessageQueue α × List α := ({ q with queue := q.queue.clear }, q.queue.items)

/-- `gotoWork`. -/
def gotoWork (q : MessageQueue α) : MessageQueue α := { q with state := true }

/-- `backWork`. -/
def backWork (q : MessageQueue α) : MessageQueue α := { q with state := false }

/-- `sync`: run the installed handle on the queue. -/
def sync (handle : SyncHandle α) (q : MessageQueue α) : MessageQueue α × List α :=
  ({ q with queue := (handle q.queue).1 }, (handle q.queue).2)

end MessageQueue

/-- `dropAvFrame`: free the frame at the front and take it off. -/
def dropAvFrame : SyncHandle AVFrame := fun q =>
  match q.items with
  | [] => (q, [])
  | frame :: _ => (q.pop, [frame])

/-- `AV_PKT_FLAG_KEY`. -/
def AV_PKT_FLAG_KEY : Int := 1

/-- `dropAvPacket`: take the packet at the front off; free it unless its flags word is exactly `AV_PKT_FLAG_KEY`. -/
def dropAvPacket : SyncHandle AVPacket := fun q =>
  match q.items with
  | [] => (q, [])
  | packet :: _ => (q.pop, if packet.flags ≠ AV_PKT_FLAG_KEY then [packet] else [])

/-! ## What each operation does to the queue -/

namespace MessageQueue

variable {α : Type*}

@[simp] theorem items_new : (new : MessageQueue α).queue.items = [] := rfl
@[simp] theorem accepted_new : (new : MessageQueue α).queue.accepted = [] := rfl
@[simp] theorem taken_new : (new : MessageQueue α).queue.taken = [] := rfl
@[simp] theorem state_new : (new : MessageQueue α).state = false := rfl
@[simp] theorem queue_gotoWork (q : MessageQueue α) : q.gotoWork.queue = q.queue := rfl
@[simp] theorem state_gotoWork (q : MessageQueue α) : q.gotoWork.state = true := rfl
@[simp] theorem queue_backWork (q : MessageQueue α) : q.backWork.queue = q.queue := rfl
@[simp] theorem state_backWork (q : MessageQueue α) : q.backWork.state = false := rfl
@[simp] theorem state_push (q : MessageQueue α) (v : α) : (q.push v).1.state = q.state := by
  unfold push
  split <;> rfl

/-- A push to a working queue joins it and frees nothing. -/
theorem push_of_working {q : MessageQueue α} (h : q.state = true) (v : α) :
    q.push v = ({ q with queue := q.queue.push v }, []) := by
  simp [push, h]

/-- A push to a queue that is not working frees the value and leaves the queue as it was. -/
theorem push_of_stopped {q : MessageQueue α} (h : q.state = false) (v : α) : q.push v = (q, [v]) := by
  simp [push, h]

/-- The three ways a critical section of `pop` ends: the thread goes to sleep on an empty working queue, it returns 0 from
an empty queue that is not working, or it takes the front and returns 1. -/
theorem popSection_cases (q : MessageQueue α) :
    (q.popSection = (.asleep, q, none) ∧ q.queue.items = [] ∧ q.state = true) ∨
    (q.popSection = (.returned false, q, none) ∧ q.queue.items = [] ∧ q.state = false) ∨
    ∃ v rest, q.popSection = (.returned true, { q with queue := q.queue.pop }, some v) ∧ q.queue.items = v :: rest := by
  cases hi : q.queue.items with
  | nil =>
    cases hs : q.state with
    | true => exact Or.inl ⟨by simp [popSection, hi, hs], rfl, rfl⟩
    | false => exact Or.inr (Or.inl ⟨by simp [popSection, hi, hs], rfl, rfl⟩)
  | cons v rest => exact Or.inr (Or.inr ⟨v, rest, by simp [popSection, hi], rfl⟩)

/-- No section of `pop` changes whether the queue works. -/
@[simp] theorem state_popSection (q : MessageQueue α) : q.popSection.2.1.state = q.state := by
  rcases q.popSection_cases with ⟨h, -, -⟩ | ⟨h, -, -⟩ | ⟨v, rest, h, -⟩ <;> rw [h]

/-- `pop` accepts nothing. -/
@[simp] theorem accepted_popSection (q : MessageQueue α) : q.popSection.2.1.queue.accepted = q.queue.accepted := by
  rcases q.popSection_cases with ⟨h, -, -⟩ | ⟨h, -, -⟩ | ⟨v, rest, h, -⟩ <;> simp [h]

/-- What a section of `pop` takes off the queue is what it assigns. -/
theorem taken_popSection (q : MessageQueue α) :
    q.popSection.2.1.queue.taken = q.queue.taken ++ q.popSection.2.2.toList := by
  rcases q.popSection_cases with ⟨h, -, -⟩ | ⟨h, -, -⟩ | ⟨v, rest, h, hi⟩
  · simp [h]
  · simp [h]
  · simp [h, hi]

/-- A section of `pop` never makes the queue longer. -/
theorem size_popSection_le (q : MessageQueue α) : q.popSection.2.1.size ≤ q.size := by
  rcases q.popSection_cases with ⟨h, -, -⟩ | ⟨h, -, -⟩ | ⟨v, rest, h, hi⟩ <;> simp [h, size]

/-- A push makes the queue at most one longer. -/
theorem size_push_le (q : MessageQueue α) (v : α) : (q.push v).1.size ≤ q.size + 1 := by
  unfold push
  split <;> simp [size]

/-- `sync` does not change whether the queue works. -/
@[simp] theorem state_sync (handle : SyncHandle α) (q : MessageQueue α) : (q.sync handle).1.state = q.state := rfl

end MessageQueue

/-- A handle that frees exactly what it takes off the front of the queue, in order, and changes nothing else in it. -/
def FreesWhatItTakes {α : Type*} (handle : SyncHandle α) : Prop := ∀ q : Fifo α, q.items = (handle q).2 ++ (handle q).1.items

/-- `dropAvFrame` frees exactly the frame it takes off. -/
theorem dropAvFrame_freesWhatItTakes : FreesWhatItTakes dropAvFrame := by
  intro q
  unfold dropAvFrame
  cases h : q.items with
  | nil => simp [h]
  | cons frame rest => simp [h]

/-- `dropAvFrame` only takes frames off. -/
theorem items_dropAvFrame (q : Fifo AVFrame) : (dropAvFrame q).1.items = q.items.tail := by
  unfold dropAvFrame
  split
  · rename_i h
    simp [h]
  · rfl

/-- `dropAvFrame` accepts nothing. -/
theorem accepted_dropAvFrame (q : Fifo AVFrame) : (dropAvFrame q).1.accepted = q.accepted := by
  unfold dropAvFrame
  split
  · rfl
  · exact Fifo.accepted_pop q

/-- What `dropAvFrame` takes off the queue is what it frees. -/
theorem taken_dropAvFrame (q : Fifo AVFrame) : (dropAvFrame q).1.taken = q.taken ++ (dropAvFrame q).2 := by
  unfold dropAvFrame
  split
  · simp
  · rename_i frame rest h
    simp [h]

end LibraLive

import Mathlib.Logic.Function.Basic
import LibraLive.Change
import LibraLive.Lts
import LibraLive.MessageQueue

/-!
# One `message_queue` under any number of threads

The critical sections of any number of threads on one queue, in any order. A thread is outside the queue's code, asleep in
`pthread_cond_wait` or awake again and about to lock; in the last two it carries the content of the out parameter of its
`pop`. A signal wakes exactly one of the threads asleep, if there is one, and a thread may wake up by itself.
-/

namespace LibraLive.QueueThreads

variable {τ α : Type*}

/-- Where a thread is; `value` is the content of the out parameter of its `pop`. -/
inductive Position (α : Type*) where
  | out
  | asleep (value : α)
  | woken (value : α)

/-- The critical sections, and a spurious wake-up: what a push was given, and what a `pop` returned and its out parameter held
before and after. -/
inductive Section (τ α : Type*) where
  | push (t : τ) (value : α)
  | sleep (t : τ)
  | wake (t : τ)
  | pop (t : τ) (before : α) (ret : Bool) (after : α)
  | clear (t : τ)
  | gotoWork (t : τ)
  | backWork (t : τ)
  | sync (t : τ)

/-- A critical section and what it did to values: the ones that joined the queue and the ones that left it, by its content
before and after, and the ones it gave to the release callback. -/
structure Label (τ α : Type*) where
  act : Section τ α
  accepted : List α
  taken : List α
  freed : List α

/-- What a section did that left the queue as `r` and freed what `r` says. -/
def Label.of (act : Section τ α) (q : MessageQueue α) (r : MessageQueue α × List α) : Label τ α where
  act := act
  accepted := Change.joined q.queue.items r.1.queue.items
  taken := Change.left q.queue.items r.1.queue.items
  freed := r.2

/-- The value a section tried to push. -/
def Label.pushed (l : Label τ α) : List α :=
  match l.act with
  | .push _ v => [v]
  | _ => []

/-- The value a section delivered: a `pop` that returned 1. -/
def Label.delivered (l : Label τ α) : List α :=
  match l.act with
  | .pop _ _ true v => [v]
  | _ => []

/-- The queue, where each thread is, and the critical sections so far. -/
structure State (τ α : Type*) where
  q : MessageQueue α
  at_ : τ → Position α
  trace : List (Label τ α)

/-- After a section that left the queue as `r`, with the threads at `p`. -/
def State.after (s : State τ α) (act : Section τ α) (r : MessageQueue α × List α) (p : τ → Position α) : State τ α :=
  ⟨r.1, p, s.trace ++ [.of act s.q r]⟩

variable [DecidableEq τ]

/-- `pthread_cond_signal`: one thread that is asleep is woken, and nothing happens when none is. -/
inductive Signal (p : τ → Position α) : (τ → Position α) → Prop where
  | wakes (u : τ) (v : α) : p u = .asleep v → Signal p (Function.update p u (.woken v))
  | none : (∀ u v, p u ≠ .asleep v) → Signal p p

/-- A thread is about to lock for `pop`: it is outside with `before` in its out parameter, or it left the wait with it. -/
def MayPop (p : τ → Position α) (t : τ) (before : α) : Prop := p t = .out ∨ p t = .woken before

/-- The steps: one critical section of one thread, or a spurious wake-up. -/
inductive Step (handle : SyncHandle α) : State τ α → Label τ α → State τ α → Prop where
  | pushWorking {s : State τ α} {t : τ} {v : α} {p : τ → Position α} : s.at_ t = .out → s.q.state = true →
      Signal s.at_ p → Step handle s (.of (.push t v) s.q (s.q.push v)) (s.after (.push t v) (s.q.push v) p)
  | pushStopped {s : State τ α} {t : τ} {v : α} : s.at_ t = .out → s.q.state = false →
      Step handle s (.of (.push t v) s.q (s.q.push v)) (s.after (.push t v) (s.q.push v) s.at_)
  | sleep {s : State τ α} {t : τ} {before : α} : MayPop s.at_ t before → s.q.popSection.1 = .asleep →
      Step handle s (.of (.sleep t) s.q (s.q.popSection.2.1, []))
        (s.after (.sleep t) (s.q.popSection.2.1, []) (Function.update s.at_ t (.asleep before)))
  | pop {s : State τ α} {t : τ} {before : α} {ret : Bool} : MayPop s.at_ t before →
      s.q.popSection.1 = .returned ret →
      Step handle s (.of (.pop t before ret (s.q.popSection.2.2.getD before)) s.q (s.q.popSection.2.1, []))
        (s.after (.pop t before ret (s.q.popSection.2.2.getD before)) (s.q.popSection.2.1, [])
          (Function.update s.at_ t .out))
  | wake {s : State τ α} {t : τ} {v : α} : s.at_ t = .asleep v →
      Step handle s (.of (.wake t) s.q (s.q, [])) (s.after (.wake t) (s.q, []) (Function.update s.at_ t (.woken v)))
  | clear {s : State τ α} {t : τ} : s.at_ t = .out →
      Step handle s (.of (.clear t) s.q s.q.clear) (s.after (.clear t) s.q.clear s.at_)
  | gotoWork {s : State τ α} {t : τ} {p : τ → Position α} : s.at_ t = .out → Signal s.at_ p →
      Step handle s (.of (.gotoWork t) s.q (s.q.gotoWork, [])) (s.after (.gotoWork t) (s.q.gotoWork, []) p)
  | backWork {s : State τ α} {t : τ} {p : τ → Position α} : s.at_ t = .out → Signal s.at_ p →
      Step handle s (.of (.backWork t) s.q (s.q.backWork, [])) (s.after (.backWork t) (s.q.backWork, []) p)
  | sync {s : State τ α} {t : τ} : s.at_ t = .out →
      Step handle s (.of (.sync t) s.q (s.q.sync handle)) (s.after (.sync t) (s.q.sync handle) s.at_)

/-- One queue and its threads, from the queue's construction on. -/
def lts (τ : Type*) [DecidableEq τ] {α : Type*} (handle : SyncHandle α) : Lts (State τ α) (Label τ α) where
  init s := s = ⟨MessageQueue.new, fun _ => .out, []⟩
  step := Step handle

end LibraLive.QueueThreads

import LibraLive.Looper
import LibraLive.Table

/-!
# What a step of a `Looper` can do

One statement of a call, one of the worker, and the rest: the invariants of the looper are proved from these.
-/

namespace LibraLive

namespace CallPlace

/-- The call holds `headWriteProtect`. -/
def critical : CallPlace → Bool
  | .readHead | .flush _ | .walk _ | .linkHead | .postProtect => true
  | _ => false

/-- The message of the call is, or was, in the list. -/
def linked : CallPlace → Bool
  | .waitProtect | .readHead | .flush _ | .walk _ | .linkHead => false
  | _ => true

/-- The message is in the list and `headDataAvailable` was not posted for it. -/
def owes : CallPlace → Bool
  | .postProtect | .postData => true
  | _ => false

/-- The call is past the point where it read `head`, and `head` may not point to the first message in the list. -/
def clearing : CallPlace → Bool
  | .flush _ | .linkHead => true
  | _ => false

end CallPlace

namespace WorkerPlace

/-- The worker holds `headWriteProtect`. -/
def critical : WorkerPlace → Bool
  | .readHead | .takeNext _ | .postEmpty | .postTaken _ => true
  | _ => false

/-- The worker has waited for `headDataAvailable` and not yet taken a message. -/
def token : WorkerPlace → Bool
  | .waitProtect | .readHead | .takeNext _ => true
  | _ => false

end WorkerPlace

namespace Looper

variable {s s' : Looper} {i : Nat} {c : LooperCall}

/-- What the next statement of call `i` does. -/
inductive CallStep (s : Looper) (i : Nat) (c : LooperCall) : Looper → Prop where
  | protectGone : c.place = .waitProtect ∨ c.place = .postProtect → s.headWriteProtect.destroyed = true →
      CallStep s i c s.setFault
  | dataGone : c.place = .postData → s.headDataAvailable.destroyed = true → CallStep s i c s.setFault
  | acquire : c.place = .waitProtect → s.headWriteProtect.destroyed = false → 0 < s.headWriteProtect.count →
      CallStep s i c ({ s with headWriteProtect := s.headWriteProtect.wait }.setCall i .readHead)
  | clear : c.place = .readHead → c.flush = true → CallStep s i c (s.setCall i (.flush s.head))
  | empty : c.place = .readHead → c.flush = false → s.head = none → CallStep s i c (s.setCall i .linkHead)
  | walk {h : Nat} : c.place = .readHead → c.flush = false → s.head = some h → CallStep s i c (s.setCall i (.walk h))
  | cleared : c.place = .flush none → CallStep s i c (s.setCall i .linkHead)
  | flush {h : Nat} : c.place = .flush (some h) → CallStep s i c ((s.flushMessage i h).setCall i (.flush (s.next h)))
  | walkNext {h n : Nat} : c.place = .walk h → s.next h = some n → CallStep s i c (s.setCall i (.walk n))
  | linkNext {h : Nat} : c.place = .walk h → s.next h = none →
      CallStep s i c ((s.linkNext h i).setCall i .postProtect)
  | linkHead : c.place = .linkHead → CallStep s i c ((s.linkHead i).setCall i .postProtect)
  | release : c.place = .postProtect → s.headWriteProtect.destroyed = false →
      CallStep s i c ({ s with headWriteProtect := s.headWriteProtect.post }.setCall i .postData)
  | postData : c.place = .postData → s.headDataAvailable.destroyed = false →
      CallStep s i c ({ s with headDataAvailable := s.headDataAvailable.post }.setCall i
        (if c.quit then .join else .returned))
  | join : c.place = .join → s.worker = .returned →
      CallStep s i c ({ s with joins := s.joins + 1 }.setCall i .destroyData)
  | destroyData : c.place = .destroyData →
      CallStep s i c ({ s with headDataAvailable := s.headDataAvailable.destroy }.setCall i .destroyProtect)
  | destroyProtect : c.place = .destroyProtect →
      CallStep s i c ({ s with headWriteProtect := s.headWriteProtect.destroy }.setCall i .setRunning)
  | setRunning : c.place = .setRunning → CallStep s i c ({ s with running := false }.setCall i .returned)

/-- What the next statement of the worker does. -/
inductive WorkerStep (s : Looper) : Looper → Prop where
  | dataGone : s.worker = .waitData → s.headDataAvailable.destroyed = true → WorkerStep s s.setFault
  | protectGone : s.worker = .waitProtect ∨ s.worker.critical = true → s.headWriteProtect.destroyed = true →
      WorkerStep s s.setFault
  | waitData : s.worker = .waitData → 0 < s.headDataAvailable.count →
      WorkerStep s ({ s with headDataAvailable := s.headDataAvailable.wait }.setWorker .waitProtect)
  | acquire : s.worker = .waitProtect → 0 < s.headWriteProtect.count →
      WorkerStep s ({ s with headWriteProtect := s.headWriteProtect.wait }.setWorker .readHead)
  | empty : s.worker = .readHead → s.head = none → WorkerStep s (s.setWorker .postEmpty)
  | read {m : Nat} : s.worker = .readHead → s.head = some m → WorkerStep s (s.setWorker (.takeNext m))
  | take {m : Nat} : s.worker = .takeNext m →
      WorkerStep s ({ s with head := s.next m, removed := s.removed ++ [(m, none)] }.setWorker (.postTaken m))
  | releaseEmpty : s.worker = .postEmpty →
      WorkerStep s ({ s with headWriteProtect := s.headWriteProtect.post }.setWorker .waitData)
  | release {m : Nat} : s.worker = .postTaken m →
      WorkerStep s ({ s with headWriteProtect := s.headWriteProtect.post }.setWorker (.dispatch m))
  | quit {m : Nat} : s.worker = .dispatch m → s.isQuit m = true →
      WorkerStep s ({ s with deletes := s.deletes ++ [m] }.setWorker .returned)
  | handle {m : Nat} : s.worker = .dispatch m → s.isQuit m = false →
      WorkerStep s ({ s with handled := s.handled ++ [m] }.setWorker (.delete m))
  | delete {m : Nat} : s.worker = .delete m → WorkerStep s ({ s with deletes := s.deletes ++ [m] }.setWorker .waitData)

/-- What a step does. -/
inductive LooperStep (s : Looper) : LooperAct → Looper → Prop where
  | add {what arg1 arg2 : Int} {obj : Nat} {flush : Bool} : s.destructor ≠ .returned →
      LooperStep s (.postMessage what arg1 arg2 obj flush) (s.postMessage what arg1 arg2 obj flush)
  | quit : s.destructor ≠ .returned → LooperStep s .quit s.quit
  | destructQuit : s.destructor = .notCalled → s.running = true →
      LooperStep s .destructor { s.quit with destructor := .quitting s.calls.length }
  | destructIdle : s.destructor = .notCalled → s.running = false →
      LooperStep s .destructor { s with destructor := .returned }
  | destructed {i : Nat} {c : LooperCall} : s.destructor = .quitting i → s.calls[i]? = some c → c.place = .returned →
      LooperStep s .destructor { s with destructor := .returned }
  | call {i : Nat} {c : LooperCall} {s' : Looper} : s.calls[i]? = some c → CallStep s i c s' → LooperStep s (.call i) s'
  | worker {s' : Looper} : WorkerStep s s' → LooperStep s .worker s'

theorem callStep_cases (h : s.callStep i c = some s') : CallStep s i c s' := by
  unfold callStep at h
  split at h
  case h_1 hp =>
    unfold waitProtect at h
    split at h
    · cases h
      exact .protectGone (Or.inl hp) ‹_›
    · split at h
      · cases h
      · cases h
        exact .acquire hp (by simpa using ‹¬s.headWriteProtect.destroyed = true›) (by omega)
  case h_2 hp =>
    split at h
    · cases h
      exact .clear hp ‹_›
    · have hf : c.flush = false := by simpa using ‹¬c.flush = true›
      cases hh : s.head with
      | none =>
        rw [hh] at h
        cases h
        exact .empty hp hf hh
      | some m =>
        rw [hh] at h
        cases h
        exact .walk hp hf hh
  case h_3 hp =>
    cases h
    exact .cleared hp
  case h_4 hp =>
    cases h
    exact .flush hp
  case h_5 hp =>
    split at h
    · cases h
      exact .walkNext hp ‹_›
    · cases h
      exact .linkNext hp ‹_›
  case h_6 hp =>
    cases h
    exact .linkHead hp
  case h_7 hp =>
    unfold postProtect at h
    split at h
    · cases h
      exact .protectGone (Or.inr hp) ‹_›
    · cases h
      exact .release hp (by simpa using ‹¬s.headWriteProtect.destroyed = true›)
  case h_8 hp =>
    unfold postData at h
    split at h
    · cases h
      exact .dataGone hp ‹_›
    · cases h
      exact .postData hp (by simpa using ‹¬s.headDataAvailable.destroyed = true›)
  case h_9 hp =>
    split at h
    · cases h
      exact .join hp ‹_›
    · cases h
  case h_10 hp =>
    cases h
    exact .destroyData hp
  case h_11 hp =>
    cases h
    exact .destroyProtect hp
  case h_12 hp =>
    cases h
    exact .setRunning hp
  case h_13 => cases h

theorem workerStep_cases (h : s.workerStep s.worker = some s') : WorkerStep s s' := by
  cases hw : s.worker with
  | waitData =>
    simp only [hw, workerStep, Looper.waitData] at h
    split at h
    · cases h
      exact .dataGone hw ‹_›
    · split at h
      · cases h
      · cases h
        exact .waitData hw (by omega)
  | waitProtect =>
    simp only [hw, workerStep, Looper.waitProtect] at h
    split at h
    · cases h
      exact .protectGone (Or.inl hw) ‹_›
    · split at h
      · cases h
      · cases h
        exact .acquire hw (by omega)
  | readHead =>
    simp only [hw, workerStep] at h
    cases hh : s.head with
    | none =>
      rw [hh] at h
      cases h
      exact .empty hw hh
    | some m =>
      rw [hh] at h
      cases h
      exact .read hw hh
  | takeNext m =>
    simp only [hw, workerStep] at h
    cases h
    exact .take hw
  | postEmpty =>
    simp only [hw, workerStep, Looper.postProtect] at h
    split at h
    · cases h
      exact .protectGone (Or.inr (by rw [hw]; rfl)) ‹_›
    · cases h
      exact .releaseEmpty hw
  | postTaken m =>
    simp only [hw, workerStep, Looper.postProtect] at h
    split at h
    · cases h
      exact .protectGone (Or.inr (by rw [hw]; rfl)) ‹_›
    · cases h
      exact .release hw
  | dispatch m =>
    simp only [hw, workerStep] at h
    split at h
    · cases h
      exact .quit hw ‹_›
    · cases h
      exact .handle hw (by simpa using ‹¬s.isQuit m = true›)
  | delete m =>
    simp only [hw, workerStep] at h
    cases h
    exact .delete hw
  | returned =>
    simp only [hw, workerStep] at h
    cases h

theorem step_cases {a : LooperAct} (h : step s a = some s') : LooperStep s a s' := by
  unfold step at h
  split at h
  · cases h
  cases a with
  | postMessage what arg1 arg2 obj flush =>
    simp only [act] at h
    split at h
    · cases h
    · cases h
      exact .add ‹_›
  | quit =>
    simp only [act] at h
    split at h
    · cases h
    · cases h
      exact .quit ‹_›
  | destructor =>
    simp only [act, destroy] at h
    split at h
    case h_1 hd =>
      cases hrun : s.running with
      | true =>
        rw [if_pos hrun] at h
        cases h
        exact .destructQuit hd hrun
      | false =>
        rw [if_neg (by simp [hrun])] at h
        cases h
        exact .destructIdle hd hrun
    case h_2 j hd =>
      split at h
      case isTrue hback =>
        cases h
        cases hc : s.calls[j]? with
        | none =>
          rw [hc] at hback
          cases hback
        | some c =>
          rw [hc] at hback
          exact .destructed hd hc (of_decide_eq_true hback)
      case isFalse => cases h
    case h_3 => cases h
  | call i =>
    obtain ⟨c, hc, hstep⟩ := Option.bind_eq_some_iff.mp h
    exact .call hc (callStep_cases hstep)
  | worker => exact .worker (workerStep_cases h)

/-- An invariant that does not look at the destructor: every call keeps it as it begins, and every statement of a call and of
the worker does. -/
theorem invariant {I : Looper → Prop} (hnew : I new)
    (hadd : ∀ s msg flush, lts.Reachable s → I s → msg.next = none → (msg.quit = true → flush = false) →
      I (s.callAdd msg flush))
    (hdestructor : ∀ s place, I s → I { s with destructor := place })
    (hcall : ∀ s i c s', lts.Reachable s → I s → s.calls[i]? = some c → CallStep s i c s' → I s')
    (hworker : ∀ s s', lts.Reachable s → I s → WorkerStep s s' → I s') (h : lts.Reachable s) : I s := by
  refine h.invariant (fun _ h0 => h0 ▸ hnew) fun s a s' hr ih hstep => ?_
  cases step_cases hstep with
  | add => exact hadd s _ _ hr ih rfl Bool.noConfusion
  | quit => exact hadd s _ _ hr ih rfl fun _ => rfl
  | destructQuit => exact hdestructor _ _ (hadd s _ _ hr ih rfl fun _ => rfl)
  | destructIdle | destructed => exact hdestructor _ _ ih
  | call hc hstep => exact hcall s _ _ _ hr ih hc hstep
  | worker hstep => exact hworker s _ hr ih hstep

end Looper

end LibraLive

import LibraLive.Lemmas.LooperList

/-!
# The worker of a `Looper`

What the worker takes it passes on, one message at a time, up to a quit message; and a semaphore is destroyed only when it has
returned.
-/

namespace LibraLive

/-- The message the worker has taken and not passed on yet. -/
def WorkerPlace.taken : WorkerPlace → List Nat
  | .postTaken m | .dispatch m => [m]
  | _ => []

/-- `quit` has come back from `pthread_join` and not returned. -/
def CallPlace.destroying : CallPlace → Bool
  | .destroyData | .destroyProtect | .setRunning => true
  | _ => false

namespace Looper

variable {s s' : Looper} {i : Nat} {c : LooperCall}

/-- The messages the worker took. -/
def takenByWorker (s : Looper) : List Nat := (s.removed.filter (·.2 = none)).map (·.1)

/-- The worker passes on every message it takes, until it takes a quit message. -/
structure PassedOn (s : Looper) : Prop where
  running : s.worker ≠ .returned → s.takenByWorker = s.handled ++ s.worker.taken
  returned : s.worker = .returned → ∃ m, s.isQuit m = true ∧ s.takenByWorker = s.handled ++ [m]

/-- What a call removes the worker does not take. -/
theorem takenByWorker_flushMessage (i m : Nat) : (s.flushMessage i m).takenByWorker = s.takenByWorker := by
  simp [takenByWorker, flushMessage]

/-- A step that touches nothing of the worker. -/
theorem PassedOn.of_same (h : PassedOn s) (hworker : s'.worker = s.worker) (htaken : s'.takenByWorker = s.takenByWorker)
    (hhandled : s'.handled = s.handled) (hquit : ∀ m, s.isQuit m = true → s'.isQuit m = true) : PassedOn s' where
  running := by
    rw [hworker, htaken, hhandled]
    exact h.running
  returned := by
    rw [hworker, htaken, hhandled]
    intro hw
    obtain ⟨m, hm, htake⟩ := h.returned hw
    exact ⟨m, hquit m hm, htake⟩

/-- A statement of a call. -/
theorem PassedOn.call (h : PassedOn s) (hstep : CallStep s i c s') : PassedOn s' := by
  cases hstep with
  | flush => exact h.of_same rfl (takenByWorker_flushMessage i _) rfl fun _ => id
  | linkNext => exact h.of_same rfl rfl rfl fun m hm => (isQuit_linkNext _ i m).trans hm
  | _ => exact h.of_same rfl rfl rfl fun _ => id

/-- A statement of the worker. -/
theorem PassedOn.worker (h : PassedOn s) (hstep : WorkerStep s s') : PassedOn s' := by
  have hrun := h.running
  cases hstep with
  | dataGone | protectGone => exact h.of_same rfl rfl rfl fun _ => id
  | quit hw hquit =>
    refine ⟨fun hne => absurd rfl hne, fun _ => ⟨_, hquit, ?_⟩⟩
    rw [hw] at hrun
    exact hrun WorkerPlace.noConfusion
  | take hw =>
    refine ⟨fun _ => ?_, WorkerPlace.noConfusion⟩
    rw [hw] at hrun
    simp only [takenByWorker] at hrun ⊢
    simp [setWorker, hrun, WorkerPlace.taken]
  | handle hw =>
    refine ⟨fun _ => ?_, WorkerPlace.noConfusion⟩
    rw [hw] at hrun
    simp only [takenByWorker] at hrun ⊢
    simp [setWorker, hrun, WorkerPlace.taken]
  | waitData hw | acquire hw | empty hw | read hw | releaseEmpty hw | release hw | delete hw =>
    refine ⟨fun _ => ?_, WorkerPlace.noConfusion⟩
    rw [hw] at hrun
    exact hrun WorkerPlace.noConfusion

/-- A new message makes no old one a quit message. -/
theorem isQuit_callAdd {msg : LooperMessage} {flush : Bool} {m : Nat} (hm : m < s.messages.length) :
    (s.callAdd msg flush).isQuit m = s.isQuit m := by
  rw [isQuit, isQuit, Looper.callAdd, List.getElem?_append_left hm]

/-- A call begins. -/
theorem PassedOn.callAdd (h : PassedOn s) (msg : LooperMessage) (flush : Bool) : PassedOn (s.callAdd msg flush) := by
  refine h.of_same rfl rfl rfl fun m hm => ?_
  rw [isQuit_callAdd ?_]
  · exact hm
  · by_contra hlen
    rw [isQuit, List.getElem?_eq_none (by omega)] at hm
    cases hm

/-- What the worker took it has handled, or has in hand, or it was the quit message. -/
theorem passedOn (h : lts.Reachable s) : PassedOn s :=
  invariant ⟨fun _ => rfl, WorkerPlace.noConfusion⟩ (fun _ msg flush _ ih _ _ => ih.callAdd msg flush)
    (fun _ _ ih => ih.of_same rfl rfl rfl fun _ => id) (fun _ _ _ _ _ ih _ hstep => ih.call hstep)
    (fun _ _ _ ih hstep => ih.worker hstep) h

/-- The handled messages are the beginning of those the worker took. -/
theorem PassedOn.handled_append (h : PassedOn s) : ∃ l, s.takenByWorker = s.handled ++ l := by
  by_cases hw : s.worker = .returned
  · obtain ⟨m, -, htake⟩ := h.returned hw
    exact ⟨[m], htake⟩
  · exact ⟨s.worker.taken, h.running hw⟩

/-- What was handled was taken by the worker. -/
theorem PassedOn.mem_removed (h : PassedOn s) {y : Nat} (hy : y ∈ s.handled) : (y, none) ∈ s.removed := by
  obtain ⟨l, htake⟩ := h.handled_append
  have hmem : y ∈ s.takenByWorker := by
    rw [htake]
    exact List.mem_append_left l hy
  obtain ⟨⟨y', n⟩, he, rfl⟩ := List.mem_map.mp hmem
  obtain ⟨he, hn⟩ := List.mem_filter.mp he
  obtain rfl : n = none := of_decide_eq_true hn
  exact he

/-- Everything linked is a message. -/
theorem Linking.lt_messages (hl : Linking s) {m : Nat} (hm : m ∈ s.linked) : m < s.messages.length :=
  hl.numbered.messages ▸ hl.numbered.lt m hm

/-- Everything removed was linked. -/
theorem Linking.linked_of_removed (hl : Linking s) {m : Nat} {n : Option Nat} (h : (m, n) ∈ s.removed) : m ∈ s.linked := by
  obtain ⟨q, listed, hlist⟩ := hl.listed
  rw [← hlist.accepted, ← q.conserved, hlist.taken]
  exact List.mem_append_left _ (List.mem_map.mpr ⟨_, h, rfl⟩)

/-- A quit message is never handled. -/
theorem handled_not_quit (h : lts.Reachable s) : ∀ m ∈ s.handled, s.isQuit m = false := by
  refine invariant (I := fun s => ∀ m ∈ s.handled, s.isQuit m = false) ?_ ?_ ?_ ?_ ?_ h
  · intro m hm
    cases hm
  · intro s msg flush hr ih _ _ m hm
    rw [isQuit_callAdd ((linking hr).lt_messages ((linking hr).linked_of_removed ((passedOn hr).mem_removed hm)))]
    exact ih m hm
  · exact fun _ _ ih => ih
  · intro s i c s' _ ih _ hstep
    cases hstep with
    | linkNext => exact fun m hm => (isQuit_linkNext _ _ m).trans (ih m hm)
    | _ => exact ih
  · intro s s' _ ih hstep
    cases hstep with
    | handle _ hquit =>
      intro m hm
      rcases List.mem_append.mp hm with hm | hm
      · exact ih m hm
      · rw [List.mem_singleton.mp hm]
        exact hquit
    | _ => exact ih

/-! ## The end -/

/-- What happens only after the worker has returned. -/
structure AfterWorker (s : Looper) : Prop where
  data : s.headDataAvailable.destroyed = true → s.worker = .returned
  protect : s.headWriteProtect.destroyed = true → s.worker = .returned
  destroying : ∀ (j : Nat) (c : LooperCall), s.calls[j]? = some c → c.place.destroying = true → s.worker = .returned
  fault : s.fault = true → s.worker = .returned

namespace AfterWorker

/-- A step after which nothing new is destroyed. -/
theorem of_same (h : AfterWorker s) (hworker : s.worker = .returned → s'.worker = .returned)
    (hdata : s'.headDataAvailable.destroyed = s.headDataAvailable.destroyed)
    (hprotect : s'.headWriteProtect.destroyed = s.headWriteProtect.destroyed) (hfault : s'.fault = s.fault)
    (hcalls : ∀ (j : Nat) (c : LooperCall), s'.calls[j]? = some c → c.place.destroying = true →
      ∃ c', s.calls[j]? = some c' ∧ c'.place.destroying = true) : AfterWorker s' where
  data hd := hworker (h.data (hdata ▸ hd))
  protect hp := hworker (h.protect (hprotect ▸ hp))
  destroying j c hc hd := by
    obtain ⟨c', hc', hd'⟩ := hcalls j c hc hd
    exact hworker (h.destroying j c' hc' hd')
  fault hf := hworker (h.fault (hfault ▸ hf))

/-- Once the worker has returned nothing remains to be shown. -/
theorem of_returned (hw : s.worker = .returned) : AfterWorker s :=
  ⟨fun _ => hw, fun _ => hw, fun _ _ _ _ => hw, fun _ => hw⟩

/-- A statement of a call. -/
theorem call (h : AfterWorker s) (hc : s.calls[i]? = some c) (hstep : CallStep s i c s') : AfterWorker s' := by
  have hmove : ∀ {place : CallPlace}, place.destroying = false → ∀ (j : Nat) (d : LooperCall),
      (s.calls.modify i ({ · with place := place }))[j]? = some d → d.place.destroying = true →
        ∃ d', s.calls[j]? = some d' ∧ d'.place.destroying = true := by
    intro place hplace j d hd hdest
    rcases Table.getElem?_modify_cases hd with ⟨rfl, d', -, rfl⟩ | ⟨-, hd⟩
    · rw [hplace] at hdest
      cases hdest
    · exact ⟨d, hd, hdest⟩
  cases hstep with
  | protectGone _ hgone => exact of_returned (h.protect hgone)
  | dataGone _ hgone => exact of_returned (h.data hgone)
  | join _ hw => exact of_returned hw
  | destroyData hp | destroyProtect hp | setRunning hp => exact of_returned (h.destroying i c hc (by rw [hp]; rfl))
  | postData =>
    refine h.of_same id rfl rfl rfl (hmove ?_)
    cases c.quit <;> rfl
  | _ => exact h.of_same id rfl rfl rfl (hmove rfl)

/-- A statement of the worker. -/
theorem worker (h : AfterWorker s) (hstep : WorkerStep s s') : AfterWorker s' := by
  cases hstep with
  | dataGone _ hgone => exact of_returned (h.data hgone)
  | protectGone _ hgone => exact of_returned (h.protect hgone)
  | quit => exact of_returned rfl
  | waitData hw | acquire hw | empty hw | read hw | take hw | releaseEmpty hw | release hw | handle hw | delete hw =>
    refine h.of_same (fun hret => ?_) rfl rfl rfl fun j d hd hdest => ⟨d, hd, hdest⟩
    rw [hw] at hret
    cases hret

/-- A call begins. -/
theorem callAdd (h : AfterWorker s) (msg : LooperMessage) (flush : Bool) : AfterWorker (s.callAdd msg flush) := by
  refine h.of_same id rfl rfl rfl fun j d hd hdest => ?_
  rcases Table.getElem?_snoc_cases hd with ⟨-, rfl⟩ | hd
  · cases hdest
  · exact ⟨d, hd, hdest⟩

end AfterWorker

/-- Nothing is destroyed, and no semaphore is missed, before the worker has returned. -/
theorem afterWorker (h : lts.Reachable s) : AfterWorker s := by
  refine invariant ?_ (fun _ msg flush _ ih _ _ => ih.callAdd msg flush) ?_ (fun _ _ _ _ _ ih hc hstep => ih.call hc hstep)
    (fun _ _ _ ih hstep => ih.worker hstep) h
  · exact ⟨Bool.noConfusion, Bool.noConfusion, fun _ _ hc => (by cases hc), Bool.noConfusion⟩
  · exact fun _ _ ih => ih.of_same id rfl rfl rfl fun j d hd hdest => ⟨d, hd, hdest⟩

end Looper

end LibraLive

import LibraLive.Lemmas.LooperStep

/-!
# Who holds `headWriteProtect`, and which messages are linked

`headWriteProtect` is 1, or one thread is between its two uses of it. A message is linked by the call that made it, once, and
its `next` is not written before.
-/

namespace LibraLive

namespace Looper

variable {s s' : Looper} {i j : Nat} {c d : LooperCall}

/-- Exactly one of: the semaphore is free, a call holds it, the worker holds it. -/
def Locked (s : Looper) : Prop :=
  s.headWriteProtect.count + s.calls.countP (·.place.critical) + s.worker.critical.toNat = 1

/-- The calls and their messages. -/
structure Numbered (s : Looper) : Prop where
  messages : s.messages.length = s.calls.length
  quit : ∀ (i : Nat) (c : LooperCall), s.calls[i]? = some c → s.isQuit i = c.quit
  noFlush : ∀ (i : Nat) (c : LooperCall), s.calls[i]? = some c → c.quit = true → c.flush = false
  clears : ∀ (i : Nat) (c : LooperCall) h, s.calls[i]? = some c → c.place = .flush h → c.flush = true
  linked : ∀ (i : Nat) (c : LooperCall), s.calls[i]? = some c → (i ∈ s.linked ↔ c.place.linked = true)
  lt : ∀ i ∈ s.linked, i < s.calls.length
  nodup : s.linked.Nodup
  fresh : ∀ i, i ∉ s.linked → s.next i = none

/-! ## Counting calls -/

/-- Changing the place of a call changes a count by what its place counts for. -/
theorem countP_setCall {p : CallPlace → Bool} (hc : s.calls[i]? = some c) (place : CallPlace) :
    (s.calls.modify i ({ · with place := place })).countP (fun c => p c.place) + (p c.place).toNat =
      s.calls.countP (fun c => p c.place) + (p place).toNat :=
  Table.countP_modify (p := fun c => p c.place) (f := ({ · with place := place })) hc

/-- A call at a place that counts is counted. -/
theorem countP_pos {p : CallPlace → Bool} (hc : s.calls[i]? = some c) (hp : p c.place = true) :
    0 < s.calls.countP (fun c => p c.place) :=
  Table.countP_pos_of_row (p := fun c => p c.place) hc hp

/-- A statement of a call moves the call, unless it finds a semaphore destroyed, and it takes or gives `headWriteProtect` as it
enters or leaves the critical section. -/
theorem CallStep.moves (hstep : CallStep s i c s') : s' = s.setFault ∨ ∃ place,
    s'.calls = s.calls.modify i ({ · with place := place }) ∧ s'.worker = s.worker ∧
      s'.headWriteProtect.count + place.critical.toNat = s.headWriteProtect.count + c.place.critical.toNat := by
  cases hstep with
  | protectGone | dataGone => exact Or.inl rfl
  | acquire hp _ hpos =>
    refine Or.inr ⟨_, rfl, rfl, ?_⟩
    simp only [setCall, Sem.wait, hp, CallPlace.critical, Bool.toNat_true, Bool.toNat_false]
    omega
  | postData hp =>
    refine Or.inr ⟨_, rfl, rfl, ?_⟩
    cases hq : c.quit <;> simp [setCall, hp, CallPlace.critical]
  | _ =>
    refine Or.inr ⟨_, rfl, rfl, ?_⟩
    simp [setCall, flushMessage, Looper.linkNext, Looper.linkHead, Sem.post, Sem.destroy, CallPlace.critical, *]

/-- A statement of the worker leaves the calls alone, and it takes or gives `headWriteProtect` in the same way. -/
theorem WorkerStep.moves (hstep : WorkerStep s s') : s' = s.setFault ∨ s'.calls = s.calls ∧
    s'.headWriteProtect.count + s'.worker.critical.toNat = s.headWriteProtect.count + s.worker.critical.toNat := by
  cases hstep with
  | protectGone | dataGone => exact Or.inl rfl
  | acquire hw hpos =>
    refine Or.inr ⟨rfl, ?_⟩
    simp only [setWorker, Sem.wait, hw, WorkerPlace.critical, Bool.toNat_true, Bool.toNat_false]
    omega
  | _ =>
    refine Or.inr ⟨rfl, ?_⟩
    simp [setWorker, Sem.post, WorkerPlace.critical, *]

namespace Locked

/-- Two calls in the critical section are one. -/
theorem call_unique (h : Locked s) (hc : s.calls[i]? = some c) (hd : s.calls[j]? = some d)
    (hcrit : c.place.critical = true) (hdcrit : d.place.critical = true) : i = j := by
  unfold Locked at h
  exact Table.eq_of_countP_le_one (p := fun c : LooperCall => c.place.critical) (by omega) hc hcrit hd hdcrit

/-- While the worker is in its critical section no call is. -/
theorem no_call (h : Locked s) (hw : s.worker.critical = true) (hc : s.calls[i]? = some c) : c.place.critical = false := by
  unfold Locked at h
  rw [hw, Bool.toNat_true] at h
  cases hcrit : c.place.critical with
  | false => rfl
  | true =>
    have hpos := countP_pos (p := CallPlace.critical) hc hcrit
    omega

/-- While a call is in its critical section the worker is not. -/
theorem no_worker (h : Locked s) (hc : s.calls[i]? = some c) (hcrit : c.place.critical = true) :
    s.worker.critical = false := by
  cases hw : s.worker.critical with
  | false => rfl
  | true => exact absurd (h.no_call hw hc) (by simp [hcrit])

/-- While the semaphore is free no call is in the critical section. -/
theorem no_call_of_free (h : Locked s) (hfree : 0 < s.headWriteProtect.count) (hc : s.calls[i]? = some c) :
    c.place.critical = false := by
  unfold Locked at h
  cases hcrit : c.place.critical with
  | false => rfl
  | true =>
    have hpos := countP_pos (p := CallPlace.critical) hc hcrit
    omega

/-- A statement of a call. -/
theorem call (h : Locked s) (hc : s.calls[i]? = some c) (hstep : CallStep s i c s') : Locked s' := by
  rcases hstep.moves with rfl | ⟨place, hcalls, hworker, hcount⟩
  · exact h
  · have hplaces := countP_setCall (p := CallPlace.critical) hc place
    unfold Locked at h ⊢
    rw [hcalls, hworker]
    omega

/-- A statement of the worker. -/
theorem worker (h : Locked s) (hstep : WorkerStep s s') : Locked s' := by
  rcases hstep.moves with rfl | ⟨hcalls, hcount⟩
  · exact h
  · unfold Locked at h ⊢
    rw [hcalls]
    omega

/-- A call begins outside the critical section. -/
theorem callAdd (h : Locked s) (msg : LooperMessage) (flush : Bool) : Locked (s.callAdd msg flush) := by
  unfold Locked at h ⊢
  simpa [Looper.callAdd, CallPlace.critical] using h

end Locked

end Looper

end LibraLive

import LibraLive.Lemmas.LooperWorker

/-!
# Looper shutdown

The destructor calls `quit` unless it was called before, `quit` itself asks nothing, and nobody keeps the posters away from a
looper that shuts down. It comes out right when `quit` is executed once, after everything else was linked, and when every call
of `postMessage` is over before the semaphores are destroyed.
-/

namespace LibraLive

/-- The message the worker has taken and not deleted yet. -/
def WorkerPlace.hand : WorkerPlace → List Nat
  | .postTaken m | .dispatch m | .delete m => [m]
  | _ => []

namespace CallPlace

/-- `quit` has joined the worker. -/
def joined : CallPlace → Bool
  | .destroyData | .destroyProtect | .setRunning | .returned => true
  | _ => false

/-- `quit` has destroyed a semaphore. -/
def gone : CallPlace → Bool
  | .destroyProtect | .setRunning | .returned => true
  | _ => false

/-- Where a call of `postMessage` may be when `quit` is at a place: anywhere as long as `quit` has not got `headWriteProtect`,
then outside the part of `addMessage` that links, and back once a semaphore is destroyed. -/
def allows (quit post : CallPlace) : Bool :=
  quit = .waitProtect || post = .returned || !quit.gone && (post = .waitProtect || post.linked)

end CallPlace

namespace Looper

/-- No semaphore is used after `sem_destroy`, no message is deleted twice, the worker is not joined twice; and by the time the
destructor has returned the worker was joined and every message that was allocated is deleted. -/
structure CleanShutdown (s : Looper) : Prop where
  fault : s.fault = false
  once : s.deletes.Nodup
  joined : s.joins ≤ 1
  returned : s.destructor = .returned → s.joins = 1 ∧ ∀ m < s.messages.length, m ∈ s.deletes

/-- The condition on the steps: `quit` is executed once, called or by the destructor; no call of `postMessage` gets
`headWriteProtect` after `quit` did; when `quit` comes to `sem_destroy` every call of `postMessage` has returned, and none is
made later. -/
def quitLast (s : Looper) : LooperAct → Bool
  | .postMessage .. => !s.headDataAvailable.destroyed
  | .quit => s.calls.all (!·.quit)
  | .destructor => s.destructor ≠ .notCalled || !s.running || s.calls.all (!·.quit)
  | .call i => (s.calls[i]?).all fun c =>
    match c.place with
    | .waitProtect => c.quit || s.calls.all fun d => !d.quit || d.place = .waitProtect
    | .destroyData => s.calls.all fun d => d.quit || d.place = .returned
    | _ => true
  | .worker => true

variable {s s' : Looper} {i : Nat} {c : LooperCall}

/-! ## What is deleted -/

/-- What was removed from the list is deleted or in the hand of the worker. -/
def Disposed (s : Looper) : Prop := (s.removed.map (·.1)).Perm (s.deletes ++ s.worker.hand)

/-- A message put behind what was deleted may as well stand behind all. -/
theorem perm_snoc_swap {l a b : List Nat} {m : Nat} (h : l.Perm (a ++ b)) : (l ++ [m]).Perm (a ++ [m] ++ b) := by
  refine (h.append_right [m]).trans ?_
  rw [List.append_assoc, List.append_assoc]
  exact List.Perm.append_left a List.perm_append_comm

/-- In every state what was removed from the list is deleted or in the hand of the worker. -/
theorem disposed (h : lts.Reachable s) : Disposed s := by
  refine invariant (I := Disposed) ?_ (fun _ _ _ _ ih _ _ => ih) (fun _ _ ih => ih) ?_ ?_ h
  · exact List.Perm.refl _
  · intro s i c s' _ ih _ hstep
    cases hstep with
    | flush =>
      simp only [Disposed, setCall, flushMessage, List.map_append]
      exact perm_snoc_swap ih
    | _ => exact ih
  · intro s s' _ ih hstep
    simp only [Disposed] at ih ⊢
    cases hstep with
    | dataGone | protectGone => exact ih
    | take hw =>
      simp only [hw, WorkerPlace.hand, List.append_nil] at ih
      simp only [setWorker, List.map_append]
      exact ih.append_right _
    | quit hw | delete hw =>
      rw [hw] at ih
      simp only [setWorker, WorkerPlace.hand, List.append_nil]
      exact ih
    | waitData hw | acquire hw | empty hw | read hw | releaseEmpty hw | release hw | handle hw =>
      rw [hw] at ih
      exact ih

/-- No message is deleted twice. -/
theorem deletes_nodup (h : lts.Reachable s) : s.deletes.Nodup := by
  obtain ⟨q, listed, hlist⟩ := (linking h).listed
  have hnodup := (linking h).numbered.nodup
  rw [← hlist.accepted, ← q.conserved, hlist.taken] at hnodup
  have hperm := (disposed h).nodup_iff.mp (List.nodup_append.mp hnodup).1
  exact (List.nodup_append.mp hperm).1

/-! ## The one quit -/

/-- A call of `quit` is at a place of this kind. -/
def QuitAt (s : Looper) (p : CallPlace → Prop) : Prop :=
  ∃ (i : Nat) (c : LooperCall), s.calls[i]? = some c ∧ c.quit = true ∧ p c.place

/-- What the condition gives: one call of `quit` at most, its message behind all others, the calls of `postMessage` where its
place allows them, and everything else as that call has left it. -/
structure QuitOnce (s : Looper) : Prop where
  fault : s.fault = false
  one : ∀ (i j : Nat) (c d : LooperCall), s.calls[i]? = some c → s.calls[j]? = some d → c.quit = true → d.quit = true →
    i = j
  last : ∀ (i : Nat) (c : LooperCall), s.calls[i]? = some c → c.quit = true → i ∈ s.linked → ∃ l, s.linked = l ++ [i]
  allows : ∀ (i j : Nat) (c d : LooperCall), s.calls[i]? = some c → s.calls[j]? = some d → c.quit = true →
    d.quit = false → c.place.allows d.place = true
  post : ∀ (j : Nat) (d : LooperCall), s.calls[j]? = some d → d.quit = false → d.place ≠ .join ∧ d.place.destroying = false
  joins : s.joins = s.calls.countP fun c => c.quit && c.place.joined
  data : s.headDataAvailable.destroyed = true ↔ s.QuitAt (·.gone = true)
  protect : s.headWriteProtect.destroyed = true → s.headDataAvailable.destroyed = true
  running : s.running = false → s.QuitAt (· = .returned)
  quitting : ∀ i, s.destructor = .quitting i → ∃ c, s.calls[i]? = some c ∧ c.quit = true
  returned : s.destructor = .returned → s.QuitAt (· = .returned)

namespace QuitOnce

/-- Moving a call moves the call of `quit` only if it is that one. -/
theorem quitAt_move {place : CallPlace} {p : CallPlace → Prop} (hc : s.calls[i]? = some c)
    (hcalls : s'.calls = s.calls.modify i ({ · with place := place })) (hp : c.quit = true → (p place ↔ p c.place)) :
    s'.QuitAt p ↔ s.QuitAt p := by
  constructor
  · rintro ⟨j, d, hd, hquit, hpd⟩
    rcases row_move hc hcalls hd with ⟨rfl, rfl⟩ | ⟨-, hd⟩
    · exact ⟨j, c, hc, hquit, (hp hquit).mp hpd⟩
    · exact ⟨j, d, hd, hquit, hpd⟩
  · rintro ⟨j, d, hd, hquit, hpd⟩
    by_cases hij : i = j
    · subst hij
      rw [hc] at hd
      cases hd
      exact ⟨i, { c with place := place }, by rw [hcalls, List.getElem?_modify_eq, hc]; rfl, hquit, (hp hquit).mpr hpd⟩
    · exact ⟨j, d, by rw [hcalls, List.getElem?_modify_ne _ _ hij]; exact hd, hquit, hpd⟩

/-- A statement of a call: what it may change. -/
theorem move (h : QuitOnce s) (place : CallPlace) (hc : s.calls[i]? = some c)
    (hcalls : s'.calls = s.calls.modify i ({ · with place := place })) (hfault : s'.fault = s.fault)
    (hdestructor : s'.destructor = s.destructor)
    (hlast : ∀ (j : Nat) (d : LooperCall), s.calls[j]? = some d → d.quit = true → j ∈ s'.linked → ∃ l, s'.linked = l ++ [j])
    (hquit : c.quit = true → ∀ (j : Nat) (d : LooperCall), s.calls[j]? = some d → d.quit = false →
      place.allows d.place = true)
    (hpost : c.quit = false → (∀ (j : Nat) (d : LooperCall), s.calls[j]? = some d → d.quit = true →
      d.place.allows place = true) ∧ place ≠ .join ∧ place.destroying = false)
    (hjoins : s'.joins + (c.quit && c.place.joined).toNat = s.joins + (c.quit && place.joined).toNat)
    (hdata : s'.headDataAvailable.destroyed = true ↔ s'.QuitAt (·.gone = true))
    (hprotect : s'.headWriteProtect.destroyed = true → s'.headDataAvailable.destroyed = true)
    (hreturned : c.place ≠ .returned) (hrunning : s'.running = false → s.running = false ∨ s'.QuitAt (· = .returned)) :
    QuitOnce s' := by
  have hstays : s.QuitAt (· = .returned) → s'.QuitAt (· = .returned) := by
    rintro ⟨j, d, hd, hdq, hplace⟩
    have hij : i ≠ j := by
      rintro rfl
      rw [hc] at hd
      cases hd
      exact hreturned hplace
    exact ⟨j, d, by rw [hcalls, List.getElem?_modify_ne _ _ hij]; exact hd, hdq, hplace⟩
  refine ⟨hfault.trans h.fault, ?_, ?_, ?_, ?_, ?_, hdata, hprotect, ?_, ?_, ?_⟩
  · intro j k d e hd he hdq heq
    rcases row_move hc hcalls hd with ⟨rfl, rfl⟩ | ⟨-, hd⟩ <;> rcases row_move hc hcalls he with ⟨rfl, rfl⟩ | ⟨-, he⟩
    · rfl
    · exact h.one _ _ _ _ hc he hdq heq
    · exact h.one _ _ _ _ hd hc hdq heq
    · exact h.one _ _ _ _ hd he hdq heq
  · intro j d hd hdq hj
    rcases row_move hc hcalls hd with ⟨rfl, rfl⟩ | ⟨-, hd⟩
    · exact hlast j c hc hdq hj
    · exact hlast j d hd hdq hj
  · intro j k d e hd he hdq hep
    rcases row_move hc hcalls hd with ⟨rfl, rfl⟩ | ⟨-, hd⟩ <;> rcases row_move hc hcalls he with ⟨rfl, rfl⟩ | ⟨-, he⟩
    · rw [show c.quit = true from hdq] at hep
      cases hep
    · exact hquit hdq k e he hep
    · exact (hpost hep).1 j d hd hdq
    · exact h.allows j k d e hd he hdq hep
  · intro j d hd hdp
    rcases row_move hc hcalls hd with ⟨rfl, rfl⟩ | ⟨-, hd⟩
    · exact (hpost hdp).2
    · exact h.post j d hd hdp
  · have hcount : (s.calls.modify i ({ · with place := place })).countP (fun c => c.quit && c.place.joined) +
        (c.quit && c.place.joined).toNat = s.calls.countP (fun c => c.quit && c.place.joined) +
          (c.quit && place.joined).toNat :=
      Table.countP_modify hc
    have hold := h.joins
    rw [hcalls]
    omega
  · intro hr
    rcases hrunning hr with hr | hr
    · exact hstays (h.running hr)
    · exact hr
  · intro k hk
    obtain ⟨d, hd, hdq⟩ := h.quitting k (hdestructor ▸ hk)
    by_cases hik : i = k
    · subst hik
      exact ⟨{ d with place := place }, by rw [hcalls, List.getElem?_modify_eq, hd]; rfl, hdq⟩
    · exact ⟨d, by rw [hcalls, List.getElem?_modify_ne _ _ hik]; exact hd, hdq⟩
  · exact fun hd => hstays (h.returned (hdestructor ▸ hd))

/-- Once a semaphore is destroyed, a call is the one of `quit`, which destroyed it, or has returned. -/
theorem gone_of_destroyed (h : QuitOnce s) (hc : s.calls[i]? = some c) (hgone : s.headDataAvailable.destroyed = true) :
    c.place.gone = true := by
  obtain ⟨j, d, hd, hdq, hdg⟩ := h.data.mp hgone
  cases hq : c.quit with
  | true =>
    obtain rfl := h.one i j c d hc hd hq hdq
    rw [hc] at hd
    cases hd
    exact hdg
  | false =>
    have hallow := h.allows j i d c hd hc hdq hq
    cases hplace : d.place <;> simp_all [CallPlace.allows, CallPlace.gone]

/-- A statement of a call by which it neither links nor joins nor destroys. -/
theorem quiet (h : QuitOnce s) {place : CallPlace} (hc : s.calls[i]? = some c)
    (hcalls : s'.calls = s.calls.modify i ({ · with place := place })) (hfault : s'.fault = s.fault)
    (hdestructor : s'.destructor = s.destructor) (hlinked : s'.linked = s.linked) (hjoins : s'.joins = s.joins)
    (hdata : s'.headDataAvailable.destroyed = s.headDataAvailable.destroyed)
    (hprotect : s'.headWriteProtect.destroyed = s.headWriteProtect.destroyed) (hrunning : s'.running = s.running)
    (hreturned : c.place ≠ .returned)
    (hquit : c.quit = true → place.gone = c.place.gone ∧ place.joined = c.place.joined ∧
      ∀ p : CallPlace, p = .returned ∨ p = .waitProtect ∨ p.linked = true → place.allows p = true)
    (hold : c.quit = true → ∀ p, c.place.allows p = true → p = .returned ∨ p = .waitProtect ∨ p.linked = true)
    (hpost : c.quit = false → (∀ p : CallPlace, p.allows c.place = true → p.allows place = true) ∧ place ≠ .join ∧
      place.destroying = false) : QuitOnce s' := by
  refine h.move place hc hcalls hfault hdestructor ?_ ?_ ?_ ?_ ?_ ?_ hreturned ?_
  · rw [hlinked]
    exact h.last
  · intro hq j d hd hdp
    exact (hquit hq).2.2 _ (hold hq _ (h.allows i j c d hc hd hq hdp))
  · intro hq
    obtain ⟨hallows, hjoin, hdest⟩ := hpost hq
    exact ⟨fun j d hd hdq => hallows _ (h.allows j i d c hd hc hdq hq), hjoin, hdest⟩
  · rw [hjoins]
    cases hq : c.quit with
    | true => rw [(hquit hq).2.1]
    | false => rfl
  · rw [hdata, h.data]
    exact (quitAt_move hc hcalls fun hq => by rw [(hquit hq).1]).symm
  · rw [hprotect, hdata]
    exact h.protect
  · rw [hrunning]
    exact Or.inl

/-- A call gets `headWriteProtect`. -/
theorem acquire (h : QuitOnce s) (hl : Linking s) (hc : s.calls[i]? = some c) (hp : c.place = .waitProtect)
    (hpos : 0 < s.headWriteProtect.count) (hlast : quitLast s (.call i) = true) :
    QuitOnce ({ s with headWriteProtect := s.headWriteProtect.wait }.setCall i .readHead) := by
  refine h.move .readHead hc rfl rfl rfl h.last ?_ ?_ ?_ ?_ h.protect (by simp [hp]) fun hr => Or.inl hr
  · intro _ j d hd _
    have hfree := hl.locked.no_call_of_free hpos hd
    cases hplace : d.place <;> rw [hplace] at hfree <;> first | rfl | cases hfree
  · intro hq
    refine ⟨fun j d hd hdq => ?_, CallPlace.noConfusion, rfl⟩
    simp only [quitLast, hc, Option.all_some, hp, hq, Bool.false_or] at hlast
    have hwait := List.all_eq_true.mp hlast d (List.mem_of_getElem? hd)
    simp only [hdq, Bool.not_true, Bool.false_or, decide_eq_true_eq] at hwait
    rw [hwait]
    rfl
  · simp [setCall, hp, CallPlace.joined]
  · rw [quitAt_move (s := s) hc rfl fun _ => by simp [hp, CallPlace.gone]]
    exact h.data

/-- A call links its message. -/
theorem link (h : QuitOnce s) (hl : Linking s) (hc : s.calls[i]? = some c)
    (hp : c.place = .linkHead ∨ ∃ p, c.place = .walk p)
    (hcalls : s'.calls = s.calls.modify i ({ · with place := .postProtect })) (hfault : s'.fault = s.fault)
    (hdestructor : s'.destructor = s.destructor) (hlinked : s'.linked = s.linked ++ [i]) (hjoins : s'.joins = s.joins)
    (hdata : s'.headDataAvailable = s.headDataAvailable) (hprotect : s'.headWriteProtect = s.headWriteProtect)
    (hrunning : s'.running = s.running) : QuitOnce s' := by
  have hplace : c.place.gone = false ∧ c.place.joined = false ∧ c.place ≠ .returned := by
    rcases hp with hp | ⟨p, hp⟩ <;> simp [hp, CallPlace.gone, CallPlace.joined]
  -- beside a call of `postMessage` that is about to link, `quit` has not begun
  have hwaits : c.quit = false → ∀ (j : Nat) (d : LooperCall), s.calls[j]? = some d → d.quit = true →
      d.place = .waitProtect := by
    intro hq j d hd hdq
    have hallow := h.allows j i d c hd hc hdq hq
    rcases hp with hp | ⟨p, hp⟩ <;> simpa [CallPlace.allows, hp, CallPlace.linked] using hallow
  refine h.move .postProtect hc hcalls hfault hdestructor ?_ ?_ ?_ ?_ ?_ ?_ hplace.2.2 ?_
  · intro j d hd hdq hj
    rw [hlinked] at hj ⊢
    cases hq : c.quit with
    | true =>
      obtain rfl := h.one i j c d hc hd hq hdq
      exact ⟨_, rfl⟩
    | false =>
      have hjl : j ∉ s.linked := by
        rw [hl.numbered.linked j d hd, hwaits hq j d hd hdq]
        exact Bool.false_ne_true
      rcases List.mem_append.mp hj with hj | hj
      · exact absurd hj hjl
      · obtain rfl := List.mem_singleton.mp hj
        rw [hc] at hd
        cases hd
        rw [hq] at hdq
        cases hdq
  · intro hq j d hd hdp
    have hallow := h.allows i j c d hc hd hq hdp
    rcases hp with hp | ⟨p, hp⟩ <;> simpa [CallPlace.allows, hp, CallPlace.gone] using hallow
  · intro hq
    refine ⟨fun j d hd hdq => ?_, CallPlace.noConfusion, rfl⟩
    rw [hwaits hq j d hd hdq]
    rfl
  · rw [hjoins, hplace.2.1]
    rfl
  · rw [hdata, h.data]
    exact (quitAt_move hc hcalls fun _ => by rw [hplace.1]; exact Iff.rfl).symm
  · rw [hdata, hprotect]
    exact h.protect
  · rw [hrunning]
    exact Or.inl

/-- `quit` after its `pthread_join`. -/
theorem destroying (h : QuitOnce s) (hc : s.calls[i]? = some c) (hp : c.place = .join ∨ c.place.destroying = true) :
    c.quit = true := by
  cases hq : c.quit with
  | true => rfl
  | false =>
    obtain ⟨hjoin, hdest⟩ := h.post i c hc hq
    rcases hp with hp | hp
    · exact absurd hp hjoin
    · rw [hdest] at hp
      cases hp

/-- A statement of `quit` from its `pthread_join` on, but for the first `sem_destroy`. -/
theorem afterJoin (h : QuitOnce s) {place : CallPlace} (hc : s.calls[i]? = some c) (hquit : c.quit = true)
    (hcalls : s'.calls = s.calls.modify i ({ · with place := place })) (hfault : s'.fault = s.fault)
    (hdestructor : s'.destructor = s.destructor) (hlinked : s'.linked = s.linked)
    (hdata : s'.headDataAvailable.destroyed = s.headDataAvailable.destroyed) (hgone : place.gone = c.place.gone)
    (hallows : ∀ p : CallPlace, c.place.allows p = true → place.allows p = true)
    (hjoins : s'.joins + c.place.joined.toNat = s.joins + place.joined.toNat)
    (hprotect : s'.headWriteProtect.destroyed = true → s'.headDataAvailable.destroyed = true)
    (hreturned : c.place ≠ .returned) (hrunning : s'.running = false → s.running = false ∨ s'.QuitAt (· = .returned)) :
    QuitOnce s' := by
  refine h.move place hc hcalls hfault hdestructor ?_ ?_ ?_ ?_ ?_ hprotect hreturned hrunning
  · rw [hlinked]
    exact h.last
  · intro _ j d hd hdp
    exact hallows _ (h.allows i j c d hc hd hquit hdp)
  · intro hq
    rw [hquit] at hq
    cases hq
  · rw [hquit]
    exact hjoins
  · rw [hdata, h.data]
    exact (quitAt_move hc hcalls fun _ => by rw [hgone]).symm

/-- A statement of a call. -/
theorem call (h : QuitOnce s) (hl : Linking s) (hc : s.calls[i]? = some c) (hlast : quitLast s (.call i) = true)
    (hstep : CallStep s i c s') : QuitOnce s' := by
  cases hstep with
  | protectGone hp hgone =>
    have hover := h.gone_of_destroyed hc (h.protect hgone)
    rcases hp with hp | hp <;> rw [hp] at hover <;> cases hover
  | dataGone hp hgone =>
    have hover := h.gone_of_destroyed hc hgone
    rw [hp] at hover
    cases hover
  | acquire hp _ hpos => exact h.acquire hl hc hp hpos hlast
  | linkNext hp => exact h.link hl hc (Or.inr ⟨_, hp⟩) rfl rfl rfl rfl rfl rfl rfl rfl
  | linkHead hp => exact h.link hl hc (Or.inl hp) rfl rfl rfl rfl rfl rfl rfl rfl
  | clear hp | empty hp | walk hp | cleared hp | flush hp | walkNext hp | release hp =>
    refine h.quiet hc rfl rfl rfl rfl rfl rfl rfl rfl (by simp [hp]) (fun _ => ⟨?_, ?_, ?_⟩) (fun _ => ?_) fun _ => ⟨?_, ?_, ?_⟩
    all_goals simp +contextual [hp, CallPlace.allows, CallPlace.gone, CallPlace.joined, CallPlace.linked,
      CallPlace.destroying]
  | postData hp =>
    refine h.quiet hc rfl rfl rfl rfl rfl rfl rfl rfl (by simp [hp]) (fun hq => ?_) (fun _ => ?_) fun hq => ?_
    · simp [hq, hp, CallPlace.allows, CallPlace.gone, CallPlace.joined]
    · simp [hp, CallPlace.allows, CallPlace.gone]
    · simp [hq, CallPlace.allows, CallPlace.destroying]
  | join hp =>
    have hq := h.destroying hc (Or.inl hp)
    exact h.afterJoin hc hq rfl rfl rfl rfl rfl (by rw [hp]; rfl) (by simp [hp, CallPlace.allows, CallPlace.gone])
      (by rw [hp]; rfl) h.protect (by simp [hp]) Or.inl
  | destroyData hp =>
    have hq := h.destroying hc (Or.inr (by rw [hp]; rfl))
    refine h.move .destroyProtect hc rfl rfl rfl h.last ?_ ?_ ?_ ?_ (fun _ => rfl) (by simp [hp])
      fun hr => Or.inl hr
    · intro _ j d hd hdp
      simp only [quitLast, hc, Option.all_some, hp] at hlast
      have hret := List.all_eq_true.mp hlast d (List.mem_of_getElem? hd)
      simp only [hdp, Bool.false_or, decide_eq_true_eq] at hret
      simp [hret, CallPlace.allows]
    · simp [hq]
    · simp [setCall, hq, hp, CallPlace.joined]
    · refine iff_of_true rfl ⟨i, { c with place := .destroyProtect }, ?_, hq, rfl⟩
      simp [setCall, hc]
  | destroyProtect hp =>
    have hq := h.destroying hc (Or.inr (by rw [hp]; rfl))
    have hgone : s.headDataAvailable.destroyed = true := h.data.mpr ⟨i, c, hc, hq, by rw [hp]; rfl⟩
    exact h.afterJoin hc hq rfl rfl rfl rfl rfl (by rw [hp]; rfl) (by simp [hp, CallPlace.allows, CallPlace.gone])
      (by rw [hp]; rfl) (fun _ => hgone) (by simp [hp]) Or.inl
  | setRunning hp =>
    have hq := h.destroying hc (Or.inr (by rw [hp]; rfl))
    refine h.afterJoin hc hq rfl rfl rfl rfl rfl (by rw [hp]; rfl) (by simp [hp, CallPlace.allows, CallPlace.gone])
      (by rw [hp]; rfl) h.protect (by simp [hp]) fun _ => Or.inr ?_
    exact ⟨i, { c with place := .returned }, by simp [setCall, hc], hq, rfl⟩

/-- A statement of the worker. -/
theorem worker (h : QuitOnce s) (ha : AfterWorker s) (hstep : WorkerStep s s') : QuitOnce s' := by
  cases hstep with
  | dataGone hw hgone =>
    rw [ha.data hgone] at hw
    cases hw
  | protectGone hw hgone =>
    rw [ha.protect hgone] at hw
    rcases hw with hw | hw <;> cases hw
  | _ => exact ⟨h.fault, h.one, h.last, h.allows, h.post, h.joins, h.data, h.protect, h.running, h.quitting, h.returned⟩

/-- What stays as it is when a call begins. -/
theorem row_callAdd {msg : LooperMessage} {flush : Bool} (hc : s.calls[i]? = some c) :
    (s.callAdd msg flush).calls[i]? = some c := by
  rw [Looper.callAdd, List.getElem?_append_left (List.getElem?_eq_some_iff.mp hc).1]
  exact hc

/-- A call of `quit` stays where it is when another call begins. -/
theorem quitAt_callAdd {msg : LooperMessage} {flush : Bool} {p : CallPlace → Prop} (h : s.QuitAt p) :
    (s.callAdd msg flush).QuitAt p := by
  obtain ⟨j, d, hd, hdq, hp⟩ := h
  exact ⟨j, d, row_callAdd hd, hdq, hp⟩

/-- A new call is at no place that counts. -/
theorem quitAt_of_callAdd {msg : LooperMessage} {flush : Bool} {p : CallPlace → Prop} (hp : ¬ p .waitProtect)
    (h : (s.callAdd msg flush).QuitAt p) : s.QuitAt p := by
  obtain ⟨j, d, hd, hdq, hpd⟩ := h
  rcases Table.getElem?_snoc_cases hd with ⟨-, rfl⟩ | hd
  · exact absurd hpd hp
  · exact ⟨j, d, hd, hdq, hpd⟩

/-- A call begins, one of `postMessage` while no semaphore is destroyed, or the one of `quit`. -/
theorem callAdd (h : QuitOnce s) (hl : Linking s) (msg : LooperMessage) (flush : Bool)
    (hpost : msg.quit = false → s.headDataAvailable.destroyed = false)
    (hquit : msg.quit = true → ∀ c ∈ s.calls, c.quit = false) : QuitOnce (s.callAdd msg flush) := by
  have hrow : ∀ {j : Nat} {d : LooperCall}, (s.callAdd msg flush).calls[j]? = some d →
      (j = s.calls.length ∧ d = ⟨msg.quit, flush, .waitProtect⟩) ∨ s.calls[j]? = some d := Table.getElem?_snoc_cases
  -- two calls of `quit`, one of them new, are one call
  have hnew : ∀ {j : Nat} {d : LooperCall}, s.calls[j]? = some d → d.quit = true → msg.quit = true → False := by
    intro j d hd hdq hmsg
    rw [hquit hmsg d (List.mem_of_getElem? hd)] at hdq
    cases hdq
  refine ⟨h.fault, ?_, ?_, ?_, ?_, ?_, ?_, h.protect, fun hr => quitAt_callAdd (h.running hr), ?_,
    fun hd => quitAt_callAdd (h.returned hd)⟩
  · intro j k d e hd he hdq heq
    rcases hrow hd with ⟨rfl, rfl⟩ | hd <;> rcases hrow he with ⟨rfl, rfl⟩ | he
    · rfl
    · exact (hnew he heq hdq).elim
    · exact (hnew hd hdq heq).elim
    · exact h.one j k d e hd he hdq heq
  · intro j d hd hdq hj
    rcases hrow hd with ⟨rfl, -⟩ | hd
    · exact absurd (hl.numbered.lt _ hj) (Nat.lt_irrefl _)
    · exact h.last j d hd hdq hj
  · intro j k d e hd he hdq heq
    rcases hrow hd with ⟨-, rfl⟩ | hd
    · rfl
    · rcases hrow he with ⟨-, rfl⟩ | he
      · -- `quit` has destroyed nothing yet, so a new call may wait
        have hgone : d.place.gone = false := by
          cases hg : d.place.gone with
          | false => rfl
          | true =>
            have hdata := h.data.mpr ⟨j, d, hd, hdq, hg⟩
            rw [hpost heq] at hdata
            cases hdata
        simp [CallPlace.allows, hgone]
      · exact h.allows j k d e hd he hdq heq
  · intro j d hd hdp
    rcases hrow hd with ⟨-, rfl⟩ | hd
    · exact ⟨CallPlace.noConfusion, rfl⟩
    · exact h.post j d hd hdp
  · rw [show (s.callAdd msg flush).joins = s.joins from rfl, h.joins, Looper.callAdd, List.countP_append]
    simp [CallPlace.joined]
  · exact h.data.trans ⟨quitAt_callAdd, quitAt_of_callAdd Bool.false_ne_true⟩
  · intro k hk
    obtain ⟨d, hd, hdq⟩ := h.quitting k hk
    exact ⟨d, row_callAdd hd, hdq⟩

end QuitOnce

/-- In a run that meets the condition there is one call of `quit` at most, and it comes last. -/
theorem quitOnce (h : (lts.restrict fun s a => quitLast s a = true).Reachable s) : QuitOnce s := by
  refine h.restrict_invariant ?_ fun s a s' hr hlast ih hstep => ?_
  · rintro s rfl
    refine ⟨rfl, ?_, ?_, ?_, ?_, rfl, ⟨Bool.noConfusion, ?_⟩, Bool.noConfusion, Bool.noConfusion, ?_, ?_⟩
    · intro i j c d hc
      cases hc
    · intro i c hc
      cases hc
    · intro i j c d hc
      cases hc
    · intro j d hd
      cases hd
    · rintro ⟨j, d, hd, -⟩
      cases hd
    · exact fun _ => DestructorPlace.noConfusion
    · exact DestructorPlace.noConfusion
  · have hl := linking hr
    cases step_cases hstep with
    | add => exact ih.callAdd hl _ _ (fun _ => by simpa [quitLast] using hlast) Bool.noConfusion
    | quit => exact ih.callAdd hl _ _ Bool.noConfusion fun _ c hc => by simpa using List.all_eq_true.mp hlast c hc
    | destructQuit hd hrun =>
      have hnone : ∀ c ∈ s.calls, c.quit = false := by simpa [quitLast, hd, hrun] using hlast
      have hquit : QuitOnce s.quit := ih.callAdd hl _ _ Bool.noConfusion fun _ => hnone
      refine ⟨hquit.fault, hquit.one, hquit.last, hquit.allows, hquit.post, hquit.joins, hquit.data, hquit.protect,
        hquit.running, fun k hk => ?_, DestructorPlace.noConfusion⟩
      cases hk
      exact ⟨_, List.getElem?_concat_length, rfl⟩
    | destructIdle hd hrun =>
      exact ⟨ih.fault, ih.one, ih.last, ih.allows, ih.post, ih.joins, ih.data, ih.protect, ih.running,
        fun _ => DestructorPlace.noConfusion, fun _ => ih.running hrun⟩
    | @destructed j c hd hc hplace =>
      refine ⟨ih.fault, ih.one, ih.last, ih.allows, ih.post, ih.joins, ih.data, ih.protect, ih.running,
        fun _ => DestructorPlace.noConfusion, fun _ => ?_⟩
      obtain ⟨c', hc', hq⟩ := ih.quitting j hd
      rw [hc] at hc'
      cases hc'
      exact ⟨j, c, hc, hq, hplace⟩
    | call hc hcall => exact ih.call hl hc hlast hcall
    | worker hw => exact ih.worker (afterWorker hr) hw

/-! ## The end of a looper -/

/-- One call of `quit` joins once. -/
theorem QuitOnce.joins_le (h : QuitOnce s) : s.joins ≤ 1 := by
  rw [h.joins]
  refine Table.countP_le_one fun i j c d hc hd hcq hdq => ?_
  exact h.one i j c d hc hd (Bool.and_eq_true_iff.mp hcq).1 (Bool.and_eq_true_iff.mp hdq).1

/-- A beginning of a list without repetition that has the last element is the list. -/
theorem eq_nil_of_mem_prefix {l t r : List Nat} {m : Nat} (h : l ++ t = r ++ [m]) (hnodup : (l ++ t).Nodup) (hm : m ∈ l) :
    t = [] := by
  rcases List.eq_nil_or_concat t with ht | ⟨t', b, rfl⟩
  · exact ht
  · rw [List.concat_eq_append, ← List.append_assoc] at h
    obtain ⟨-, hb⟩ := List.append_inj' h rfl
    obtain rfl : b = m := List.singleton_inj.mp hb
    exact absurd rfl ((List.nodup_append.mp hnodup).2.2 b hm b (by simp))

/-- When `quit` has returned everything linked was removed from the list. -/
theorem removed_all (hr : lts.Reachable s) (h : QuitOnce s) (hw : s.worker = .returned) (hc : s.calls[i]? = some c)
    (hq : c.quit = true) (hi : i ∈ s.linked) : s.removed.map (·.1) = s.linked := by
  have hl := linking hr
  obtain ⟨q, listed, hlist⟩ := hl.listed
  have hall : s.removed.map (·.1) ++ q.items = s.linked := by rw [← hlist.taken, q.conserved, hlist.accepted]
  obtain ⟨m, hmq, htake⟩ := (passedOn hr).returned hw
  have hm : m ∈ s.takenByWorker := by
    rw [htake]
    exact List.mem_append_right _ List.mem_cons_self
  have hmr : m ∈ s.removed.map (·.1) := by
    obtain ⟨e, he, rfl⟩ := List.mem_map.mp hm
    exact List.mem_map.mpr ⟨e, (List.mem_filter.mp he).1, rfl⟩
  -- the worker took a quit message, and there is one only
  have hlt := hl.numbered.lt m (hall ▸ List.mem_append_left _ hmr)
  obtain ⟨d, hd⟩ : ∃ d, s.calls[m]? = some d := ⟨_, List.getElem?_eq_getElem hlt⟩
  have hdq : d.quit = true := (hl.numbered.quit m d hd).symm.trans hmq
  obtain rfl := h.one i m c d hc hd hq hdq
  obtain ⟨l, hlast⟩ := h.last i c hc hq hi
  have hnodup : (s.removed.map (·.1) ++ q.items).Nodup := hall ▸ hl.numbered.nodup
  have hnil := eq_nil_of_mem_prefix (hall.trans hlast) hnodup hmr
  rw [hnil, List.append_nil] at hall
  exact hall

/-- Shutdown is not clean when `quit` is called twice: the second call waits for a semaphore that the first has destroyed. -/
theorem quit_twice : ¬ ∀ s, lts.Reachable s → CleanShutdown s := by
  intro hall
  have hrun : (Lts.replay step new (LooperAct.quit :: List.replicate 5 (LooperAct.call 0) ++ List.replicate 6 LooperAct.worker ++
      List.replicate 4 (LooperAct.call 0) ++ [LooperAct.quit, .call 1])).map (·.fault) = some true := by decide
  obtain ⟨s, hs, hfault⟩ := Option.map_eq_some_iff.mp hrun
  have hr : lts.Reachable s := Lts.replay_reachable (fun _ _ _ => id) _ (.init rfl) hs
  rw [(hall s hr).fault] at hfault
  cases hfault

/-- If `quit` is executed once, no call of `postMessage` gets `headWriteProtect` after it, and every one has returned when
`quit` comes to `sem_destroy`, with none made later, then shutdown is clean. -/
theorem shutdown_clean (h : (lts.restrict fun s a => quitLast s a = true).Reachable s) : CleanShutdown s := by
  have hr := h.of_restrict
  have hquit := quitOnce h
  have hl := linking hr
  refine ⟨hquit.fault, deletes_nodup hr, hquit.joins_le, fun hdestructor => ?_⟩
  obtain ⟨i, c, hc, hq, hplace⟩ := hquit.returned hdestructor
  have hdata : s.headDataAvailable.destroyed = true := hquit.data.mpr ⟨i, c, hc, hq, by rw [hplace]; rfl⟩
  have hw := (afterWorker hr).data hdata
  refine ⟨?_, fun m hm => ?_⟩
  · have hpos : 0 < s.joins := by
      rw [hquit.joins]
      exact Table.countP_pos_of_row hc (by simp [hq, hplace, CallPlace.joined])
    have hle := hquit.joins_le
    omega
  · have hi : i ∈ s.linked := (hl.numbered.linked i c hc).mpr (by rw [hplace]; rfl)
    -- everything allocated was linked, everything linked was removed, everything removed is deleted
    have hmlinked : m ∈ s.linked := by
      have hlt : m < s.calls.length := hl.numbered.messages ▸ hm
      obtain ⟨d, hd⟩ : ∃ d, s.calls[m]? = some d := ⟨_, List.getElem?_eq_getElem hlt⟩
      refine (hl.numbered.linked m d hd).mpr ?_
      have hover := hquit.gone_of_destroyed hd hdata
      cases hdp : d.place <;> rw [hdp] at hover <;> first | rfl | cases hover
    rw [← removed_all hr hquit hw hc hq hi] at hmlinked
    have hdeleted := (disposed hr).mem_iff.mp hmlinked
    simpa [hw, WorkerPlace.hand] using hdeleted

/-- A message is posted, then the destructor runs. -/
theorem shutdown_clean_example : ∃ s, (lts.restrict fun s a => quitLast s a = true).Reachable s ∧
    s.destructor = .returned ∧ CleanShutdown s := by
  have hrun : (Lts.replayIf step quitLast new (LooperAct.postMessage 1 0 0 0 false :: List.replicate 5 (LooperAct.call 0) ++
      LooperAct.destructor :: List.replicate 5 (LooperAct.call 1) ++ List.replicate 13 LooperAct.worker ++
      List.replicate 4 (LooperAct.call 1) ++ [LooperAct.destructor])).map (·.destructor) = some .returned := by decide
  obtain ⟨s, hs, hdestructor⟩ := Option.map_eq_some_iff.mp hrun
  have hr := Lts.replayIf_reachable (L := lts) (fun _ _ _ => id) (fun _ _ => id) _ (.init rfl) hs
  exact ⟨s, hr, hdestructor, shutdown_clean hr⟩

end Looper

end LibraLive

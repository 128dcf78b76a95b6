import LibraLive.Lemmas.LooperProgress

/-!
# The quit message reaches the worker

The quit message is one of the list, and `flush` deletes what it finds there. Unless a call with `flush` gets the list while
the quit message is in it, the worker will have the message, and every other thread can stand still meanwhile except those
that hold `headWriteProtect` or owe a `sem_post`.
-/

namespace LibraLive

namespace Looper

/-- A quit message that was linked is in the list or in the hand of the worker, and the worker can still return. -/
structure QuitArrives (s : Looper) (m : Nat) : Prop where
  present : s.InList m ∨ s.worker = .postTaken m ∨ s.worker = .dispatch m
  terminates : lts.Can (·.worker = .returned) s

/-- The condition on the steps: no call with `flush` gets `headWriteProtect` while a quit message is in the list. -/
def sparesQuit (s : Looper) : LooperAct → Prop
  | .call i => ∀ c : LooperCall, s.calls[i]? = some c → c.place = .waitProtect → c.flush = true →
      ∀ m, s.InList m → s.isQuit m = false
  | _ => True

/-- What the condition gives: no quit message was flushed, and while a call clears the list there is none in it. -/
structure QuitSpared (s : Looper) : Prop where
  removed : ∀ m n, (m, some n) ∈ s.removed → s.isQuit m = false
  flushing : ∀ (j : Nat) (c : LooperCall), s.calls[j]? = some c → c.flush = true → c.place.critical = true →
    c.place.linked = false → ∀ m ∈ s.linked, s.isQuit m = true → m ∈ s.removed.map (·.1)

variable {s s' : Looper} {i : Nat} {c : LooperCall}

/-! ## The list and the pointers -/

/-- What hangs from `head` is the queue, unless the list is just being cleared. -/
theorem Listed.inList_iff {q : Fifo Nat} {listed : List Nat} (h : Listed s q listed)
    (hclear : ∀ (j : Nat) (c : LooperCall), s.calls[j]? = some c → c.place.clearing = false) (m : Nat) :
    s.InList m ↔ m ∈ q.items := by
  rw [h.same hclear]
  constructor
  · rintro ⟨l, hchain, hm⟩
    rwa [h.chain.unique hchain]
  · exact fun hm => ⟨listed, h.chain, hm⟩

/-- A linked message is on the queue or was removed from it. -/
theorem Listed.queued {q : Fifo Nat} {listed : List Nat} (h : Listed s q listed) {m : Nat} (hm : m ∈ s.linked) :
    m ∈ s.removed.map (·.1) ∨ m ∈ q.items := by
  rw [← h.accepted, ← q.conserved, h.taken] at hm
  exact List.mem_append.mp hm

/-- What is on the queue was not removed from it. -/
theorem Listed.not_removed {q : Fifo Nat} {listed : List Nat} (h : Listed s q listed) (hn : Numbered s) {m : Nat}
    (hm : m ∈ q.items) : m ∉ s.removed.map (·.1) := by
  have hnodup := hn.nodup
  rw [← h.accepted, ← q.conserved, h.taken] at hnodup
  exact fun hr => (List.nodup_append.mp hnodup).2.2 m hr m hm rfl

namespace QuitSpared

/-! ## Every step that spares the quit message keeps it -/

/-- A step that neither links nor removes, after which no call is newly at the list. -/
theorem of_same (h : QuitSpared s) (hl : Linking s) (hremoved : s'.removed = s.removed) (hlinked : s'.linked = s.linked)
    (hquit : ∀ m ∈ s.linked, s'.isQuit m = s.isQuit m)
    (hcalls : ∀ (j : Nat) (c : LooperCall), s'.calls[j]? = some c → c.flush = true → c.place.critical = true →
      c.place.linked = false → ∃ c', s.calls[j]? = some c' ∧ c'.flush = true ∧ c'.place.critical = true ∧
        c'.place.linked = false) : QuitSpared s' where
  removed m n hm := by
    rw [hremoved] at hm
    rw [hquit m (hl.linked_of_removed hm)]
    exact h.removed m n hm
  flushing j c hc hflush hcrit hlink m hm hq := by
    obtain ⟨c', hc', hflush', hcrit', hlink'⟩ := hcalls j c hc hflush hcrit hlink
    rw [hlinked] at hm
    rw [hquit m hm] at hq
    rw [hremoved]
    exact h.flushing j c' hc' hflush' hcrit' hlink' m hm hq

/-- A statement of a call that neither links nor removes nor gets `headWriteProtect`. -/
theorem move (h : QuitSpared s) (hl : Linking s) {place : CallPlace} (hc : s.calls[i]? = some c)
    (hcalls : s'.calls = s.calls.modify i ({ · with place := place })) (hremoved : s'.removed = s.removed)
    (hlinked : s'.linked = s.linked) (hquit : ∀ m, s'.isQuit m = s.isQuit m)
    (hplace : place.critical = true → place.linked = false → c.place.critical = true ∧ c.place.linked = false) :
    QuitSpared s' := by
  refine h.of_same hl hremoved hlinked (fun m _ => hquit m) fun j d hd hflush hcrit hlink => ?_
  rcases row_move hc hcalls hd with ⟨rfl, rfl⟩ | ⟨-, hd⟩
  · exact ⟨c, hc, hflush, hplace hcrit hlink⟩
  · exact ⟨d, hd, hflush, hcrit, hlink⟩

/-- A call gets `headWriteProtect`; if it is one with `flush`, no quit message is in the list. -/
theorem acquire (h : QuitSpared s) (hl : Linking s) (hc : s.calls[i]? = some c) (hp : c.place = .waitProtect)
    (hpos : 0 < s.headWriteProtect.count) (hspares : sparesQuit s (.call i))
    (hcalls : s'.calls = s.calls.modify i ({ · with place := .readHead })) (hremoved : s'.removed = s.removed)
    (hlinked : s'.linked = s.linked) (hquit : ∀ m, s'.isQuit m = s.isQuit m) : QuitSpared s' := by
  obtain ⟨q, listed, hlist⟩ := hl.listed
  refine ⟨fun m n hm => ?_, fun j d hd hflush hcrit hlink m hm hq => ?_⟩
  · rw [hquit]
    exact h.removed m n (hremoved ▸ hm)
  · rw [hlinked] at hm
    rw [hquit] at hq
    rw [hremoved]
    rcases row_move hc hcalls hd with ⟨rfl, rfl⟩ | ⟨-, hd⟩
    · refine (hlist.queued hm).resolve_right fun hitems => ?_
      have hclear : ∀ (j : Nat) (c : LooperCall), s.calls[j]? = some c → c.place.clearing = false := by
        intro k e he
        cases hce : e.place.clearing with
        | false => rfl
        | true => exact absurd (critical_of_clearing hce) (by simp [hl.locked.no_call_of_free hpos he])
      have hnot := hspares c hc hp hflush m ((hlist.inList_iff hclear m).mpr hitems)
      rw [hq] at hnot
      cases hnot
    · exact h.flushing j d hd hflush hcrit hlink m hm hq

/-- A message is flushed: it is no quit message. -/
theorem flush (h : QuitSpared s) (hl : Linking s) {m : Nat} (hc : s.calls[i]? = some c)
    (hp : c.place = .flush (some m)) : QuitSpared ((s.flushMessage i m).setCall i (.flush (s.next m))) := by
  obtain ⟨q, listed, hlist⟩ := hl.listed
  have hflush := hl.numbered.clears i c _ hc hp
  have hm : m ∈ q.items := by
    obtain ⟨t, ht, -⟩ := (hlist.flush i c _ hc hp).eq_cons
    rw [ht]
    exact List.mem_cons_self
  refine ⟨fun k n hk => ?_, fun j d hd hdflush hcrit hlink k hk hq => ?_⟩
  · rcases List.mem_append.mp hk with hk | hk
    · exact h.removed k n hk
    · obtain ⟨rfl, -⟩ := Prod.mk.injEq .. ▸ List.mem_singleton.mp hk
      cases hq : s.isQuit k with
      | false => exact hq
      | true =>
        have hgone := h.flushing i c hc hflush (by rw [hp]; rfl) (by rw [hp]; rfl) k (hlist.mem_linked hm) hq
        exact absurd hgone (hlist.not_removed hl.numbered hm)
  · have hgone : k ∈ s.removed.map (·.1) := by
      rcases row_move hc (by rfl) hd with ⟨rfl, rfl⟩ | ⟨-, hd⟩
      · exact h.flushing j c hc hflush (by rw [hp]; rfl) (by rw [hp]; rfl) k hk hq
      · exact h.flushing j d hd hdflush hcrit hlink k hk hq
    simp only [setCall, flushMessage, List.map_append, List.mem_append]
    exact Or.inl hgone

/-- A message is linked: no other call is at the list. -/
theorem link (h : QuitSpared s) (hl : Linking s) (hc : s.calls[i]? = some c) (hcrit : c.place.critical = true)
    (hcalls : s'.calls = s.calls.modify i ({ · with place := .postProtect })) (hremoved : s'.removed = s.removed)
    (hquit : ∀ m, s'.isQuit m = s.isQuit m) : QuitSpared s' := by
  refine ⟨fun m n hm => ?_, fun j d hd _ hdcrit hlink => ?_⟩
  · rw [hquit]
    exact h.removed m n (hremoved ▸ hm)
  · rcases row_move hc hcalls hd with ⟨rfl, rfl⟩ | ⟨hji, hd⟩
    · cases hlink
    · rw [hl.locked.others hc hcrit hd hji] at hdcrit
      cases hdcrit

/-- A statement of a call. -/
theorem call (h : QuitSpared s) (hl : Linking s) (hc : s.calls[i]? = some c) (hspares : sparesQuit s (.call i))
    (hstep : CallStep s i c s') : QuitSpared s' := by
  cases hstep with
  | protectGone | dataGone =>
    exact h.of_same hl rfl rfl (fun _ _ => rfl) fun j d hd hf hcr hlk => ⟨d, hd, hf, hcr, hlk⟩
  | acquire hp _ hpos => exact h.acquire hl hc hp hpos hspares rfl rfl rfl fun _ => rfl
  | flush hp => exact h.flush hl hc hp
  | @linkNext m hp => exact h.link hl hc (by rw [hp]; rfl) rfl rfl (isQuit_linkNext m i)
  | linkHead hp => exact h.link hl hc (by rw [hp]; rfl) rfl rfl fun _ => rfl
  | clear hp | empty hp | walk hp | cleared hp | walkNext hp =>
    exact h.move hl hc rfl rfl rfl (fun _ => rfl) fun _ _ => by rw [hp]; exact ⟨rfl, rfl⟩
  | postData =>
    refine h.move hl hc rfl rfl rfl (fun _ => rfl) fun hcrit => ?_
    cases hq : c.quit <;> simp [hq, CallPlace.critical] at hcrit
  | release | join | destroyData | destroyProtect | setRunning =>
    exact h.move hl hc rfl rfl rfl (fun _ => rfl) Bool.noConfusion

/-- A statement of the worker. -/
theorem worker (h : QuitSpared s) (hl : Linking s) (hstep : WorkerStep s s') : QuitSpared s' := by
  cases hstep with
  | take =>
    refine ⟨fun k n hk => ?_, fun j d hd hf hcr hlk k hk hq => ?_⟩
    · rcases List.mem_append.mp hk with hk | hk
      · exact h.removed k n hk
      · cases List.mem_singleton.mp hk
    · simp only [setWorker, List.map_append, List.mem_append]
      exact Or.inl (h.flushing j d hd hf hcr hlk k hk hq)
  | _ => exact h.of_same hl rfl rfl (fun _ _ => rfl) fun j d hd hf hcr hlk => ⟨d, hd, hf, hcr, hlk⟩

/-- A call begins. -/
theorem callAdd (h : QuitSpared s) (hl : Linking s) (msg : LooperMessage) (flush : Bool) :
    QuitSpared (s.callAdd msg flush) := by
  refine h.of_same hl rfl rfl (fun m hm => isQuit_callAdd (hl.lt_messages hm)) fun j d hd hf hcr hlk => ?_
  rcases Table.getElem?_snoc_cases hd with ⟨-, rfl⟩ | hd
  · cases hcr
  · exact ⟨d, hd, hf, hcr, hlk⟩

end QuitSpared

/-- No quit message is flushed in a run that spares it. -/
theorem quitSpared (h : (lts.restrict sparesQuit).Reachable s) : QuitSpared s := by
  refine h.restrict_invariant ?_ fun s a s' hr hspares ih hstep => ?_
  · rintro s rfl
    exact ⟨fun _ _ => List.not_mem_nil.elim, fun _ _ hc => by cases hc⟩
  · have hl := linking hr
    cases step_cases hstep with
    | add | quit => exact ih.callAdd hl _ _
    | destructQuit =>
      have hquit : QuitSpared s.quit := ih.callAdd hl _ _
      exact ⟨hquit.removed, hquit.flushing⟩
    | destructIdle | destructed => exact ⟨ih.removed, ih.flushing⟩
    | call hc hcall => exact ih.call hl hc hspares hcall
    | worker hw => exact ih.worker hl hw

/-! ## Where the quit message is -/

/-- While a quit message is on the queue nobody clears the list. -/
theorem QuitSpared.no_clearing (h : QuitSpared s) (hn : Numbered s) {q : Fifo Nat} {listed : List Nat}
    (hlist : Listed s q listed) {m : Nat} (hquit : s.isQuit m = true) (hm : m ∈ q.items) :
    ∀ (j : Nat) (c : LooperCall), s.calls[j]? = some c → c.place.clearing = false := by
  intro j c hc
  have hflush : c.flush = true → c.place.clearing = true → False := by
    intro hflush hclear
    have hlink : c.place.linked = false := by cases hplace : c.place <;> simp_all [CallPlace.clearing, CallPlace.linked]
    exact hlist.not_removed hn hm
      (h.flushing j c hc hflush (critical_of_clearing hclear) hlink m (hlist.mem_linked hm) hquit)
  cases hplace : c.place with
  | flush p => exact (hflush (hn.clears j c p hc hplace) (by rw [hplace]; rfl)).elim
  | linkHead =>
    rw [hlist.linkHead j c hc hplace] at hm
    cases hm
  | _ => rfl

/-- A linked quit message is in the list or in the hand of the worker, until the worker has returned. -/
theorem quit_present (h : (lts.restrict sparesQuit).Reachable s) {m : Nat} (hquit : s.isQuit m = true)
    (hlinked : m ∈ s.linked) (hworker : s.worker ≠ .returned) :
    s.InList m ∨ s.worker = .postTaken m ∨ s.worker = .dispatch m := by
  have hr := h.of_restrict
  have hspared := quitSpared h
  obtain ⟨q, listed, hlist⟩ := (linking hr).listed
  rcases hlist.queued hlinked with hm | hm
  · -- it was removed, and not by a call, so the worker took it and has not passed it on
    obtain ⟨⟨m, n⟩, he, rfl⟩ := List.mem_map.mp hm
    cases n with
    | some n =>
      rw [hspared.removed m n he] at hquit
      cases hquit
    | none =>
      have htaken : m ∈ s.takenByWorker := List.mem_map.mpr ⟨_, List.mem_filter.mpr ⟨he, rfl⟩, rfl⟩
      rw [(passedOn hr).running hworker] at htaken
      rcases List.mem_append.mp htaken with hm | hm
      · rw [handled_not_quit hr m hm] at hquit
        cases hquit
      · right
        cases hw : s.worker <;> rw [hw] at hm <;> simp_all [WorkerPlace.taken]
  · exact Or.inl ((hlist.inList_iff (hspared.no_clearing (linking hr).numbered hlist hquit hm) m).mpr hm)

/-! ## The worker can return -/

/-- What is linked stays linked, and a quit message stays one. -/
theorem step_keeps (hl : Linking s) {a : LooperAct} (hstep : step s a = some s') {m : Nat} (hm : m ∈ s.linked) :
    m ∈ s'.linked ∧ s'.isQuit m = s.isQuit m := by
  cases step_cases hstep with
  | add | quit => exact ⟨hm, isQuit_callAdd (hl.lt_messages hm)⟩
  | destructQuit =>
    have hquit : s.quit.isQuit m = s.isQuit m := isQuit_callAdd (hl.lt_messages hm)
    exact ⟨hm, hquit⟩
  | destructIdle | destructed => exact ⟨hm, rfl⟩
  | call _ hcall =>
    cases hcall with
    | linkNext => exact ⟨List.mem_append_left _ hm, isQuit_linkNext _ _ m⟩
    | linkHead => exact ⟨List.mem_append_left _ hm, rfl⟩
    | _ => exact ⟨hm, rfl⟩
  | worker hw => cases hw <;> exact ⟨hm, rfl⟩

/-- From a state with a linked quit message the worker can still return. -/
theorem worker_can_return (h : (lts.restrict sparesQuit).Reachable s) {m : Nat} (hquit : s.isQuit m = true)
    (hlinked : m ∈ s.linked) : lts.Can (·.worker = .returned) s := by
  obtain ⟨q, listed, hlist⟩ := (linking h.of_restrict).listed
  refine Lts.can_of_measure (I := fun s n => (lts.restrict sparesQuit).Reachable s ∧ s.isQuit m = true ∧ m ∈ s.linked ∧
    ∃ k, Ahead s k ∧ n = s.work + k) ?_ ⟨h, hquit, hlinked, _, ahead_of_listed (linking h.of_restrict) hlist, rfl⟩
  rintro s n ⟨h, hquit, hlinked, k, hk, rfl⟩
  by_cases hw : s.worker = .returned
  · exact Or.inl hw
  right
  have hr := h.of_restrict
  have hl := linking hr
  have hadvance : ∃ a s' k', Advance s k a s' k' := by
    by_cases hcrit : ∃ (j : Nat) (c : LooperCall), s.calls[j]? = some c ∧ c.place.critical = true
    · obtain ⟨j, c, hc, hcrit⟩ := hcrit
      exact advance_critical hl (afterWorker hr) hw hk hc hcrit
    · refine advance_worker hl (afterWorker hr) hw (fun htaken => ?_) fun j c hc => ?_
      · rcases quit_present h hquit hlinked hw with hin | hw' | hw'
        · exact ⟨m, hin⟩
        · rw [hw'] at htaken
          cases htaken
        · rw [hw'] at htaken
          cases htaken
      · exact Bool.eq_false_iff.mpr fun hc' => hcrit ⟨j, c, hc, hc'⟩
  obtain ⟨a, s', k', ha⟩ := hadvance
  have hspares : sparesQuit s a := by
    cases a with
    | call j => exact fun c hc hp => absurd hp (ha.acquires j c rfl hc)
    | _ => trivial
  obtain ⟨hlinked', hquit'⟩ := step_keeps hl ha.step hlinked
  exact ⟨a, s', _, ha.step, ⟨.step h ⟨hspares, ha.step⟩, hquit'.trans hquit, hlinked', k', ha.ahead, rfl⟩, ha.less⟩

/-! ## The quit message arrives -/

/-- It does not when a call with `flush` comes after: the message is deleted, and `pthread_join` waits for a worker that knows
nothing of it. -/
theorem quit_flushed : ¬ ∀ s,
    (lts.restrict fun s a => a ≠ .destructor ∧ (a = .quit → s.calls.all (!·.quit) = true)).Reachable s →
      ∀ m, s.isQuit m = true → m ∈ s.linked → s.worker ≠ .returned → QuitArrives s m := by
  intro hall
  have hrun : (Lts.replayIf step (fun s a => a ≠ .destructor && (a ≠ .quit || s.calls.all (!·.quit))) new
      (LooperAct.quit :: List.replicate 5 (LooperAct.call 0) ++
        LooperAct.postMessage 1 0 0 0 true :: List.replicate 7 (LooperAct.call 1))).map
        (fun s => (s.isQuit 0, s.linked, s.worker, s.head, s.next 1)) = some (true, [0, 1], .waitData, some 1, none) := by
    decide
  obtain ⟨s, hs, hstate⟩ := Option.map_eq_some_iff.mp hrun
  simp only [Prod.mk.injEq] at hstate
  obtain ⟨hquit, hlinked, hworker, hhead, hnext⟩ := hstate
  have hr : (lts.restrict fun s a => a ≠ .destructor ∧ (a = .quit → s.calls.all (!·.quit) = true)).Reachable s := by
    refine Lts.replayIf_reachable (fun _ _ _ => id) (fun s a hp => ?_) _ (.init rfl) hs
    obtain ⟨hdestructor, hquit⟩ := Bool.and_eq_true_iff.mp hp
    exact ⟨of_decide_eq_true hdestructor, fun ha => by simpa [ha] using hquit⟩
  rcases (hall s hr 0 hquit (by simp [hlinked]) (by simp [hworker])).present with ⟨l, hchain, hm⟩ | hw | hw
  · rw [hhead] at hchain
    obtain ⟨t, rfl, hrest⟩ := hchain.eq_cons
    rw [hnext] at hrest
    rw [hrest.eq_nil] at hm
    cases List.mem_singleton.mp hm
  · rw [hworker] at hw
    cases hw
  · rw [hworker] at hw
    cases hw

/-- While no call with `flush` gets the list with the quit message in it, that message is in the list or in the hand of the
worker from its linking until the worker has returned, and the worker can return. -/
theorem quit_arrives (h : (lts.restrict sparesQuit).Reachable s) {m : Nat} (hquit : s.isQuit m = true)
    (hlinked : m ∈ s.linked) (hworker : s.worker ≠ .returned) : QuitArrives s m where
  present := quit_present h hquit hlinked hworker
  terminates := worker_can_return h hquit hlinked

/-- A step that is no statement of a call with `flush`, or is taken before any quit message is allocated. -/
def noFlushAfterQuit (s : Looper) : LooperAct → Bool
  | .call i => (s.calls[i]?).all (!·.flush) || s.messages.all (!·.quit)
  | _ => true

/-- Such a step meets the condition. -/
theorem sparesQuit_of_noFlushAfterQuit {a : LooperAct} (h : noFlushAfterQuit s a = true) : sparesQuit s a := by
  cases a with
  | call j =>
    intro c hc _ hflush m _
    rcases Bool.or_eq_true_iff.mp h with h | h
    · rw [hc] at h
      simp [hflush] at h
    · unfold isQuit
      cases hm : s.messages[m]? with
      | none => rfl
      | some msg =>
        have hmsg := List.all_eq_true.mp h msg (List.mem_of_getElem? hm)
        simpa using hmsg
  | _ => trivial

/-- A call with `flush` comes before `quit`, whose message is in the list. -/
theorem quit_arrives_example : ∃ s, (lts.restrict sparesQuit).Reachable s ∧ s.linked = [0, 1] ∧ QuitArrives s 1 := by
  have hrun : (Lts.replayIf step noFlushAfterQuit new
      (LooperAct.postMessage 1 0 0 0 true :: List.replicate 6 (LooperAct.call 0) ++
        LooperAct.quit :: List.replicate 4 (LooperAct.call 1))).map
        (fun s => (s.isQuit 1, s.linked, s.worker)) = some (true, [0, 1], .waitData) := by
    decide
  obtain ⟨s, hs, hstate⟩ := Option.map_eq_some_iff.mp hrun
  simp only [Prod.mk.injEq] at hstate
  obtain ⟨hquit, hlinked, hworker⟩ := hstate
  have hr : (lts.restrict sparesQuit).Reachable s :=
    Lts.replayIf_reachable (fun _ _ _ => id) (fun _ _ => sparesQuit_of_noFlushAfterQuit) _ (.init rfl) hs
  exact ⟨s, hr, hlinked, quit_arrives hr hquit (by simp [hlinked]) (by simp [hworker])⟩

end Looper

end LibraLive

import LibraLive.Lemmas.LooperWorker

/-!
# A worker with something to take can go on

Whoever holds `headWriteProtect` can give it back, whoever owes a `sem_post` can pay it, and then the worker finds a token and
a message. What is still to be done for that is counted, and a step that makes it less is always there.
-/

namespace LibraLive

/-- What a call still has to do up to its second `sem_post`, where it has got `headWriteProtect`; a walk and what it links are
counted apart. -/
def CallPlace.weight : CallPlace → Nat
  | .readHead => 16
  | .flush _ => 15
  | .walk _ | .linkHead => 14
  | .postProtect => 2
  | .postData => 1
  | _ => 0

/-- What the worker still has to do up to the next message it takes. -/
def WorkerPlace.weight : WorkerPlace → Nat
  | .returned => 0
  | .takeNext _ => 1
  | .readHead => 2
  | .waitProtect => 3
  | .waitData => 4
  | .postEmpty | .delete _ => 5
  | .dispatch _ => 6
  | .postTaken _ => 7

namespace Looper

variable {s s' : Looper} {i k : Nat} {c : LooperCall} {place : CallPlace}

/-- The message is in the list that `head` leads through. -/
def InList (s : Looper) (m : Nat) : Prop := ∃ listed, Chain s.next s.head listed ∧ m ∈ listed

/-- What is to be done, without the walk. -/
def work (s : Looper) : Nat :=
  10 * (s.linked.length - s.removed.length) + s.worker.weight + (s.calls.map (·.place.weight)).sum

/-- The walk that a call is in, or is about to begin, has at most `k` steps left. -/
structure Ahead (s : Looper) (k : Nat) : Prop where
  walk : ∀ (j : Nat) (c : LooperCall) p, s.calls[j]? = some c → c.place = .walk p →
    ∃ t, Chain s.next (s.next p) t ∧ t.length ≤ k
  readHead : ∀ (j : Nat) (c : LooperCall), s.calls[j]? = some c → c.place = .readHead →
    ∃ t, Chain s.next s.head t ∧ t.length ≤ k

/-- A step that makes what is to be done less, and lets no call get `headWriteProtect`. -/
structure Advance (s : Looper) (k : Nat) (a : LooperAct) (s' : Looper) (k' : Nat) : Prop where
  step : step s a = some s'
  acquires : ∀ (j : Nat) (c : LooperCall), a = .call j → s.calls[j]? = some c → c.place ≠ .waitProtect
  ahead : Ahead s' k'
  less : s'.work + k' < s.work + k

/-! ## Counting what is to be done -/

/-- The list holds what was linked and not removed. -/
theorem Listed.length_items {q : Fifo Nat} {listed : List Nat} (h : Listed s q listed) :
    s.linked.length = s.removed.length + q.items.length := by
  rw [← h.accepted, ← q.conserved, h.taken, List.length_append, List.length_map]

/-- Moving a call changes the work by what its place counts for. -/
theorem work_setCall (hc : s.calls[i]? = some c) (hcalls : s'.calls = s.calls.modify i ({ · with place := place }))
    (hworker : s'.worker = s.worker) :
    s'.work + 10 * (s.linked.length - s.removed.length) + c.place.weight =
      s.work + 10 * (s'.linked.length - s'.removed.length) + place.weight := by
  have hsum : ((s.calls.modify i ({ · with place := place })).map (·.place.weight)).sum + c.place.weight =
      (s.calls.map (·.place.weight)).sum + place.weight := Table.sum_modify hc
  unfold work
  rw [hcalls, hworker]
  omega

/-- The length of the list bounds every walk. -/
theorem ahead_of_listed {q : Fifo Nat} {listed : List Nat} (hl : Linking s) (hlist : Listed s q listed) :
    Ahead s listed.length := by
  refine ⟨fun j c p hc hp => ?_, fun j c hc hp => ⟨listed, hlist.chain, Nat.le_refl _⟩⟩
  have hsame := hlist.same (hl.locked.no_clearing hc (by rw [hp]; rfl) (by rw [hp]; rfl))
  obtain ⟨t, ht, hlen⟩ := hlist.chain.tail (hsame ▸ hlist.walk j c p hc hp)
  exact ⟨t, ht, Nat.le_of_lt hlen⟩

/-- After a step of the call that is in the critical section only that call may be at the list. -/
theorem ahead_of_critical (hl : Linking s) (hc : s.calls[i]? = some c) (hcrit : c.place.critical = true)
    (hcalls : s'.calls = s.calls.modify i ({ · with place := place }))
    (hwalk : ∀ p, place = .walk p → ∃ t, Chain s'.next (s'.next p) t ∧ t.length ≤ k) (hread : place ≠ .readHead) :
    Ahead s' k := by
  refine ⟨fun j d p hd hp => ?_, fun j d hd hp => ?_⟩
  · rcases row_move hc hcalls hd with ⟨-, rfl⟩ | ⟨hji, hd⟩
    · exact hwalk p hp
    · have hout := hl.locked.others hc hcrit hd hji
      rw [hp] at hout
      cases hout
  · rcases row_move hc hcalls hd with ⟨-, rfl⟩ | ⟨hji, hd⟩
    · exact absurd hp hread
    · have hout := hl.locked.others hc hcrit hd hji
      rw [hp] at hout
      cases hout

/-- While no call is in the critical section there is no walk. -/
theorem ahead_of_none (hnone : ∀ (j : Nat) (c : LooperCall), s.calls[j]? = some c → c.place.critical = false) :
    Ahead s k := by
  refine ⟨fun j c p hc hp => ?_, fun j c hc hp => ?_⟩
  · have hout := hnone j c hc
    rw [hp] at hout
    cases hout
  · have hout := hnone j c hc
    rw [hp] at hout
    cases hout

/-! ## The step that is there -/

/-- A statement of a call in a looper that goes on. -/
theorem step_call (hfault : s.fault = false) (hc : s.calls[i]? = some c) : step s (.call i) = s.callStep i c := by
  rw [step, if_neg (by simp [hfault]), act, hc]
  rfl

/-- A statement of the worker in a looper that goes on. -/
theorem step_worker (hfault : s.fault = false) : step s .worker = s.workerStep s.worker := by
  rw [step, if_neg (by simp [hfault]), act]

/-- A statement of the call that holds `headWriteProtect`. -/
theorem advance_call (hl : Linking s) (hc : s.calls[i]? = some c) (hcrit : c.place.critical = true) (s' : Looper) (k' : Nat)
    (place : CallPlace) (hstep : step s (.call i) = some s')
    (hcalls : s'.calls = s.calls.modify i ({ · with place := place })) (hworker : s'.worker = s.worker)
    (hwalk : ∀ p, place = .walk p → ∃ t, Chain s'.next (s'.next p) t ∧ t.length ≤ k') (hread : place ≠ .readHead)
    (hless : 10 * (s'.linked.length - s'.removed.length) + place.weight + k' <
      10 * (s.linked.length - s.removed.length) + c.place.weight + k) : ∃ a s' k', Advance s k a s' k' := by
  refine ⟨.call i, s', k', hstep, ?_, ahead_of_critical hl hc hcrit hcalls hwalk hread, ?_⟩
  · rintro j d ⟨rfl⟩ hd hp
    rw [hc] at hd
    cases hd
    rw [hp] at hcrit
    cases hcrit
  · have hwork := work_setCall hc hcalls hworker
    omega

/-- The call that holds `headWriteProtect` goes on. -/
theorem advance_critical (hl : Linking s) (ha : AfterWorker s) (hw : s.worker ≠ .returned) (hk : Ahead s k)
    (hc : s.calls[i]? = some c) (hcrit : c.place.critical = true) : ∃ a s' k', Advance s k a s' k' := by
  have hfault : s.fault = false := Bool.eq_false_iff.mpr fun hf => hw (ha.fault hf)
  have hgone : s.headWriteProtect.destroyed = false := Bool.eq_false_iff.mpr fun hd => hw (ha.protect hd)
  obtain ⟨q, listed, hlist⟩ := hl.listed
  have hlength := hlist.length_items
  have hstep := step_call hfault hc
  cases hp : c.place with
  | readHead =>
    cases hflush : c.flush with
    | true =>
      refine advance_call hl hc hcrit (s.setCall i (.flush s.head)) k (.flush s.head) ?_ rfl rfl
        (fun _ => CallPlace.noConfusion) CallPlace.noConfusion ?_
      · rw [hstep, callStep, hp]
        exact if_pos hflush
      · rw [hp]
        exact Nat.add_lt_add_right (Nat.lt_succ_self _) k
    | false =>
      cases hhead : s.head with
      | none =>
        refine advance_call hl hc hcrit (s.setCall i .linkHead) k .linkHead ?_ rfl rfl
          (fun _ => CallPlace.noConfusion) CallPlace.noConfusion ?_
        · rw [hstep, callStep, hp]
          simp [hflush, hhead]
        · simp only [hp, CallPlace.weight, setCall]
          omega
      | some p =>
        refine advance_call hl hc hcrit (s.setCall i (.walk p)) k (.walk p) ?_ rfl rfl ?_ CallPlace.noConfusion ?_
        · rw [hstep, callStep, hp]
          simp [hflush, hhead]
        · rintro _ ⟨rfl⟩
          obtain ⟨t, ht, hlen⟩ := hk.readHead i c hc hp
          rw [hhead] at ht
          obtain ⟨t, rfl, hrest⟩ := ht.eq_cons
          exact ⟨t, hrest, Nat.le_of_succ_le hlen⟩
        · simp only [hp, CallPlace.weight, setCall]
          omega
  | flush p =>
    cases p with
    | none =>
      refine advance_call hl hc hcrit (s.setCall i .linkHead) k .linkHead ?_ rfl rfl
        (fun _ => CallPlace.noConfusion) CallPlace.noConfusion ?_
      · rw [hstep, callStep, hp]
      · simp only [hp, CallPlace.weight, setCall]
        omega
    | some p =>
      refine advance_call hl hc hcrit ((s.flushMessage i p).setCall i (.flush (s.next p))) k (.flush (s.next p)) ?_ rfl rfl
        (fun _ => CallPlace.noConfusion) CallPlace.noConfusion ?_
      · rw [hstep, callStep, hp]
      · obtain ⟨t, ht, -⟩ := (hlist.flush i c _ hc hp).eq_cons
        rw [ht, List.length_cons] at hlength
        simp only [hp, CallPlace.weight, setCall, flushMessage, List.length_append, List.length_singleton]
        omega
  | walk p =>
    obtain ⟨t, ht, hlen⟩ := hk.walk i c p hc hp
    cases hn : s.next p with
    | none =>
      refine advance_call hl hc hcrit ((s.linkNext p i).setCall i .postProtect) k .postProtect ?_ rfl rfl
        (fun _ => CallPlace.noConfusion) CallPlace.noConfusion ?_
      · rw [hstep, callStep, hp]
        simp only [hn]
      · simp only [hp, CallPlace.weight, setCall, linkNext, List.length_append, List.length_singleton]
        omega
    | some n =>
      rw [hn] at ht
      obtain ⟨t, rfl, hrest⟩ := ht.eq_cons
      rw [List.length_cons] at hlen
      refine advance_call hl hc hcrit (s.setCall i (.walk n)) (k - 1) (.walk n) ?_ rfl rfl ?_ CallPlace.noConfusion ?_
      · rw [hstep, callStep, hp]
        simp only [hn]
      · rintro _ ⟨rfl⟩
        exact ⟨t, hrest, Nat.le_sub_one_of_lt hlen⟩
      · simp only [hp, CallPlace.weight, setCall]
        omega
  | linkHead =>
    refine advance_call hl hc hcrit ((s.linkHead i).setCall i .postProtect) k .postProtect ?_ rfl rfl
      (fun _ => CallPlace.noConfusion) CallPlace.noConfusion ?_
    · rw [hstep, callStep, hp]
    · simp only [hp, CallPlace.weight, setCall, linkHead, List.length_append, List.length_singleton]
      omega
  | postProtect =>
    refine advance_call hl hc hcrit ({ s with headWriteProtect := s.headWriteProtect.post }.setCall i .postData) k .postData
      ?_ rfl rfl (fun _ => CallPlace.noConfusion) CallPlace.noConfusion ?_
    · rw [hstep, callStep, hp]
      simp only [Looper.postProtect]
      rw [if_neg (by simp [hgone])]
    · simp only [hp, CallPlace.weight, setCall]
      omega
  | _ =>
    rw [hp] at hcrit
    cases hcrit

/-- A call posts the token it owes. -/
theorem advance_postData (hfault : s.fault = false) (hgone : s.headDataAvailable.destroyed = false)
    (hnone : ∀ (j : Nat) (c : LooperCall), s.calls[j]? = some c → c.place.critical = false)
    (hc : s.calls[i]? = some c) (hp : c.place = .postData) : ∃ a s' k', Advance s k a s' k' := by
  have hweight : (if c.quit then CallPlace.join else .returned).weight = 0 ∧
      (if c.quit then CallPlace.join else .returned).critical = false := by
    cases c.quit <;> exact ⟨rfl, rfl⟩
  refine ⟨.call i, { s with headDataAvailable := s.headDataAvailable.post }.setCall i (if c.quit then .join else .returned), k,
    ?_, ?_, ahead_of_none ?_, ?_⟩
  · rw [step_call hfault hc, callStep, hp]
    simp only [postData]
    rw [if_neg (by simp [hgone])]
  · rintro j d ⟨rfl⟩ hd hplace
    rw [hc] at hd
    cases hd
    rw [hp] at hplace
    cases hplace
  · intro j d hd
    rcases row_move hc rfl hd with ⟨-, rfl⟩ | ⟨-, hd⟩
    · exact hweight.2
    · exact hnone j d hd
  · have hwork : ({ s with headDataAvailable := s.headDataAvailable.post }.setCall i
        (if c.quit then .join else .returned)).work + 10 * (s.linked.length - s.removed.length) + c.place.weight =
          s.work + 10 * (s.linked.length - s.removed.length) + (if c.quit then CallPlace.join else .returned).weight :=
      work_setCall hc (by rfl) (by rfl)
    rw [hp, hweight.1, CallPlace.weight] at hwork
    omega

/-- A message in the list for which there is no token is owed one, while no call holds `headWriteProtect`. -/
theorem owed_of_listed {q : Fifo Nat} {listed : List Nat} (hlist : Listed s q listed) (hpos : 0 < listed.length)
    (hworker : s.worker = .waitData) (hcount : s.headDataAvailable.count = 0)
    (hnone : ∀ (j : Nat) (c : LooperCall), s.calls[j]? = some c → c.place.critical = false) :
    ∃ (j : Nat) (c : LooperCall), s.calls[j]? = some c ∧ c.place = .postData := by
  have henough := hlist.enough
  simp only [tokens, hcount, hworker, WorkerPlace.token, Bool.toNat_false] at henough
  obtain ⟨c, hc, howes⟩ := List.countP_pos_iff.mp (show 0 < s.calls.countP (·.place.owes) by omega)
  obtain ⟨j, hj⟩ := List.getElem?_of_mem hc
  refine ⟨j, c, hj, ?_⟩
  have hcrit := hnone j c hj
  cases hplace : c.place <;> simp_all [CallPlace.owes, CallPlace.critical]

/-- While no call holds `headWriteProtect`, the worker goes on, or a call posts what it owes. -/
theorem advance_worker (hl : Linking s) (ha : AfterWorker s) (hw : s.worker ≠ .returned)
    (hhead : s.worker.taken = [] → ∃ m, s.InList m)
    (hnone : ∀ (j : Nat) (c : LooperCall), s.calls[j]? = some c → c.place.critical = false) :
    ∃ a s' k', Advance s k a s' k' := by
  have hfault : s.fault = false := Bool.eq_false_iff.mpr fun hf => hw (ha.fault hf)
  have hgone : s.headWriteProtect.destroyed = false := Bool.eq_false_iff.mpr fun hd => hw (ha.protect hd)
  have hdgone : s.headDataAvailable.destroyed = false := Bool.eq_false_iff.mpr fun hd => hw (ha.data hd)
  obtain ⟨q, listed, hlist⟩ := hl.listed
  have hgo : ∀ s', s.workerStep s.worker = some s' → s'.calls = s.calls → s'.work < s.work →
      ∃ a s' k', Advance s k a s' k' := by
    intro s' hs' hcalls hless
    refine ⟨.worker, s', k, (step_worker hfault).trans hs', fun _ _ h => (by cases h), ahead_of_none ?_, by omega⟩
    rw [hcalls]
    exact hnone
  -- every statement but the taking brings the worker nearer to its next message and leaves the list
  have hnear : ∀ s', s.workerStep s.worker = some s' → s'.calls = s.calls → s'.linked = s.linked →
      s'.removed = s.removed → s'.worker.weight < s.worker.weight → ∃ a s' k', Advance s k a s' k' := by
    intro s' hs' hcalls hlinked hremoved hweight
    refine hgo s' hs' hcalls ?_
    unfold work
    rw [hcalls, hlinked, hremoved]
    omega
  cases hp : s.worker with
  | waitData =>
    by_cases hpos : s.headDataAvailable.count = 0
    · obtain ⟨m, l, hchain, hm⟩ := hhead (by rw [hp]; rfl)
      have hlist_pos : 0 < listed.length := by
        rw [hlist.chain.unique hchain]
        exact List.length_pos_of_mem hm
      obtain ⟨j, c, hj, hplace⟩ := owed_of_listed hlist hlist_pos hp hpos hnone
      exact advance_postData hfault hdgone hnone hj hplace
    · refine hnear ({ s with headDataAvailable := s.headDataAvailable.wait }.setWorker .waitProtect) ?_ rfl rfl rfl ?_
      · rw [hp, workerStep, Looper.waitData, if_neg (by simp [hdgone]), if_neg hpos]
        rfl
      · rw [hp]
        exact Nat.lt_succ_self 3
  | waitProtect =>
    have hcount : s.calls.countP (·.place.critical) = 0 := by
      rw [List.countP_eq_zero]
      intro c hc hcrit
      obtain ⟨j, hj⟩ := List.getElem?_of_mem hc
      rw [hnone j c hj] at hcrit
      cases hcrit
    have hlock := hl.locked
    simp only [Locked, hcount, hp, WorkerPlace.critical, Bool.toNat_false] at hlock
    refine hnear ({ s with headWriteProtect := s.headWriteProtect.wait }.setWorker .readHead) ?_ rfl rfl rfl ?_
    · rw [hp, workerStep, waitProtect, if_neg (by simp [hgone]), if_neg (by omega)]
      rfl
    · rw [hp]
      exact Nat.lt_succ_self 2
  | readHead =>
    obtain ⟨m, l, hchain, hm⟩ := hhead (by rw [hp]; rfl)
    cases hh : s.head with
    | none =>
      rw [hh] at hchain
      rw [hchain.eq_nil] at hm
      cases hm
    | some p =>
      refine hnear (s.setWorker (.takeNext p)) ?_ rfl rfl rfl ?_
      · rw [hp, workerStep, hh]
        rfl
      · rw [hp]
        exact Nat.lt_succ_self 1
  | takeNext p =>
    refine hgo ({ s with head := s.next p, removed := s.removed ++ [(p, none)] }.setWorker (.postTaken p)) ?_ rfl ?_
    · rw [hp, workerStep]
      rfl
    · have hlength := hlist.length_items
      have hsame := hlist.same (hl.locked.no_clearing_of_worker (by rw [hp]; rfl))
      obtain ⟨t, rfl, -⟩ := (hlist.takeNext p hp ▸ hlist.chain).eq_cons
      rw [hsame, List.length_cons] at hlength
      simp only [work, setWorker, hp, WorkerPlace.weight, List.length_append, List.length_singleton]
      omega
  | postEmpty =>
    refine hnear ({ s with headWriteProtect := s.headWriteProtect.post }.setWorker .waitData) ?_ rfl rfl rfl ?_
    · rw [hp, workerStep, postProtect, if_neg (by simp [hgone])]
      rfl
    · rw [hp]
      exact Nat.lt_succ_self 4
  | postTaken p =>
    refine hnear ({ s with headWriteProtect := s.headWriteProtect.post }.setWorker (.dispatch p)) ?_ rfl rfl rfl ?_
    · rw [hp, workerStep, postProtect, if_neg (by simp [hgone])]
      rfl
    · rw [hp]
      exact Nat.lt_succ_self 6
  | dispatch p =>
    cases hq : s.isQuit p with
    | true =>
      refine hnear ({ s with deletes := s.deletes ++ [p] }.setWorker .returned) ?_ rfl rfl rfl ?_
      · rw [hp, workerStep, if_pos hq]
        rfl
      · rw [hp]
        exact Nat.succ_pos 5
    | false =>
      refine hnear ({ s with handled := s.handled ++ [p] }.setWorker (.delete p)) ?_ rfl rfl rfl ?_
      · rw [hp, workerStep, if_neg (by simp [hq])]
        rfl
      · rw [hp]
        exact Nat.lt_succ_self 5
  | delete p =>
    refine hnear ({ s with deletes := s.deletes ++ [p] }.setWorker .waitData) ?_ rfl rfl rfl ?_
    · rw [hp, workerStep]
      rfl
    · rw [hp]
      exact Nat.lt_succ_self 4
  | returned => exact absurd hp hw

end Looper

end LibraLive

import LibraLive.Fifo
import LibraLive.Chain
import LibraLive.Lemmas.LooperLock

/-!
# The list of a `Looper` is a queue

At every statement of every thread the pointers from `head` on lead through a list, and what of it is not deleted yet is the
rest of a queue: linking a message pushes it, the worker and the loop of `flush` pop. The tokens of `headDataAvailable`, with
those still to be posted and the one the worker has in hand, are enough for the list.
-/

namespace LibraLive

namespace Looper

variable {s s' : Looper} {q : Fifo Nat} {listed : List Nat} {i j : Nat} {c d : LooperCall} {place : CallPlace}

/-- The tokens of `headDataAvailable`: posted, still to be posted for a message that is linked, waited for. -/
def tokens (s : Looper) : Nat :=
  s.headDataAvailable.count + s.calls.countP (·.place.owes) + s.worker.token.toNat

/-- `head` leads through `listed`; the queue holds what is linked and not removed, which is `listed` unless a call is just
clearing it. -/
structure Listed (s : Looper) (q : Fifo Nat) (listed : List Nat) : Prop where
  accepted : q.accepted = s.linked
  taken : q.taken = s.removed.map (·.1)
  chain : Chain s.next s.head listed
  sub : ∀ m ∈ listed, m ∈ s.linked
  enough : listed.length ≤ s.tokens
  same : (∀ (j : Nat) (c : LooperCall), s.calls[j]? = some c → c.place.clearing = false) → q.items = listed
  flush : ∀ (j : Nat) (c : LooperCall) h, s.calls[j]? = some c → c.place = .flush h → Chain s.next h q.items
  linkHead : ∀ (j : Nat) (c : LooperCall), s.calls[j]? = some c → c.place = .linkHead → q.items = []
  walk : ∀ (j : Nat) (c : LooperCall) h, s.calls[j]? = some c → c.place = .walk h → h ∈ q.items
  takeNext : ∀ m, s.worker = .takeNext m → s.head = some m

/-! ## The heap -/

/-- `h->next = msg` writes one pointer. -/
theorem next_linkNext {h : Nat} (hlt : h < s.messages.length) (msg j : Nat) :
    (s.linkNext h msg).next j = if j = h then some msg else s.next j := by
  unfold next linkNext
  by_cases hj : j = h
  · subst hj
    rw [if_pos rfl, List.getElem?_modify_eq, List.getElem?_eq_getElem hlt]
    rfl
  · rw [if_neg hj, List.getElem?_modify_ne _ _ (Ne.symm hj)]

/-- It makes no message a quit message. -/
theorem isQuit_linkNext (h msg j : Nat) : (s.linkNext h msg).isQuit j = s.isQuit j := by
  unfold isQuit linkNext
  by_cases hj : j = h
  · subst hj
    rw [List.getElem?_modify_eq]
    cases s.messages[j]? <;> rfl
  · rw [List.getElem?_modify_ne _ _ (Ne.symm hj)]

/-- A new message points to no other, and the others point where they did. -/
theorem next_callAdd {msg : LooperMessage} (hmsg : msg.next = none) (flush : Bool) (j : Nat) :
    (s.callAdd msg flush).next j = s.next j := by
  unfold next callAdd
  rcases Nat.lt_trichotomy j s.messages.length with hj | rfl | hj
  · rw [List.getElem?_append_left hj]
  · rw [List.getElem?_concat_length, List.getElem?_eq_none (Nat.le_refl _)]
    exact hmsg
  · rw [List.getElem?_eq_none (by simp; omega), List.getElem?_eq_none (by omega)]

/-! ## The calls and their messages -/

/-- A call after call `i` moved. -/
theorem row_move (hc : s.calls[i]? = some c) (hcalls : s'.calls = s.calls.modify i ({ · with place := place }))
    (hd : s'.calls[j]? = some d) : (j = i ∧ d = { c with place := place }) ∨ (j ≠ i ∧ s.calls[j]? = some d) := by
  rw [hcalls] at hd
  rcases Table.getElem?_modify_cases hd with ⟨rfl, c', hc', rfl⟩ | hd
  · rw [hc] at hc'
    cases hc'
    exact Or.inl ⟨rfl, rfl⟩
  · exact Or.inr hd

/-- A step that links nothing and moves call `i`. -/
theorem Numbered.move (h : Numbered s) (hc : s.calls[i]? = some c)
    (hcalls : s'.calls = s.calls.modify i ({ · with place := place })) (hmessages : s'.messages = s.messages)
    (hlinked : s'.linked = s.linked) (hplace : place.linked = c.place.linked)
    (hflush : ∀ p, place = .flush p → c.flush = true) : Numbered s' := by
  have hrow := fun j d (hd : s'.calls[j]? = some d) => row_move hc hcalls hd
  refine ⟨?_, ?_, ?_, ?_, ?_, ?_, ?_, ?_⟩
  · rw [hmessages, hcalls, List.length_modify]
    exact h.messages
  · intro j d hd
    unfold isQuit
    rw [hmessages]
    rcases hrow j d hd with ⟨rfl, rfl⟩ | ⟨-, hd⟩
    · exact h.quit j c hc
    · exact h.quit j d hd
  · intro j d hd
    rcases hrow j d hd with ⟨rfl, rfl⟩ | ⟨-, hd⟩
    · exact h.noFlush j c hc
    · exact h.noFlush j d hd
  · intro j d p hd hp
    rcases hrow j d hd with ⟨rfl, rfl⟩ | ⟨-, hd⟩
    · exact hflush p hp
    · exact h.clears j d p hd hp
  · intro j d hd
    rw [hlinked]
    rcases hrow j d hd with ⟨rfl, rfl⟩ | ⟨-, hd⟩
    · rw [h.linked j c hc]
      exact iff_of_eq (by rw [hplace])
    · exact h.linked j d hd
  · rw [hlinked, hcalls, List.length_modify]
    exact h.lt
  · exact hlinked ▸ h.nodup
  · intro j hj
    unfold next
    rw [hmessages]
    exact h.fresh j (hlinked ▸ hj)

/-- A step that links message `i`. -/
theorem Numbered.link (h : Numbered s) (hc : s.calls[i]? = some c) (hi : i ∉ s.linked)
    (hcalls : s'.calls = s.calls.modify i ({ · with place := .postProtect }))
    (hmessages : s'.messages.length = s.messages.length) (hquit : ∀ j, s'.isQuit j = s.isQuit j)
    (hlinked : s'.linked = s.linked ++ [i]) (hnext : ∀ j, j ∉ s.linked → s'.next j = s.next j) : Numbered s' := by
  have hrow := fun j d (hd : s'.calls[j]? = some d) => row_move hc hcalls hd
  refine ⟨?_, ?_, ?_, ?_, ?_, ?_, ?_, ?_⟩
  · rw [hmessages, hcalls, List.length_modify]
    exact h.messages
  · intro j d hd
    rw [hquit]
    rcases hrow j d hd with ⟨rfl, rfl⟩ | ⟨-, hd⟩
    · exact h.quit j c hc
    · exact h.quit j d hd
  · intro j d hd
    rcases hrow j d hd with ⟨rfl, rfl⟩ | ⟨-, hd⟩
    · exact h.noFlush j c hc
    · exact h.noFlush j d hd
  · intro j d p hd hp
    rcases hrow j d hd with ⟨rfl, rfl⟩ | ⟨-, hd⟩
    · cases hp
    · exact h.clears j d p hd hp
  · intro j d hd
    rw [hlinked, List.mem_append, List.mem_singleton]
    rcases hrow j d hd with ⟨rfl, rfl⟩ | ⟨hne, hd⟩
    · simp [CallPlace.linked]
    · rw [← h.linked j d hd]
      exact or_iff_left hne
  · intro j hj
    rw [hcalls, List.length_modify]
    rw [hlinked, List.mem_append, List.mem_singleton] at hj
    rcases hj with hj | rfl
    · exact h.lt j hj
    · exact (List.getElem?_eq_some_iff.mp hc).1
  · rw [hlinked]
    exact List.nodup_append.mpr ⟨h.nodup, List.pairwise_singleton _ i, by
      intro a ha b hb
      rw [List.mem_singleton.mp hb]
      rintro rfl
      exact hi ha⟩
  · intro j hj
    rw [hlinked, List.mem_append, not_or] at hj
    rw [hnext j hj.1]
    exact h.fresh j hj.1

/-- A call begins. -/
theorem Numbered.callAdd (h : Numbered s) {msg : LooperMessage} {flush : Bool} (hmsg : msg.next = none)
    (hflush : msg.quit = true → flush = false) : Numbered (s.callAdd msg flush) := by
  have hrow : ∀ (j : Nat) (d : LooperCall), (s.callAdd msg flush).calls[j]? = some d →
      (j = s.calls.length ∧ d = ⟨msg.quit, flush, .waitProtect⟩) ∨ s.calls[j]? = some d :=
    fun j d hd => Table.getElem?_snoc_cases hd
  refine ⟨?_, ?_, ?_, ?_, ?_, ?_, h.nodup, ?_⟩
  · simp only [Looper.callAdd, List.length_append, h.messages, List.length_singleton]
  · intro j d hd
    rcases hrow j d hd with ⟨rfl, rfl⟩ | hd
    · simp [isQuit, Looper.callAdd, ← h.messages]
    · rw [← h.quit j d hd]
      have hj : j < s.messages.length := h.messages ▸ (List.getElem?_eq_some_iff.mp hd).1
      simp only [isQuit, Looper.callAdd, List.getElem?_append_left hj]
  · intro j d hd
    rcases hrow j d hd with ⟨rfl, rfl⟩ | hd
    · exact hflush
    · exact h.noFlush j d hd
  · intro j d p hd hp
    rcases hrow j d hd with ⟨rfl, rfl⟩ | hd
    · cases hp
    · exact h.clears j d p hd hp
  · intro j d hd
    rcases hrow j d hd with ⟨rfl, rfl⟩ | hd
    · exact ⟨fun hj => absurd (h.lt _ hj) (Nat.lt_irrefl _), fun hj => by cases hj⟩
    · exact h.linked j d hd
  · intro j hj
    simp only [Looper.callAdd, List.length_append, List.length_singleton]
    exact Nat.lt_succ_of_lt (h.lt j hj)
  · intro j hj
    rw [next_callAdd hmsg]
    exact h.fresh j hj

/-! ## The list and the queue -/

/-- Whoever clears the list holds `headWriteProtect`. -/
theorem critical_of_clearing (h : place.clearing = true) : place.critical = true := by
  cases place with
  | flush _ | linkHead => rfl
  | _ => cases h

/-- While a call is in the critical section the others are not. -/
theorem Locked.others (hl : Locked s) (hc : s.calls[i]? = some c) (hcrit : c.place.critical = true)
    (hd : s.calls[j]? = some d) (hne : j ≠ i) : d.place.critical = false := by
  cases hcritd : d.place.critical with
  | false => rfl
  | true => exact absurd (hl.call_unique hd hc hcritd hcrit) hne

/-- While a call that is not clearing the list is in the critical section, nobody clears it. -/
theorem Locked.no_clearing (hl : Locked s) (hc : s.calls[i]? = some c) (hcrit : c.place.critical = true)
    (hclear : c.place.clearing = false) : ∀ (j : Nat) (d : LooperCall), s.calls[j]? = some d → d.place.clearing = false := by
  intro j d hd
  by_cases hji : j = i
  · subst hji
    rw [hc] at hd
    cases hd
    exact hclear
  · cases hcd : d.place.clearing with
    | false => rfl
    | true => exact absurd (critical_of_clearing hcd) (by simp [hl.others hc hcrit hd hji])

/-- While the worker is in its critical section, nobody clears it either. -/
theorem Locked.no_clearing_of_worker (hl : Locked s) (hw : s.worker.critical = true) :
    ∀ (j : Nat) (d : LooperCall), s.calls[j]? = some d → d.place.clearing = false := by
  intro j d hd
  cases hcd : d.place.clearing with
  | false => rfl
  | true => exact absurd (critical_of_clearing hcd) (by simp [hl.no_call hw hd])

/-- Moving a call changes the tokens by what it still has to post. -/
theorem tokens_setCall (place : CallPlace) (hc : s.calls[i]? = some c)
    (hcalls : s'.calls = s.calls.modify i ({ · with place := place })) (hworker : s'.worker = s.worker) {n : Nat}
    (hcount : s'.headDataAvailable.count + place.owes.toNat = s.headDataAvailable.count + c.place.owes.toNat + n) :
    s'.tokens = s.tokens + n := by
  have hplaces := countP_setCall (p := CallPlace.owes) hc place
  unfold tokens
  rw [hcalls, hworker]
  omega

/-- Everything linked is on the queue or was removed. -/
theorem Listed.mem_linked (h : Listed s q listed) {m : Nat} (hm : m ∈ q.items) : m ∈ s.linked := by
  rw [← h.accepted, ← q.conserved]
  exact List.mem_append_right _ hm

/-- A step of a call that neither links nor removes a message. -/
theorem Listed.move (h : Listed s q listed) (hc : s.calls[i]? = some c)
    (hcalls : s'.calls = s.calls.modify i ({ · with place := place })) (hmessages : s'.messages = s.messages)
    (hhead : s'.head = s.head) (hremoved : s'.removed = s.removed) (hlinked : s'.linked = s.linked)
    (hworker : s'.worker = s.worker)
    (hcount : s'.headDataAvailable.count + place.owes.toNat = s.headDataAvailable.count + c.place.owes.toNat)
    (hclear : place.clearing = false → c.place.clearing = false)
    (hflush : ∀ p, place = .flush p → Chain s.next p q.items) (hempty : place = .linkHead → q.items = [])
    (hwalk : ∀ p, place = .walk p → p ∈ q.items) : Listed s' q listed := by
  have hrow := fun j d (hd : s'.calls[j]? = some d) => row_move hc hcalls hd
  have hnext : s'.next = s.next := by
    funext j
    unfold next
    rw [hmessages]
  refine ⟨?_, ?_, ?_, ?_, ?_, ?_, ?_, ?_, ?_, ?_⟩
  · rw [hlinked, h.accepted]
  · rw [hremoved, h.taken]
  · rw [hnext, hhead]
    exact h.chain
  · rw [hlinked]
    exact h.sub
  · rw [tokens_setCall (n := 0) place hc hcalls hworker hcount]
    exact h.enough
  · intro hall
    refine h.same fun j d hd => ?_
    by_cases hji : j = i
    · subst hji
      rw [hc] at hd
      cases hd
      refine hclear (hall j { c with place := place } ?_)
      rw [hcalls, List.getElem?_modify_eq, hc]
      rfl
    · exact hall j d (by rw [hcalls, List.getElem?_modify_ne _ _ (Ne.symm hji)]; exact hd)
  · intro j d p hd hp
    rw [hnext]
    rcases hrow j d hd with ⟨rfl, rfl⟩ | ⟨-, hd⟩
    · exact hflush p hp
    · exact h.flush j d p hd hp
  · intro j d hd hp
    rcases hrow j d hd with ⟨rfl, rfl⟩ | ⟨-, hd⟩
    · exact hempty hp
    · exact h.linkHead j d hd hp
  · intro j d p hd hp
    rcases hrow j d hd with ⟨rfl, rfl⟩ | ⟨-, hd⟩
    · exact hwalk p hp
    · exact h.walk j d p hd hp
  · rw [hworker, hhead]
    exact h.takeNext

/-- A step of a call inside the critical section that changes the queue: no other thread looks at the list meanwhile. -/
theorem Listed.change {q' : Fifo Nat} {listed' : List Nat} (place : CallPlace) (hl : Locked s) (hc : s.calls[i]? = some c)
    (hcrit : c.place.critical = true) (hcalls : s'.calls = s.calls.modify i ({ · with place := place }))
    (hworker : s'.worker = s.worker) (haccepted : q'.accepted = s'.linked) (htaken : q'.taken = s'.removed.map (·.1))
    (hchain : Chain s'.next s'.head listed') (hsub : ∀ m ∈ listed', m ∈ s'.linked) (henough : listed'.length ≤ s'.tokens)
    (hsame : place.clearing = false → q'.items = listed') (hflush : ∀ p, place = .flush p → Chain s'.next p q'.items)
    (hempty : place ≠ .linkHead) (hwalk : ∀ p, place ≠ .walk p) : Listed s' q' listed' := by
  have hrow := fun j d (hd : s'.calls[j]? = some d) => row_move hc hcalls hd
  have hother : ∀ (j : Nat) (d : LooperCall), j ≠ i → s.calls[j]? = some d → d.place.critical = false :=
    fun j d hji hd => hl.others hc hcrit hd hji
  refine ⟨haccepted, htaken, hchain, hsub, henough, ?_, ?_, ?_, ?_, ?_⟩
  · intro hall
    refine hsame (hall i { c with place := place } ?_)
    rw [hcalls, List.getElem?_modify_eq, hc]
    rfl
  · intro j d p hd hp
    rcases hrow j d hd with ⟨rfl, rfl⟩ | ⟨hji, hd⟩
    · exact hflush p hp
    · have := hother j d hji hd
      rw [hp] at this
      cases this
  · intro j d hd hp
    rcases hrow j d hd with ⟨rfl, rfl⟩ | ⟨hji, hd⟩
    · exact absurd hp hempty
    · have := hother j d hji hd
      rw [hp] at this
      cases this
  · intro j d p hd hp
    rcases hrow j d hd with ⟨rfl, rfl⟩ | ⟨hji, hd⟩
    · exact absurd hp (hwalk p)
    · have := hother j d hji hd
      rw [hp] at this
      cases this
  · intro m hm
    rw [hworker] at hm
    have hcritw := hl.no_worker hc hcrit
    rw [hm] at hcritw
    cases hcritw

/-- A step of the worker that leaves the list alone. -/
theorem Listed.idle (h : Listed s q listed) (hcalls : s'.calls = s.calls) (hmessages : s'.messages = s.messages)
    (hhead : s'.head = s.head) (hremoved : s'.removed = s.removed) (hlinked : s'.linked = s.linked)
    (henough : listed.length ≤ s'.tokens) (htake : ∀ m, s'.worker = .takeNext m → s.head = some m) :
    Listed s' q listed := by
  have hnext : s'.next = s.next := by
    funext j
    unfold next
    rw [hmessages]
  refine ⟨?_, ?_, ?_, ?_, henough, ?_, ?_, ?_, ?_, ?_⟩
  · rw [hlinked, h.accepted]
  · rw [hremoved, h.taken]
  · rw [hnext, hhead]
    exact h.chain
  · rw [hlinked]
    exact h.sub
  · rw [hcalls]
    exact h.same
  · rw [hcalls, hnext]
    exact h.flush
  · rw [hcalls]
    exact h.linkHead
  · rw [hcalls]
    exact h.walk
  · rw [hhead]
    exact htake

/-! ## Every step keeps the list -/

/-- The list, the lock and the calls of a looper fit together. -/
structure Linking (s : Looper) : Prop where
  locked : Locked s
  numbered : Numbered s
  listed : ∃ q listed, Listed s q listed

/-- A step of a call that neither links nor removes a message. -/
theorem Linking.move (h : Linking s) (hc : s.calls[i]? = some c) (hstep : CallStep s i c s')
    (hcalls : s'.calls = s.calls.modify i ({ · with place := place })) (hmessages : s'.messages = s.messages)
    (hhead : s'.head = s.head) (hremoved : s'.removed = s.removed) (hlinked : s'.linked = s.linked)
    (hworker : s'.worker = s.worker)
    (hcount : s'.headDataAvailable.count + place.owes.toNat = s.headDataAvailable.count + c.place.owes.toNat)
    (hplace : place.linked = c.place.linked) (hclear : place.clearing = false → c.place.clearing = false)
    (hclears : ∀ p, place = .flush p → c.flush = true)
    (hq : ∀ q listed, Listed s q listed → (∀ p, place = .flush p → Chain s.next p q.items) ∧
      (place = .linkHead → q.items = []) ∧ ∀ p, place = .walk p → p ∈ q.items) : Linking s' := by
  obtain ⟨q, listed, hlist⟩ := h.listed
  obtain ⟨hflush, hempty, hwalk⟩ := hq q listed hlist
  exact ⟨h.locked.call hc hstep, h.numbered.move hc hcalls hmessages hlinked hplace hclears, q, listed,
    hlist.move hc hcalls hmessages hhead hremoved hlinked hworker hcount hclear hflush hempty hwalk⟩

/-- The same for a place outside the part of `addMessage` that looks at the list. -/
theorem Linking.pass (h : Linking s) (hc : s.calls[i]? = some c) (hstep : CallStep s i c s')
    (hcalls : s'.calls = s.calls.modify i ({ · with place := place })) (hmessages : s'.messages = s.messages)
    (hhead : s'.head = s.head) (hremoved : s'.removed = s.removed) (hlinked : s'.linked = s.linked)
    (hworker : s'.worker = s.worker)
    (hcount : s'.headDataAvailable.count + place.owes.toNat = s.headDataAvailable.count + c.place.owes.toNat)
    (hplace : place.linked = c.place.linked) (hclear : place.clearing = false → c.place.clearing = false)
    (hflush : ∀ p, place ≠ .flush p) (hempty : place ≠ .linkHead) (hwalk : ∀ p, place ≠ .walk p) : Linking s' :=
  h.move hc hstep hcalls hmessages hhead hremoved hlinked hworker hcount hplace hclear
    (fun p hp => absurd hp (hflush p))
    fun _ _ _ => ⟨fun p hp => absurd hp (hflush p), fun hp => absurd hp hempty, fun p hp => absurd hp (hwalk p)⟩

/-- The loop of `flush` deletes the message it is at. -/
theorem Linking.flushStep {m : Nat} (h : Linking s) (hc : s.calls[i]? = some c) (hp : c.place = .flush (some m))
    (hstep : CallStep s i c ((s.flushMessage i m).setCall i (.flush (s.next m)))) :
    Linking ((s.flushMessage i m).setCall i (.flush (s.next m))) := by
  obtain ⟨q, listed, hlist⟩ := h.listed
  have hcrit : c.place.critical = true := by rw [hp]; rfl
  obtain ⟨t, ht, hrest⟩ := (hlist.flush i c _ hc hp).eq_cons
  refine ⟨h.locked.call hc hstep, ?_, q.pop, listed, ?_⟩
  · exact h.numbered.move hc rfl rfl rfl (by rw [hp]; rfl) fun _ _ => h.numbered.clears i c _ hc hp
  · refine Listed.change (.flush (s.next m)) h.locked hc hcrit rfl rfl hlist.accepted ?_ hlist.chain hlist.sub ?_ ?_ ?_
      ?_ ?_
    · simp [setCall, flushMessage, ht, hlist.taken]
    · have htokens : ((s.flushMessage i m).setCall i (.flush (s.next m))).tokens = s.tokens + 0 :=
        tokens_setCall (.flush (s.next m)) hc (by rfl) (by rfl) (by rw [hp]; rfl)
      rw [htokens]
      exact hlist.enough
    · intro hclear
      cases hclear
    · intro p hplace
      cases hplace
      rw [Fifo.items_pop, ht]
      exact hrest
    · exact CallPlace.noConfusion
    · exact fun _ => CallPlace.noConfusion

/-- The walk ends at the last message, and the new one is linked behind it. -/
theorem Linking.linkNextStep {m : Nat} (h : Linking s) (hc : s.calls[i]? = some c) (hp : c.place = .walk m)
    (hn : s.next m = none) (hstep : CallStep s i c ((s.linkNext m i).setCall i .postProtect)) :
    Linking ((s.linkNext m i).setCall i .postProtect) := by
  obtain ⟨q, listed, hlist⟩ := h.listed
  have hcrit : c.place.critical = true := by rw [hp]; rfl
  have hsame : q.items = listed := hlist.same (h.locked.no_clearing hc hcrit (by rw [hp]; rfl))
  have hm : m ∈ q.items := hlist.walk i c m hc hp
  have hmlinked : m ∈ s.linked := hlist.mem_linked hm
  have hlt : m < s.messages.length := h.numbered.messages ▸ h.numbered.lt m hmlinked
  have hi : i ∉ s.linked := by rw [h.numbered.linked i c hc, hp]; exact Bool.false_ne_true
  have him : i ≠ m := fun him => hi (him ▸ hmlinked)
  have hnodup : q.items.Nodup := by
    have := h.numbered.nodup
    rw [← hlist.accepted, ← q.conserved] at this
    exact (List.nodup_append.mp this).2.1
  obtain ⟨t, ht⟩ := hlist.chain.eq_snoc (hsame ▸ hm) hn
  refine ⟨h.locked.call hc hstep, ?_, q.push i, listed ++ [i], ?_⟩
  · refine h.numbered.link hc hi rfl (by simp [linkNext, setCall]) (isQuit_linkNext m i) rfl ?_
    intro j hj
    refine (next_linkNext hlt i j).trans (if_neg ?_)
    rintro rfl
    exact hj hmlinked
  · refine Listed.change .postProtect h.locked hc hcrit rfl rfl ?_ hlist.taken ?_ ?_ ?_ ?_ ?_ ?_ ?_
    · rw [Fifo.accepted_push, hlist.accepted]
      rfl
    · have hchain : Chain (s.linkNext m i).next s.head (t ++ [m, i]) := by
        refine Chain.snoc (ht ▸ hlist.chain) ?_ ?_ ?_
        · rw [next_linkNext hlt, if_pos rfl]
        · rw [next_linkNext hlt, if_neg him, h.numbered.fresh i hi]
        · intro x hx
          rw [next_linkNext hlt, if_neg]
          rintro rfl
          rw [hsame, ht] at hnodup
          exact (List.nodup_append.mp hnodup).2.2 x hx x List.mem_cons_self rfl
      rw [ht, List.append_assoc]
      exact hchain
    · intro x hx
      rcases List.mem_append.mp hx with hx | hx
      · exact List.mem_append_left _ (hlist.sub x hx)
      · exact List.mem_append_right _ hx
    · have htokens : ((s.linkNext m i).setCall i .postProtect).tokens = s.tokens + 1 :=
        tokens_setCall .postProtect hc (by rfl) (by rfl) (by rw [hp]; rfl)
      rw [htokens, List.length_append]
      exact Nat.succ_le_succ hlist.enough
    · intro _
      rw [Fifo.items_push, hsame]
    · exact fun _ => CallPlace.noConfusion
    · exact CallPlace.noConfusion
    · exact fun _ => CallPlace.noConfusion

/-- The list is empty or cleared, and the new message becomes its head. -/
theorem Linking.linkHeadStep (h : Linking s) (hc : s.calls[i]? = some c) (hp : c.place = .linkHead)
    (hstep : CallStep s i c ((s.linkHead i).setCall i .postProtect)) :
    Linking ((s.linkHead i).setCall i .postProtect) := by
  obtain ⟨q, listed, hlist⟩ := h.listed
  have hcrit : c.place.critical = true := by rw [hp]; rfl
  have hempty : q.items = [] := hlist.linkHead i c hc hp
  have hi : i ∉ s.linked := by rw [h.numbered.linked i c hc, hp]; exact Bool.false_ne_true
  refine ⟨h.locked.call hc hstep, h.numbered.link hc hi rfl rfl (fun _ => rfl) rfl fun _ _ => rfl, q.push i, [i], ?_⟩
  refine Listed.change .postProtect h.locked hc hcrit rfl rfl ?_ hlist.taken ?_ ?_ ?_ ?_ ?_ ?_ ?_
  · rw [Fifo.accepted_push, hlist.accepted]
    rfl
  · exact ⟨rfl, h.numbered.fresh i hi⟩
  · intro x hx
    exact List.mem_append_right _ hx
  · have htokens : ((s.linkHead i).setCall i .postProtect).tokens = s.tokens + 1 :=
      tokens_setCall .postProtect hc (by rfl) (by rfl) (by rw [hp]; rfl)
    rw [htokens]
    exact Nat.succ_le_succ (Nat.zero_le _)
  · intro _
    rw [Fifo.items_push, hempty]
    rfl
  · exact fun _ => CallPlace.noConfusion
  · exact CallPlace.noConfusion
  · exact fun _ => CallPlace.noConfusion

/-- A statement of a call. -/
theorem Linking.call (h : Linking s) (hc : s.calls[i]? = some c) (hstep : CallStep s i c s') : Linking s' := by
  cases hstep with
  | protectGone | dataGone =>
    obtain ⟨q, listed, hlist⟩ := h.listed
    have hn := h.numbered
    exact ⟨h.locked, ⟨hn.messages, hn.quit, hn.noFlush, hn.clears, hn.linked, hn.lt, hn.nodup, hn.fresh⟩, q, listed,
      ⟨hlist.accepted, hlist.taken, hlist.chain, hlist.sub, hlist.enough, hlist.same, hlist.flush, hlist.linkHead,
        hlist.walk, hlist.takeNext⟩⟩
  | acquire hp hgone hpos =>
    exact h.pass hc (.acquire hp hgone hpos) rfl rfl rfl rfl rfl rfl (by rw [hp]; rfl) (by rw [hp]; rfl)
      (fun _ => by rw [hp]; rfl) (fun _ => CallPlace.noConfusion) CallPlace.noConfusion (fun _ => CallPlace.noConfusion)
  | clear hp hflush =>
    refine h.move hc (.clear hp hflush) rfl rfl rfl rfl rfl rfl (by rw [hp]; rfl) (by rw [hp]; rfl)
      (fun _ => by rw [hp]; rfl) (fun _ _ => hflush) fun q listed hlist =>
        ⟨?_, CallPlace.noConfusion, fun _ => CallPlace.noConfusion⟩
    intro p hplace
    cases hplace
    rw [hlist.same (h.locked.no_clearing hc (by rw [hp]; rfl) (by rw [hp]; rfl))]
    exact hlist.chain
  | empty hp hflush hhead =>
    refine h.move hc (.empty hp hflush hhead) rfl rfl rfl rfl rfl rfl (by rw [hp]; rfl) (by rw [hp]; rfl)
      (fun _ => by rw [hp]; rfl) (fun _ => CallPlace.noConfusion) fun q listed hlist =>
        ⟨fun _ => CallPlace.noConfusion, fun _ => ?_, fun _ => CallPlace.noConfusion⟩
    rw [hlist.same (h.locked.no_clearing hc (by rw [hp]; rfl) (by rw [hp]; rfl))]
    exact (hhead ▸ hlist.chain).eq_nil
  | @walk m hp hflush hhead =>
    refine h.move hc (.walk hp hflush hhead) rfl rfl rfl rfl rfl rfl (by rw [hp]; rfl) (by rw [hp]; rfl)
      (fun _ => by rw [hp]; rfl) (fun _ => CallPlace.noConfusion) fun q listed hlist =>
        ⟨fun _ => CallPlace.noConfusion, CallPlace.noConfusion, ?_⟩
    intro p hplace
    cases hplace
    rw [hlist.same (h.locked.no_clearing hc (by rw [hp]; rfl) (by rw [hp]; rfl))]
    obtain ⟨t, rfl, -⟩ := (hhead ▸ hlist.chain).eq_cons
    exact List.mem_cons_self
  | cleared hp =>
    refine h.move hc (.cleared hp) rfl rfl rfl rfl rfl rfl (by rw [hp]; rfl) (by rw [hp]; rfl) Bool.noConfusion
      (fun _ => CallPlace.noConfusion) fun q listed hlist =>
        ⟨fun _ => CallPlace.noConfusion, fun _ => ?_, fun _ => CallPlace.noConfusion⟩
    exact (hlist.flush i c none hc hp).eq_nil
  | flush hp => exact h.flushStep hc hp (.flush hp)
  | @walkNext m n hp hn =>
    refine h.move hc (.walkNext hp hn) rfl rfl rfl rfl rfl rfl (by rw [hp]; rfl) (by rw [hp]; rfl)
      (fun _ => by rw [hp]; rfl) (fun _ => CallPlace.noConfusion) fun q listed hlist =>
        ⟨fun _ => CallPlace.noConfusion, CallPlace.noConfusion, ?_⟩
    intro p hplace
    cases hplace
    have hm := hlist.walk i c m hc hp
    rw [hlist.same (h.locked.no_clearing hc (by rw [hp]; rfl) (by rw [hp]; rfl))] at hm ⊢
    exact hlist.chain.next_mem hm hn
  | linkNext hp hn => exact h.linkNextStep hc hp hn (.linkNext hp hn)
  | linkHead hp => exact h.linkHeadStep hc hp (.linkHead hp)
  | release hp hgone =>
    exact h.pass hc (.release hp hgone) rfl rfl rfl rfl rfl rfl (by rw [hp]; rfl) (by rw [hp]; rfl)
      (fun _ => by rw [hp]; rfl) (fun _ => CallPlace.noConfusion) CallPlace.noConfusion (fun _ => CallPlace.noConfusion)
  | postData hp hgone =>
    refine h.pass hc (.postData hp hgone) rfl rfl rfl rfl rfl rfl ?_ ?_ (fun _ => by rw [hp]; rfl) ?_ ?_ ?_
    all_goals cases hq : c.quit <;> simp [setCall, Sem.post, hp, CallPlace.owes, CallPlace.linked]
  | join hp hw =>
    exact h.pass hc (.join hp hw) rfl rfl rfl rfl rfl rfl (by rw [hp]; rfl) (by rw [hp]; rfl)
      (fun _ => by rw [hp]; rfl) (fun _ => CallPlace.noConfusion) CallPlace.noConfusion (fun _ => CallPlace.noConfusion)
  | destroyData hp =>
    exact h.pass hc (.destroyData hp) rfl rfl rfl rfl rfl rfl (by rw [hp]; rfl) (by rw [hp]; rfl)
      (fun _ => by rw [hp]; rfl) (fun _ => CallPlace.noConfusion) CallPlace.noConfusion (fun _ => CallPlace.noConfusion)
  | destroyProtect hp =>
    exact h.pass hc (.destroyProtect hp) rfl rfl rfl rfl rfl rfl (by rw [hp]; rfl) (by rw [hp]; rfl)
      (fun _ => by rw [hp]; rfl) (fun _ => CallPlace.noConfusion) CallPlace.noConfusion (fun _ => CallPlace.noConfusion)
  | setRunning hp =>
    exact h.pass hc (.setRunning hp) rfl rfl rfl rfl rfl rfl (by rw [hp]; rfl) (by rw [hp]; rfl)
      (fun _ => by rw [hp]; rfl) (fun _ => CallPlace.noConfusion) CallPlace.noConfusion (fun _ => CallPlace.noConfusion)

/-- A step of the worker that leaves the list alone. -/
theorem Linking.idle (h : Linking s) (hstep : WorkerStep s s') (hcalls : s'.calls = s.calls)
    (hmessages : s'.messages = s.messages) (hhead : s'.head = s.head) (hremoved : s'.removed = s.removed)
    (hlinked : s'.linked = s.linked)
    (hq : ∀ q listed, Listed s q listed → listed.length ≤ s'.tokens ∧ ∀ m, s'.worker = .takeNext m → s.head = some m) :
    Linking s' := by
  obtain ⟨q, listed, hlist⟩ := h.listed
  obtain ⟨henough, htake⟩ := hq q listed hlist
  refine ⟨h.locked.worker hstep, ?_, q, listed, hlist.idle hcalls hmessages hhead hremoved hlinked henough htake⟩
  have hn := h.numbered
  refine ⟨?_, ?_, ?_, ?_, ?_, ?_, ?_, ?_⟩
  · rw [hmessages, hcalls, hn.messages]
  · unfold isQuit
    rw [hcalls, hmessages]
    exact hn.quit
  · rw [hcalls]
    exact hn.noFlush
  · rw [hcalls]
    exact hn.clears
  · rw [hcalls, hlinked]
    exact hn.linked
  · rw [hcalls, hlinked]
    exact hn.lt
  · exact hlinked ▸ hn.nodup
  · unfold next
    rw [hmessages, hlinked]
    exact hn.fresh

/-- A step of the worker that leaves the list and the tokens alone. -/
theorem Linking.keep (h : Linking s) (hstep : WorkerStep s s') (hcalls : s'.calls = s.calls)
    (hmessages : s'.messages = s.messages) (hhead : s'.head = s.head) (hremoved : s'.removed = s.removed)
    (hlinked : s'.linked = s.linked) (htokens : s'.tokens = s.tokens)
    (htake : ∀ m, s'.worker = .takeNext m → s.head = some m) : Linking s' :=
  h.idle hstep hcalls hmessages hhead hremoved hlinked fun _ _ hlist => ⟨htokens ▸ hlist.enough, htake⟩

/-- The worker takes the first message. -/
theorem Linking.take {m : Nat} (h : Linking s) (hw : s.worker = .takeNext m) (hstep : WorkerStep s s')
    (heq : s' = { s with head := s.next m, removed := s.removed ++ [(m, none)] }.setWorker (.postTaken m)) :
    Linking s' := by
  subst heq
  obtain ⟨q, listed, hlist⟩ := h.listed
  have hcrit : s.worker.critical = true := by rw [hw]; rfl
  have hsame : q.items = listed := hlist.same (h.locked.no_clearing_of_worker hcrit)
  obtain ⟨t, rfl, hrest⟩ := (hlist.takeNext m hw ▸ hlist.chain).eq_cons
  have hnone : ∀ {j : Nat} {d : LooperCall}, s.calls[j]? = some d → d.place.critical = true → False := by
    intro j d hd hp
    rw [h.locked.no_call hcrit hd] at hp
    cases hp
  have hn := h.numbered
  refine ⟨h.locked.worker hstep, ⟨hn.messages, hn.quit, hn.noFlush, hn.clears, hn.linked, hn.lt, hn.nodup, hn.fresh⟩,
    q.pop, t, ⟨hlist.accepted, ?_, hrest, ?_, ?_, ?_, ?_, ?_, ?_, ?_⟩⟩
  · simp [setWorker, hsame, hlist.taken]
  · exact fun x hx => hlist.sub x (List.mem_cons_of_mem m hx)
  · have henough := hlist.enough
    simp only [tokens, hw, WorkerPlace.token, Bool.toNat_true, List.length_cons] at henough
    simp only [tokens, setWorker, WorkerPlace.token, Bool.toNat_false]
    omega
  · intro _
    rw [Fifo.items_pop, hsame]
    rfl
  · intro j d p hd hp
    exact (hnone hd (by rw [hp]; rfl)).elim
  · intro j d hd hp
    exact (hnone hd (by rw [hp]; rfl)).elim
  · intro j d p hd hp
    exact (hnone hd (by rw [hp]; rfl)).elim
  · intro p hp
    cases hp

/-- A statement of the worker. -/
theorem Linking.worker (h : Linking s) (hstep : WorkerStep s s') : Linking s' := by
  cases hstep with
  | dataGone hw hgone =>
    exact h.idle (.dataGone hw hgone) rfl rfl rfl rfl rfl fun q listed hlist => ⟨hlist.enough, hlist.takeNext⟩
  | protectGone hw hgone =>
    exact h.idle (.protectGone hw hgone) rfl rfl rfl rfl rfl fun q listed hlist => ⟨hlist.enough, hlist.takeNext⟩
  | waitData hw hpos =>
    refine h.keep (.waitData hw hpos) rfl rfl rfl rfl rfl ?_ (fun _ => WorkerPlace.noConfusion)
    -- the worker takes the token that the semaphore loses
    simp only [tokens, hw, setWorker, Sem.wait, WorkerPlace.token, Bool.toNat_false, Bool.toNat_true]
    omega
  | acquire hw hpos =>
    refine h.keep (.acquire hw hpos) rfl rfl rfl rfl rfl ?_ (fun _ => WorkerPlace.noConfusion)
    simp only [tokens, setWorker, hw, WorkerPlace.token]
  | empty hw hhead =>
    refine h.idle (.empty hw hhead) rfl rfl rfl rfl rfl fun q listed hlist => ⟨?_, fun _ => WorkerPlace.noConfusion⟩
    have hnil : listed = [] := (hhead ▸ hlist.chain).eq_nil
    rw [hnil]
    exact Nat.zero_le _
  | @read m hw hhead =>
    refine h.keep (.read hw hhead) rfl rfl rfl rfl rfl ?_ ?_
    · simp only [tokens, setWorker, hw, WorkerPlace.token]
    · intro p hp
      cases hp
      exact hhead
  | take hw => exact h.take hw (.take hw) rfl
  | releaseEmpty hw =>
    refine h.keep (.releaseEmpty hw) rfl rfl rfl rfl rfl ?_ (fun _ => WorkerPlace.noConfusion)
    simp only [tokens, setWorker, hw, WorkerPlace.token]
  | release hw =>
    refine h.keep (.release hw) rfl rfl rfl rfl rfl ?_ (fun _ => WorkerPlace.noConfusion)
    simp only [tokens, setWorker, hw, WorkerPlace.token]
  | quit hw hquit =>
    refine h.keep (.quit hw hquit) rfl rfl rfl rfl rfl ?_ (fun _ => WorkerPlace.noConfusion)
    simp only [tokens, setWorker, hw, WorkerPlace.token]
  | handle hw hquit =>
    refine h.keep (.handle hw hquit) rfl rfl rfl rfl rfl ?_ (fun _ => WorkerPlace.noConfusion)
    simp only [tokens, setWorker, hw, WorkerPlace.token]
  | delete hw =>
    refine h.keep (.delete hw) rfl rfl rfl rfl rfl ?_ (fun _ => WorkerPlace.noConfusion)
    simp only [tokens, setWorker, hw, WorkerPlace.token]

/-- A call begins. -/
theorem Linking.callAdd (h : Linking s) {msg : LooperMessage} {flush : Bool} (hmsg : msg.next = none)
    (hflush : msg.quit = true → flush = false) : Linking (s.callAdd msg flush) := by
  obtain ⟨q, listed, hlist⟩ := h.listed
  have hnext : (s.callAdd msg flush).next = s.next := funext (next_callAdd hmsg flush)
  have hrow : ∀ {j : Nat} {d : LooperCall}, (s.callAdd msg flush).calls[j]? = some d →
      d.place = .waitProtect ∨ s.calls[j]? = some d := by
    intro j d hd
    rcases Table.getElem?_snoc_cases hd with ⟨-, rfl⟩ | hd
    · exact Or.inl rfl
    · exact Or.inr hd
  refine ⟨h.locked.callAdd msg flush, h.numbered.callAdd hmsg hflush, q, listed,
    ⟨hlist.accepted, hlist.taken, ?_, hlist.sub, ?_, ?_, ?_, ?_, ?_, hlist.takeNext⟩⟩
  · rw [hnext]
    exact hlist.chain
  · simpa [tokens, Looper.callAdd, CallPlace.owes] using hlist.enough
  · intro hall
    refine hlist.same fun j d hd => hall j d ?_
    rw [Looper.callAdd, List.getElem?_append_left (List.getElem?_eq_some_iff.mp hd).1]
    exact hd
  · intro j d p hd hp
    rw [hnext]
    rcases hrow hd with hplace | hd
    · rw [hplace] at hp
      cases hp
    · exact hlist.flush j d p hd hp
  · intro j d hd hp
    rcases hrow hd with hplace | hd
    · rw [hplace] at hp
      cases hp
    · exact hlist.linkHead j d hd hp
  · intro j d p hd hp
    rcases hrow hd with hplace | hd
    · rw [hplace] at hp
      cases hp
    · exact hlist.walk j d p hd hp

/-- Only the destructor's own place changes. -/
theorem Linking.setDestructor (h : Linking s) (place : DestructorPlace) : Linking { s with destructor := place } := by
  obtain ⟨q, listed, hlist⟩ := h.listed
  have hn := h.numbered
  exact ⟨h.locked, ⟨hn.messages, hn.quit, hn.noFlush, hn.clears, hn.linked, hn.lt, hn.nodup, hn.fresh⟩, q, listed,
    ⟨hlist.accepted, hlist.taken, hlist.chain, hlist.sub, hlist.enough, hlist.same, hlist.flush, hlist.linkHead,
      hlist.walk, hlist.takeNext⟩⟩

theorem linking_new : Linking new := by
  refine ⟨rfl, ⟨rfl, ?_, ?_, ?_, ?_, ?_, List.nodup_nil, fun _ _ => rfl⟩, .empty, [],
    ⟨rfl, rfl, rfl, ?_, Nat.zero_le _, fun _ => rfl, ?_, ?_, ?_, fun _ => WorkerPlace.noConfusion⟩⟩
  all_goals simp [new]

/-- The list, the lock and the calls fit together in every state. -/
theorem linking (h : lts.Reachable s) : Linking s :=
  invariant linking_new (fun _ _ _ _ ih hmsg hflush => ih.callAdd hmsg hflush) (fun _ place ih => ih.setDestructor place)
    (fun _ _ _ _ _ ih hc hstep => ih.call hc hstep) (fun _ _ _ ih hstep => ih.worker hstep) h

end Looper

end LibraLive

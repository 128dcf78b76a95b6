import Mathlib.Data.List.Nodup
import LibraLive.Lemmas.LooperWorker

/-!
# Messages are handled in order

The queue behind the list fixes the order in which messages leave it; what remains is who took them. The worker passes on what
it takes, up to the quit message, and what a `flush` takes lies before the message it was called with.
-/

namespace LibraLive

namespace Looper

variable {s s' : Looper} {i : Nat} {c : LooperCall}

/-- What a call of `postMessage` flushes lies before its message, and is followed by nothing else until that is linked. -/
structure FlushedBefore (s : Looper) : Prop where
  flushing : ∀ x m, (x, some m) ∈ s.removed →
    ∃ c, s.calls[m]? = some c ∧ c.flush = true ∧ (m ∈ s.linked ∨ c.place.clearing = true)
  later : ∀ x m, (x, some m) ∈ s.removed → m ∈ s.linked → [x, m].Sublist s.linked
  alone : ∀ e f, [e, f].Sublist s.removed → ∀ m, e.2 = some m → f.2 = some m ∨ m ∈ s.linked

/-! ## The order of a list without repetition -/

/-- Before an element of the beginning lie only elements of the beginning. -/
theorem pair_sublist_of_append {l t : List Nat} {x y : Nat} (hnodup : (l ++ t).Nodup) (h : [x, y].Sublist (l ++ t))
    (hy : y ∈ l) : [x, y].Sublist l := by
  obtain ⟨l₁, l₂, hxy, h₁, h₂⟩ := List.sublist_append_iff.mp h
  have hyt : y ∉ t := fun hyt => (List.nodup_append.mp hnodup).2.2 y hy y hyt rfl
  rcases List.eq_nil_or_concat l₂ with rfl | ⟨l', b, rfl⟩
  · rw [List.append_nil] at hxy
    rwa [hxy]
  · have hb : b = y := by
      have := congrArg List.getLast? hxy
      simp at this
      exact this.symm
    exact absurd (h₂.subset (by simp [hb])) hyt

/-! ## The calls that flush -/

/-- A pair in a list that grew by one is in the list, or its second part is new. -/
theorem pair_sublist_snoc {α : Type*} {l : List α} {e f a : α} (h : [e, f].Sublist (l ++ [a])) :
    [e, f].Sublist l ∨ (e ∈ l ∧ f = a) := by
  obtain ⟨l₁, l₂, hef, h₁, h₂⟩ := List.sublist_append_iff.mp h
  rcases List.sublist_singleton.mp h₂ with rfl | rfl
  · rw [List.append_nil] at hef
    exact Or.inl (hef ▸ h₁)
  · have happend : [e] ++ [f] = l₁ ++ [a] := hef
    obtain ⟨rfl, hfa⟩ := List.append_inj' happend rfl
    cases hfa
    exact Or.inr ⟨h₁.subset List.mem_cons_self, rfl⟩

namespace FlushedBefore

/-- A step that neither links nor removes, and by which no call leaves the clearing of the list. -/
theorem of_same (h : FlushedBefore s) (hremoved : s'.removed = s.removed) (hlinked : s'.linked = s.linked)
    (hcalls : ∀ (m : Nat) (c : LooperCall), s.calls[m]? = some c →
      ∃ c', s'.calls[m]? = some c' ∧ c'.flush = c.flush ∧ (c.place.clearing = true → c'.place.clearing = true)) :
    FlushedBefore s' where
  flushing x m hx := by
    rw [hremoved] at hx
    obtain ⟨c, hc, hflush, hplace⟩ := h.flushing x m hx
    obtain ⟨c', hc', hflush', hplace'⟩ := hcalls m c hc
    exact ⟨c', hc', hflush'.trans hflush, hlinked ▸ hplace.imp_right hplace'⟩
  later := by
    rw [hremoved, hlinked]
    exact h.later
  alone := by
    rw [hremoved, hlinked]
    exact h.alone

/-- A statement of a call that neither links nor removes. -/
theorem move (h : FlushedBefore s) {place : CallPlace} (hc : s.calls[i]? = some c)
    (hcalls : s'.calls = s.calls.modify i ({ · with place := place })) (hremoved : s'.removed = s.removed)
    (hlinked : s'.linked = s.linked) (hclear : c.place.clearing = true → place.clearing = true) : FlushedBefore s' := by
  refine h.of_same hremoved hlinked fun m d hd => ?_
  rw [hcalls]
  by_cases him : i = m
  · subst him
    rw [hc] at hd
    cases hd
    exact ⟨{ c with place := place }, by rw [List.getElem?_modify_eq, hc]; rfl, rfl, hclear⟩
  · exact ⟨d, by rw [List.getElem?_modify_ne _ _ him]; exact hd, rfl, id⟩

/-- A message is flushed. -/
theorem flush (h : FlushedBefore s) (hl : Linking s) {m : Nat} (hc : s.calls[i]? = some c)
    (hp : c.place = .flush (some m)) : FlushedBefore ((s.flushMessage i m).setCall i (.flush (s.next m))) := by
  have hcrit : c.place.critical = true := by rw [hp]; rfl
  have hi : i ∉ s.linked := by rw [hl.numbered.linked i c hc, hp]; exact Bool.false_ne_true
  have hrow : ((s.flushMessage i m).setCall i (.flush (s.next m))).calls[i]? =
      some { c with place := .flush (s.next m) } := by
    simp [setCall, flushMessage, hc]
  have hother : ∀ j, j ≠ i → ((s.flushMessage i m).setCall i (.flush (s.next m))).calls[j]? = s.calls[j]? :=
    fun j hj => List.getElem?_modify_ne _ _ (Ne.symm hj)
  refine ⟨?_, ?_, ?_⟩
  · intro x k hx
    by_cases hk : k = i
    · subst hk
      exact ⟨_, hrow, hl.numbered.clears k c _ hc hp, Or.inr rfl⟩
    · rcases List.mem_append.mp hx with hx | hx
      · rw [hother k hk]
        exact h.flushing x k hx
      · cases List.mem_singleton.mp hx
        exact absurd rfl hk
  · intro x k hx hk
    rcases List.mem_append.mp hx with hx | hx
    · exact h.later x k hx hk
    · cases List.mem_singleton.mp hx
      exact absurd hk hi
  · intro e f hef k hk
    rcases pair_sublist_snoc hef with hef | ⟨he, rfl⟩
    · exact h.alone e f hef k hk
    · obtain ⟨d, hd, -, hplace⟩ := h.flushing e.1 k (by rw [← hk]; exact he)
      rcases hplace with hplace | hplace
      · exact Or.inr hplace
      · rw [hl.locked.call_unique hd hc (critical_of_clearing hplace) hcrit]
        exact Or.inl rfl

/-- A message is linked. -/
theorem link (h : FlushedBefore s) (hl : Linking s) (hc : s.calls[i]? = some c)
    (hcalls : s'.calls = s.calls.modify i ({ · with place := .postProtect })) (hremoved : s'.removed = s.removed)
    (hlinked : s'.linked = s.linked ++ [i]) : FlushedBefore s' := by
  refine ⟨?_, ?_, ?_⟩
  · intro x m hx
    rw [hremoved] at hx
    obtain ⟨d, hd, hflush, hplace⟩ := h.flushing x m hx
    rw [hcalls, hlinked]
    by_cases him : i = m
    · subst him
      exact ⟨{ d with place := .postProtect }, by rw [List.getElem?_modify_eq, hd]; rfl, hflush,
        Or.inl (List.mem_append_right _ List.mem_cons_self)⟩
    · exact ⟨d, by rw [List.getElem?_modify_ne _ _ him]; exact hd, hflush, hplace.imp_left (List.mem_append_left _)⟩
  · intro x m hx hm
    rw [hremoved] at hx
    rw [hlinked] at hm ⊢
    rcases List.mem_append.mp hm with hm | hm
    · exact (h.later x m hx hm).trans (List.sublist_append_left _ _)
    · obtain rfl := List.mem_singleton.mp hm
      exact List.Sublist.append (List.singleton_sublist.mpr (hl.linked_of_removed hx)) (List.Sublist.refl [m])
  · intro e f hef m hm
    rw [hremoved] at hef
    rw [hlinked]
    exact (h.alone e f hef m hm).imp_right (List.mem_append_left _)

/-- A statement of a call. -/
theorem call (h : FlushedBefore s) (hl : Linking s) (hc : s.calls[i]? = some c) (hstep : CallStep s i c s') :
    FlushedBefore s' := by
  cases hstep with
  | protectGone | dataGone => exact h.of_same rfl rfl fun m d hd => ⟨d, hd, rfl, id⟩
  | flush hp => exact h.flush hl hc hp
  | linkNext | linkHead => exact h.link hl hc rfl rfl rfl
  | cleared => exact h.move hc rfl rfl rfl fun _ => rfl
  | acquire hp | clear hp | empty hp | walk hp | walkNext hp | release hp | postData hp | join hp | destroyData hp
  | destroyProtect hp | setRunning hp =>
    refine h.move hc rfl rfl rfl fun hclear => ?_
    rw [hp] at hclear
    cases hclear

/-- A statement of the worker. -/
theorem worker (h : FlushedBefore s) (hl : Linking s) (hstep : WorkerStep s s') : FlushedBefore s' := by
  cases hstep with
  | @take m hw =>
    refine ⟨?_, ?_, ?_⟩
    · intro x k hx
      rcases List.mem_append.mp hx with hx | hx
      · exact h.flushing x k hx
      · cases List.mem_singleton.mp hx
    · intro x k hx hk
      rcases List.mem_append.mp hx with hx | hx
      · exact h.later x k hx hk
      · cases List.mem_singleton.mp hx
    · intro e f hef k hk
      rcases pair_sublist_snoc hef with hef | ⟨he, rfl⟩
      · exact h.alone e f hef k hk
      · obtain ⟨d, hd, -, hplace⟩ := h.flushing e.1 k (by rw [← hk]; exact he)
        refine Or.inr (hplace.resolve_right fun hclear => ?_)
        rw [hl.locked.no_clearing_of_worker (by rw [hw]; rfl) k d hd] at hclear
        cases hclear
  | _ => exact h.of_same rfl rfl fun m d hd => ⟨d, hd, rfl, id⟩

/-- A call begins. -/
theorem callAdd (h : FlushedBefore s) (msg : LooperMessage) (flush : Bool) : FlushedBefore (s.callAdd msg flush) :=
  h.of_same rfl rfl fun m d hd =>
    ⟨d, by rw [Looper.callAdd, List.getElem?_append_left (List.getElem?_eq_some_iff.mp hd).1]; exact hd, rfl, id⟩

end FlushedBefore

/-- What was flushed was flushed for a later message. -/
theorem flushedBefore (h : lts.Reachable s) : FlushedBefore s :=
  invariant ⟨fun _ _ => List.not_mem_nil.elim, fun _ _ => List.not_mem_nil.elim, fun _ _ h => by cases h⟩
    (fun _ msg flush _ ih _ _ => ih.callAdd msg flush)
    (fun _ _ ih => ih.of_same rfl rfl fun _ d hd => ⟨d, hd, rfl, id⟩)
    (fun _ _ _ _ hr ih hc hstep => ih.call (linking hr) hc hstep)
    (fun _ _ hr ih hstep => ih.worker (linking hr) hstep) h

/-! ## The order of handling -/

/-- What was removed is the beginning of what was linked. -/
theorem removed_append (hl : Linking s) : ∃ items, s.removed.map (·.1) ++ items = s.linked := by
  obtain ⟨q, listed, hlist⟩ := hl.listed
  exact ⟨q.items, by rw [← hlist.taken, q.conserved, hlist.accepted]⟩

/-- A message the worker took before one that it handled, it handled as well. -/
theorem PassedOn.mem_handled (h : PassedOn s) {x y : Nat} (hnodup : s.takenByWorker.Nodup)
    (hxy : [x, y].Sublist s.takenByWorker) (hy : y ∈ s.handled) : x ∈ s.handled := by
  obtain ⟨l, htake⟩ := h.handled_append
  rw [htake] at hnodup hxy
  exact (pair_sublist_of_append hnodup hxy hy).subset List.mem_cons_self

/-- What was linked before a handled message was removed before it, since the queue lets nothing overtake. -/
theorem removed_before (hl : Linking s) (hpassed : PassedOn s) {x y : Nat} (hxy : [x, y].Sublist s.linked)
    (hy : y ∈ s.handled) : ∃ n, [(x, n), (y, none)].Sublist s.removed := by
  obtain ⟨items, hitems⟩ := removed_append hl
  have hnodup : (s.removed.map (·.1) ++ items).Nodup := by
    rw [hitems]
    exact hl.numbered.nodup
  have hyr := hpassed.mem_removed hy
  rw [← hitems] at hxy
  have hremoved := pair_sublist_of_append hnodup hxy (List.mem_map.mpr ⟨_, hyr, rfl⟩)
  obtain ⟨l, hsub, hl'⟩ := List.sublist_map_iff.mp hremoved
  obtain ⟨e, f, rfl⟩ : ∃ e f, l = [e, f] := by
    match l, hl' with
    | [e, f], _ => exact ⟨e, f, rfl⟩
  simp only [List.map_cons, List.map_nil, List.cons.injEq, and_true] at hl'
  obtain ⟨rfl, rfl⟩ := hl'
  have hf : f = (f.1, none) :=
    List.inj_on_of_nodup_map (List.nodup_append.mp hnodup).1 (hsub.subset (by simp)) hyr rfl
  exact ⟨e.2, hf ▸ hsub⟩

/-- Without a call that flushes the worker took all that was removed. -/
theorem removed_of_noFlush (hflushed : FlushedBefore s) (hnone : ∀ c ∈ s.calls, c.flush = false) :
    s.takenByWorker = s.removed.map (·.1) := by
  have hall : s.removed.filter (·.2 = none) = s.removed := by
    rw [List.filter_eq_self]
    rintro ⟨x, n⟩ hx
    cases n with
    | none => rfl
    | some m =>
      obtain ⟨c, hc, hflush, -⟩ := hflushed.flushing x m hx
      rw [hnone c (List.mem_of_getElem? hc)] at hflush
      cases hflush
  rw [takenByWorker, hall]

/-- Messages are handled in the order in which they were linked, at most once. A message linked before a handled one and not
handled itself was removed by the `flush` of a call whose message was linked later than it. Without `flush` a beginning of
what was linked is handled. -/
theorem handled_in_order (h : lts.Reachable s) : s.handled.Sublist s.linked ∧ s.handled.Nodup ∧
    (∀ x y, [x, y].Sublist s.linked → y ∈ s.handled → x ∉ s.handled → ∃ (m : Nat) (c : LooperCall),
      (x, some m) ∈ s.removed ∧ s.calls[m]? = some c ∧ c.flush = true ∧ [x, m].Sublist s.linked) ∧
    ((∀ c ∈ s.calls, c.flush = false) → s.handled <+: s.linked) := by
  have hl := linking h
  have hpassed := passedOn h
  have hflushed := flushedBefore h
  obtain ⟨items, hitems⟩ := removed_append hl
  obtain ⟨rest, htake⟩ := hpassed.handled_append
  have htaken : s.takenByWorker.Sublist s.linked := by
    rw [← hitems]
    exact (List.Sublist.map _ List.filter_sublist).trans (List.sublist_append_left _ _)
  have hhandled : s.handled.Sublist s.takenByWorker := by
    rw [htake]
    exact List.sublist_append_left _ _
  refine ⟨hhandled.trans htaken, (hhandled.trans htaken).nodup hl.numbered.nodup, ?_, ?_⟩
  · intro x y hxy hy hx
    obtain ⟨n, hsub⟩ := removed_before hl hpassed hxy hy
    cases n with
    | none =>
      -- the worker took x, so it handled it before y
      refine absurd (hpassed.mem_handled (htaken.nodup hl.numbered.nodup) ?_ hy) hx
      exact (hsub.filter (·.2 = none)).map (·.1)
    | some m =>
      have hmem : (x, some m) ∈ s.removed := hsub.subset (by simp)
      obtain ⟨c, hc, hflush, -⟩ := hflushed.flushing x m hmem
      have hm : m ∈ s.linked := by
        refine (hflushed.alone _ _ hsub m rfl).resolve_left ?_
        intro hnone
        cases hnone
      exact ⟨m, c, hmem, hc, hflush, hflushed.later x m hmem hm⟩
  · intro hnone
    refine ⟨rest ++ items, ?_⟩
    rw [← List.append_assoc, ← htake, removed_of_noFlush hflushed hnone, hitems]

/-- A second call with `flush` takes the first message off the list, and its own is handled. -/
theorem handled_in_order_example : ∃ s, lts.Reachable s ∧ s.linked = [0, 1] ∧ s.handled = [1] ∧
    ∃ (m : Nat) (c : LooperCall), (0, some m) ∈ s.removed ∧ s.calls[m]? = some c ∧ c.flush = true ∧
      [0, m].Sublist s.linked := by
  have hrun : (Lts.replay step new (LooperAct.postMessage 1 0 0 0 false :: List.replicate 5 (LooperAct.call 0) ++
      LooperAct.postMessage 2 0 0 0 true :: List.replicate 7 (LooperAct.call 1) ++ List.replicate 6 LooperAct.worker)).map
        (fun s => (s.linked, s.handled)) = some ([0, 1], [1]) := by decide
  obtain ⟨s, hs, hstate⟩ := Option.map_eq_some_iff.mp hrun
  obtain ⟨hlinked, hhandled⟩ := Prod.mk.injEq _ _ _ _ ▸ hstate
  have hr : lts.Reachable s := Lts.replay_reachable (fun _ _ _ => id) _ (.init rfl) hs
  exact ⟨s, hr, hlinked, hhandled,
    (handled_in_order hr).2.2.1 0 1 (by rw [hlinked]) (by rw [hhandled]; decide) (by rw [hhandled]; decide)⟩

end Looper

end LibraLive

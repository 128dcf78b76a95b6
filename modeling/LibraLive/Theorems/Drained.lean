import LibraLive.Lemmas.LooperList

/-!
# No message is stranded

`flush` takes messages off the list and leaves their tokens in `headDataAvailable`, and the worker may find the list empty, so
the count is no length. It is enough, with the tokens that calls still have to post.
-/

namespace LibraLive

namespace Looper

/-- With one more statement between the two: a message is in the list before the first `sem_post` of its call. -/
theorem linked_before_first_post : ¬ ∀ s, lts.Reachable s → s.worker = .waitData → s.headDataAvailable.count = 0 →
    (∀ c ∈ s.calls, c.place ≠ .postData) → s.head = none := by
  intro hall
  have hrun : (Lts.replay step new [.postMessage 1 0 0 0 false, .call 0, .call 0, .call 0]).map
      (fun s => (s.head, s.worker, s.headDataAvailable.count, s.calls.all (·.place ≠ .postData))) =
        some (some 0, .waitData, 0, true) := by decide
  obtain ⟨s, hs, hstate⟩ := Option.map_eq_some_iff.mp hrun
  simp only [Prod.mk.injEq] at hstate
  obtain ⟨hhead, hworker, hcount, hcalls⟩ := hstate
  have hr : lts.Reachable s := Lts.replay_reachable (fun _ _ _ => id) _ (.init rfl) hs
  have hempty := hall s hr hworker hcount fun c hc => of_decide_eq_true (List.all_eq_true.mp hcalls c hc)
  rw [hhead] at hempty
  cases hempty

/-- The worker waits for a token in vain only when the list is empty, or its message is linked by a call that has not posted
`headDataAvailable` yet. -/
theorem list_empty_of_blocked {s : Looper} (h : lts.Reachable s) (hworker : s.worker = .waitData)
    (hcount : s.headDataAvailable.count = 0) (hposted : ∀ c ∈ s.calls, c.place ≠ .postProtect ∧ c.place ≠ .postData) :
    s.head = none := by
  obtain ⟨q, listed, hlist⟩ := (linking h).listed
  have howes : s.calls.countP (·.place.owes) = 0 := by
    rw [List.countP_eq_zero]
    intro c hc howes
    obtain ⟨hprotect, hdata⟩ := hposted c hc
    cases hplace : c.place <;> simp_all [CallPlace.owes]
  have henough := hlist.enough
  simp only [tokens, hcount, howes, hworker, WorkerPlace.token, Bool.toNat_false] at henough
  have hnil : listed = [] := List.length_eq_zero_iff.mp (by omega)
  rw [hnil] at hlist
  exact hlist.chain

/-- After one message was posted and handled the worker waits again, and the list is empty. -/
theorem list_empty_of_blocked_example :
    ((Lts.replay step new (LooperAct.postMessage 1 0 0 0 false :: List.replicate 5 (LooperAct.call 0) ++ List.replicate 7 LooperAct.worker)).any
      (·.head = none)) = true := by
  have hrun : (Lts.replay step new (LooperAct.postMessage 1 0 0 0 false :: List.replicate 5 (LooperAct.call 0) ++
      List.replicate 7 LooperAct.worker)).map (fun s => (s.worker, s.headDataAvailable.count,
        s.calls.all fun c => c.place ≠ .postProtect ∧ c.place ≠ .postData)) = some (.waitData, 0, true) := by decide
  obtain ⟨s, hs, hstate⟩ := Option.map_eq_some_iff.mp hrun
  simp only [Prod.mk.injEq] at hstate
  obtain ⟨hworker, hcount, hcalls⟩ := hstate
  have hr : lts.Reachable s := Lts.replay_reachable (fun _ _ _ => id) _ (.init rfl) hs
  have hempty := list_empty_of_blocked hr hworker hcount fun c hc => of_decide_eq_true (List.all_eq_true.mp hcalls c hc)
  rw [hs]
  simp [hempty]

end Looper

end LibraLive

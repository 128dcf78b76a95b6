import LibraLive.Lemmas.UdpStep

/-!
# A datagram is dispatched once

As long as `receive` returns. When it throws, the thread goes on to dispatch what the packet still holds, and closing the socket
makes it throw.
-/

namespace LibraLive

namespace UdpManager

variable {Obj : Type} {p : Platform Obj} {s s' : UdpManager} {a : UdpAct}

/-- The texts of what was received, with the rounds. -/
def texts (p : Platform Obj) (s : UdpManager) : List (Nat × String) := s.received.map fun r => (r.1, p.decode r.2)

/-- The messages dispatched are the texts of the datagrams received, each in the round in which it was received and in their
order; one may still have to come while the thread is before `dispatchMessage`. -/
structure OncePerDatagram (p : Platform Obj) (s : UdpManager) : Prop where
  order : s.dispatched <+: s.texts p
  done : s.place ≠ .dispatch → s.dispatched = s.texts p
  once : (s.dispatched.map Prod.fst).Nodup

/-- What is before `dispatchMessage` was received last. -/
theorem texts_eq (h : ((lts p).restrict fun _ a => a ≠ .ioException).Reachable s) :
    s.texts p = s.dispatched ++ if s.place = .dispatch then [(s.round, s.dataStr p)] else [] := by
  refine Lts.Reachable.restrict_invariant ?_ ?_ h
  · rintro s rfl
    rfl
  · intro s a s' _ hreturns hI hs
    cases step_cases hs with
    | next hplace | stop hplace =>
      rw [if_neg (by rw [hplace]; simp)] at hI
      rw [if_neg (by simp)]
      exact hI
    | dispatch after hplace hafter =>
      rw [if_pos hplace] at hI
      cases hafter with
      | thrown | done =>
        rw [if_neg (by simp), List.append_nil]
        exact hI
    | receive datagram waiting hplace =>
      rw [if_neg (by rw [hplace]; simp), List.append_nil] at hI
      rw [if_pos rfl, texts, List.map_append, ← texts, hI, dataStr, DatagramPacket.fill_text]
      rfl
    | ioException => exact absurd rfl hreturns
    | arrive | clearFlag | close | setListener => exact hI

/-- Every datagram is dispatched once and in order, in every run in which `receive` does not throw. -/
theorem dispatched_once (h : ((lts p).restrict fun _ a => a ≠ .ioException).Reachable s) : OncePerDatagram p s := by
  have heq := texts_eq h
  have horder : s.dispatched <+: s.texts p := by
    rw [heq]
    exact List.prefix_append _ _
  refine ⟨horder, fun hplace => ?_, ?_⟩
  · rw [if_neg hplace, List.append_nil] at heq
    exact heq.symm
  · have hrounds : (s.texts p).map Prod.fst = s.received.map Prod.fst := by
      rw [texts, List.map_map]
      rfl
    exact (hrounds ▸ (rounds h.of_restrict).nodup).sublist (horder.sublist.map _)

/-- Whenever `receive` throws, the next statement dispatches a message that was not received. -/
theorem dispatched_again (h : (lts p).Reachable s) (hs : step p s .ioException = some s') :
    ∃ s'', step p s' .run = some s'' ∧ ¬ OncePerDatagram p s'' := by
  cases step_cases hs with
  | ioException hplace =>
    refine ⟨_, rfl, fun honce => ?_⟩
    obtain ⟨hdispatched, hreceived⟩ := (dispatch_cases p { s with place := .dispatch }).dispatched
    have hlast : (s.round, s.dataStr p) ∈ (dispatch p { s with place := .dispatch }).texts p := by
      refine honce.order.subset ?_
      rw [hdispatched]
      exact List.mem_append_right _ List.mem_cons_self
    rw [texts, hreceived] at hlast
    obtain ⟨r, hr, heq⟩ := List.mem_map.mp hlast
    have hlt := (rounds h).lt hplace r hr
    rw [congrArg Prod.fst heq] at hlt
    exact Nat.lt_irrefl _ hlt

/-- A platform on which `{}` is a JSON object. -/
def emptyObject : Platform Unit where
  decode bytes := String.ofList (bytes.map fun b => Char.ofNat b.toNat)
  JSONObject msg := if msg = "\x7b\x7d" then some () else none
  opt _ _ := none
  optString _ _ := ""

/-- `stopServer` closes the socket under the thread, and what was received last is dispatched again. -/
theorem dispatched_on_stop : ¬ ∀ s, (lts emptyObject).Reachable s → OncePerDatagram emptyObject s := by
  intro hall
  have hrun : ((Lts.replay (step emptyObject) playServer [.arrive [0x7b, 0x7d], .run, .receive, .run, .run, .clearFlag, .close]).map
      fun s => (s.place, s.dispatched)) = some (.receive, [(1, "\x7b\x7d")]) := by
    decide
  obtain ⟨s, hs, hstate⟩ := Option.map_eq_some_iff.mp hrun
  have hr : (lts emptyObject).Reachable s := Lts.replay_reachable (fun _ _ _ => id) _ (.init rfl) hs
  have hplace : s.place = .receive := congrArg Prod.fst hstate
  have hthrow : step emptyObject s .ioException = some { s with place := .dispatch } := by
    unfold step
    rw [hplace]
  obtain ⟨s'', hs'', hnot⟩ := dispatched_again hr hthrow
  exact hnot (hall s'' ((hr.step hthrow).step hs''))

/-- Two datagrams, and the flag cleared while the thread is dispatching the second. -/
theorem dispatched_once_example : ∃ s, Lts.replayIf (step emptyObject) (fun _ a => a ≠ .ioException) playServer
    [.arrive [0x7b, 0x7d], .arrive [0x7b, 0x7d], .run, .receive, .run, .run, .receive, .clearFlag, .run, .run, .close] = some s ∧
      s.place = .ended ∧ s.received.length = 2 ∧ OncePerDatagram emptyObject s := by
  have hrun : (Lts.replayIf (step emptyObject) (fun _ a => a ≠ .ioException) playServer
      [.arrive [0x7b, 0x7d], .arrive [0x7b, 0x7d], .run, .receive, .run, .run, .receive, .clearFlag, .run, .run, .close]).map
        (fun s => (s.place, s.received.length)) = some (.ended, 2) := by decide
  obtain ⟨s, hs, hstate⟩ := Option.map_eq_some_iff.mp hrun
  refine ⟨s, hs, congrArg Prod.fst hstate, congrArg Prod.snd hstate, dispatched_once ?_⟩
  exact Lts.replayIf_reachable (fun _ _ _ => id) (fun _ _ h => of_decide_eq_true h) _ (.init rfl) hs

end UdpManager

end LibraLive

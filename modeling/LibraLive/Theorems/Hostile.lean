import LibraLive.Theorems.Dispatched

/-!
# Only JSON objects keep the server running

The message is parsed outside the `try`, so the exception of `JSONObject` ends the thread, and what arrives later stays in the
socket.
-/

namespace LibraLive

namespace UdpManager

variable {Obj : Type} {p : Platform Obj} {s s' : UdpManager} {a : UdpAct}

/-- While the flag is set the thread is in its loop, and when it has nothing to do, every datagram that arrived was dispatched. -/
structure Serving (p : Platform Obj) (s : UdpManager) : Prop where
  loops : s.flag = true → s.place ≠ .ended ∧ s.place ≠ .thrown
  served : s.flag = true → step p s .run = none → step p s .receive = none →
    ∀ datagram ∈ s.arrived, ∃ round, (round, p.decode datagram) ∈ s.dispatched

/-- The flag is set and the message that the thread is about to dispatch is not a JSON object. -/
def escapes (p : Platform Obj) (s : UdpManager) (a : UdpAct) : Bool :=
  a = .run && s.place = .dispatch && s.flag && s.malformed p

/-- What arrived was received or is waiting in the socket, which is open while the flag is set; what was received was
dispatched, or it is in the packet and will be. -/
structure Delivery (p : Platform Obj) (s : UdpManager) : Prop where
  arrived : s.arrived = s.received.map Prod.snd ++ s.waiting
  dispatched : ∀ r ∈ s.received, (r.1, p.decode r.2) ∈ s.dispatched ∨
    s.place = .dispatch ∧ (r.1, p.decode r.2) = (s.round, s.dataStr p)
  stopped : s.closed = true ∨ 0 < s.stopping → s.flag = false

/-- Nothing gets lost between the socket and `dispatchMessage`, in any run. -/
theorem delivery (h : (lts p).Reachable s) : Delivery p s := by
  refine Lts.Reachable.invariant ?_ ?_ h
  · rintro s rfl
    exact ⟨rfl, fun r hr => (by cases hr), by simp [playServer]⟩
  · intro s a s' _ hI hs
    have harrived := hI.arrived
    have hdispatched := hI.dispatched
    have hstopped := hI.stopped
    -- away from `dispatchMessage` everything received was dispatched
    have hdone : s.place ≠ .dispatch → ∀ r ∈ s.received, (r.1, p.decode r.2) ∈ s.dispatched := by
      intro hplace r hr
      exact (hdispatched r hr).resolve_right fun hand => hplace hand.1
    cases step_cases hs with
    | next hplace | stop hplace | ioException hplace =>
      exact ⟨harrived, fun r hr => Or.inl (hdone (by rw [hplace]; simp) r hr), hstopped⟩
    | dispatch after hplace hafter =>
      have hafter_dispatched : ∀ r ∈ s.received,
          (r.1, p.decode r.2) ∈ s.dispatched ++ [(s.round, s.dataStr p)] := by
        intro r hr
        rcases hdispatched r hr with hmem | ⟨-, heq⟩
        · exact List.mem_append_left _ hmem
        · rw [heq]
          exact List.mem_append_right _ List.mem_cons_self
      cases hafter with
      | thrown | done => exact ⟨harrived, fun r hr => Or.inl (hafter_dispatched r hr), hstopped⟩
    | receive datagram waiting hplace _ hwaiting =>
      refine ⟨?_, fun r hr => ?_, hstopped⟩
      · rw [harrived, hwaiting, List.map_append, List.append_assoc]
        rfl
      · rcases List.mem_append.mp hr with hr | hr
        · exact Or.inl (hdone (by rw [hplace]; simp) r hr)
        · rw [List.mem_singleton.mp hr, dataStr, DatagramPacket.fill_text]
          exact Or.inr ⟨rfl, rfl⟩
    | arrive datagram =>
      refine ⟨?_, hdispatched, hstopped⟩
      dsimp only
      rw [harrived, List.append_assoc]
    | clearFlag => exact ⟨harrived, hdispatched, fun _ => rfl⟩
    | close hpos => exact ⟨harrived, hdispatched, fun _ => hstopped (Or.inr hpos)⟩
    | setListener => exact ⟨harrived, hdispatched, hstopped⟩

/-- The thread is in its loop as long as the flag is set, if no exception escapes. -/
theorem in_loop (h : ((lts p).restrict fun s a => escapes p s a = false).Reachable s) :
    s.flag = true → s.place ≠ .ended ∧ s.place ≠ .thrown := by
  refine Lts.Reachable.restrict_invariant ?_ ?_ h
  · rintro s rfl _
    exact ⟨by simp [playServer], by simp [playServer]⟩
  · intro s a s' _ hescapes hI hs
    cases step_cases hs with
    | next | receive | ioException => exact fun _ => ⟨by simp, by simp⟩
    | stop _ hflag =>
      intro hset
      rw [hflag] at hset
      cases hset
    | dispatch after hplace hafter =>
      cases hafter with
      | thrown hmalformed =>
        intro hset
        simp only [escapes, hplace, show s.flag = true from hset, hmalformed, decide_true, Bool.and_true] at hescapes
        cases hescapes
      | done => exact fun _ => ⟨by simp, by simp⟩
    | clearFlag => exact fun hset => (by cases hset)
    | arrive | close | setListener => exact hI

/-- The server goes on in every run in which only JSON objects are dispatched while the flag is set. -/
theorem serving (h : ((lts p).restrict fun s a => escapes p s a = false).Reachable s) : Serving p s := by
  obtain ⟨harrived, hdispatched, hstopped⟩ := delivery h.of_restrict
  refine ⟨in_loop h, fun hflag hrun hreceive datagram hmem => ?_⟩
  have hopen : s.closed = false := by
    rw [← Bool.not_eq_true]
    intro hclosed
    rw [hstopped (Or.inl hclosed)] at hflag
    cases hflag
  obtain ⟨hended, hthrown⟩ := in_loop h hflag
  unfold step at hrun hreceive
  cases hplace : s.place with
  | readFlag => simp [hplace, hflag] at hrun
  | dispatch => simp [hplace] at hrun
  | ended => exact absurd hplace hended
  | thrown => exact absurd hplace hthrown
  | receive =>
    cases hwaiting : s.waiting with
    | cons datagram waiting => simp [hplace, hopen, hwaiting] at hreceive
    | nil =>
      rw [harrived, hwaiting, List.append_nil] at hmem
      obtain ⟨r, hr, rfl⟩ := List.mem_map.mp hmem
      refine ⟨r.1, (hdispatched r hr).resolve_right ?_⟩
      rw [hplace]
      simp

/-- Whenever an exception escapes, the server is down with the flag set. -/
theorem not_serving (hescapes : escapes p s a = true) (hs : step p s a = some s') : ¬ Serving p s' := by
  simp only [escapes, Bool.and_eq_true, decide_eq_true_eq] at hescapes
  obtain ⟨⟨⟨rfl, hplace⟩, hflag⟩, hmalformed⟩ := hescapes
  cases step_cases hs with
  | next hother | stop hother =>
    rw [hplace] at hother
    cases hother
  | dispatch after _ hafter =>
    cases hafter with
    | thrown => exact fun hserving => (hserving.loops hflag).2 rfl
    | done _ hparsed =>
      rw [hmalformed] at hparsed
      cases hparsed

/-- A datagram that is not JSON comes before one that is. -/
theorem thread_ended : ¬ ∀ s, (lts emptyObject).Reachable s → Serving emptyObject s := by
  intro hall
  have hrun : ((Lts.replay (step emptyObject) playServer [.arrive [0x78], .arrive [0x7b, 0x7d], .run, .receive, .run]).map
      fun s => (s.flag, s.place, s.waiting)) = some (true, .thrown, [[0x7b, 0x7d]]) := by decide
  obtain ⟨s, hs, hstate⟩ := Option.map_eq_some_iff.mp hrun
  simp only [Prod.mk.injEq] at hstate
  obtain ⟨hflag, hplace, -⟩ := hstate
  have hr : (lts emptyObject).Reachable s := Lts.replay_reachable (fun _ _ _ => id) _ (.init rfl) hs
  exact ((hall s hr).loops hflag).2 hplace

/-- Two JSON objects, both dispatched, and the thread is in `receive` again. -/
theorem serving_example : ∃ s, Lts.replayIf (step emptyObject) (fun s a => !escapes emptyObject s a) playServer
    [.arrive [0x7b, 0x7d], .arrive [0x7b, 0x7d], .run, .receive, .run, .run, .receive, .run, .run] = some s ∧
      s.flag = true ∧ s.waiting = [] ∧ Serving emptyObject s := by
  have hrun : (Lts.replayIf (step emptyObject) (fun s a => !escapes emptyObject s a) playServer
      [.arrive [0x7b, 0x7d], .arrive [0x7b, 0x7d], .run, .receive, .run, .run, .receive, .run, .run]).map
        (fun s => (s.flag, s.waiting)) = some (true, []) := by decide
  obtain ⟨s, hs, hstate⟩ := Option.map_eq_some_iff.mp hrun
  refine ⟨s, hs, congrArg Prod.fst hstate, congrArg Prod.snd hstate, serving ?_⟩
  exact Lts.replayIf_reachable (fun _ _ _ => id) (fun _ _ h => by simpa using h) _ (.init rfl) hs

end UdpManager

end LibraLive

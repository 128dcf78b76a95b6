import LibraLive.UdpManager

/-!
# What a step of an `UdpManager` can do

And what the rounds of the thread say about what was received and dispatched in them.
-/

namespace LibraLive

/-- A datagram is read back from the packet it was received into. -/
theorem DatagramPacket.fill_text (packet : DatagramPacket) (datagram : List UInt8) :
    (packet.fill datagram).data.take (packet.fill datagram).length = datagram :=
  List.take_left

namespace UdpManager

variable {Obj : Type} {p : Platform Obj} {s s' : UdpManager} {a : UdpAct}

/-- The text of the packet is not a JSON object. -/
def malformed (p : Platform Obj) (s : UdpManager) : Bool := (p.JSONObject (s.dataStr p)).isNone

/-- What the thread leaves behind of a call of `dispatchMessage`: a message dispatched, and maybe a call of the listener. -/
inductive Dispatch (p : Platform Obj) (s : UdpManager) : UdpManager → Prop where
  | thrown : s.malformed p = true → Dispatch p s { s with
      dispatched := s.dispatched ++ [(s.round, s.dataStr p)]
      place := .thrown }
  | done (call : Option CmdCall) : s.malformed p = false → Dispatch p s { s with
      dispatched := s.dispatched ++ [(s.round, s.dataStr p)]
      place := .readFlag
      calls := s.calls ++ call.toList.map (s.round, ·) }

/-- The steps. -/
inductive Step (p : Platform Obj) (s : UdpManager) : UdpAct → UdpManager → Prop where
  | next : s.place = .readFlag → s.flag = true → Step p s .run { s with
      place := .receive
      round := s.round + 1 }
  | stop : s.place = .readFlag → s.flag = false → Step p s .run { s with place := .ended }
  | dispatch (after : UdpManager) : s.place = .dispatch → Dispatch p s after → Step p s .run after
  | receive (datagram : List UInt8) (waiting : List (List UInt8)) : s.place = .receive → s.closed = false →
      s.waiting = datagram :: waiting → Step p s .receive { s with
        waiting := waiting
        packet := s.packet.fill datagram
        place := .dispatch
        received := s.received ++ [(s.round, datagram)] }
  | ioException : s.place = .receive → Step p s .ioException { s with place := .dispatch }
  | arrive (datagram : List UInt8) : s.closed = false → datagram.length ≤ bufSize → Step p s (.arrive datagram) { s with
      waiting := s.waiting ++ [datagram]
      arrived := s.arrived ++ [datagram] }
  | clearFlag : Step p s .clearFlag { s with
      flag := false
      stopping := s.stopping + 1 }
  | close : 0 < s.stopping → Step p s .close { s with
      closed := true
      stopping := s.stopping - 1 }
  | setListener (listener : Bool) : Step p s (.setListener listener) { s with listener := listener }

theorem dispatch_cases (p : Platform Obj) (s : UdpManager) : Dispatch p s (s.dispatch p) := by
  have hmessage : dispatchMessage p s.listener (s.dataStr p) = none ∧ s.malformed p = true ∨
      ∃ call, dispatchMessage p s.listener (s.dataStr p) = some call ∧ s.malformed p = false := by
    unfold dispatchMessage malformed
    cases p.JSONObject (s.dataStr p) with
    | none => exact Or.inl ⟨rfl, rfl⟩
    | some obj =>
      refine Or.inr ?_
      dsimp only
      split_ifs
      all_goals exact ⟨_, rfl, rfl⟩
  unfold UdpManager.dispatch
  dsimp only
  rcases hmessage with ⟨hnone, hmalformed⟩ | ⟨call, hsome, hparsed⟩
  · rw [hnone]
    exact .thrown hmalformed
  · rw [hsome]
    exact .done call hparsed

/-- Whatever comes of the call, it was made, and nothing was received. -/
theorem Dispatch.dispatched (h : Dispatch p s s') :
    s'.dispatched = s.dispatched ++ [(s.round, s.dataStr p)] ∧ s'.received = s.received := by
  cases h with
  | thrown | done => exact ⟨rfl, rfl⟩

theorem step_cases (h : step p s a = some s') : Step p s a s' := by
  unfold step at h
  split at h
  case h_1 =>
    split at h
    case h_1 hplace =>
      rw [ite_eq_iff] at h
      rcases h with ⟨hflag, h⟩ | ⟨hflag, h⟩
      · cases h
        exact .next hplace hflag
      · cases h
        exact .stop hplace (Bool.not_eq_true _ ▸ hflag)
    case h_2 hplace =>
      cases h
      exact .dispatch _ hplace (dispatch_cases p s)
    case h_3 => cases h
  case h_2 =>
    split at h
    case h_1 datagram waiting hplace hclosed hwaiting =>
      cases h
      exact .receive datagram waiting hplace hclosed hwaiting
    case h_2 => cases h
  case h_3 =>
    split at h
    case h_1 hplace =>
      cases h
      exact .ioException hplace
    case h_2 => cases h
  case h_4 datagram =>
    rw [ite_eq_iff] at h
    rcases h with ⟨⟨hclosed, hlength⟩, h⟩ | ⟨-, h⟩
    · cases h
      exact .arrive datagram hclosed hlength
    · cases h
  case h_5 =>
    cases h
    exact .clearFlag
  case h_6 =>
    rw [ite_eq_iff] at h
    rcases h with ⟨hpos, h⟩ | ⟨-, h⟩
    · cases h
      exact .close hpos
    · cases h
  case h_7 listener =>
    cases h
    exact .setListener listener

/-! ## Rounds -/

/-- A datagram is received in the round the thread is in, or in an earlier one; in the rounds that are over, and only in these,
nothing can be received any more. -/
structure Rounds (s : UdpManager) : Prop where
  le : ∀ r ∈ s.received, r.1 ≤ s.round
  lt : s.place = .receive → ∀ r ∈ s.received, r.1 < s.round
  nodup : (s.received.map Prod.fst).Nodup

/-- The rounds of what was received, in every state. -/
theorem rounds (h : (lts p).Reachable s) : Rounds s := by
  refine Lts.Reachable.invariant ?_ ?_ h
  · rintro s rfl
    exact ⟨fun r hr => (by cases hr), fun _ r hr => (by cases hr), List.nodup_nil⟩
  · intro s a s' _ hI hs
    have hle := hI.le
    have hnodup := hI.nodup
    cases step_cases hs with
    | next => exact ⟨fun r hr => Nat.le_succ_of_le (hle r hr), fun _ r hr => Nat.lt_succ_of_le (hle r hr), hnodup⟩
    | stop => exact ⟨hle, fun hplace => (by cases hplace), hnodup⟩
    | dispatch after _ hafter =>
      cases hafter with
      | thrown | done => exact ⟨hle, fun hplace => (by cases hplace), hnodup⟩
    | receive datagram waiting hplace =>
      have hlt := hI.lt hplace
      refine ⟨fun r hr => ?_, fun hplace => (by cases hplace), ?_⟩
      · rcases List.mem_append.mp hr with hr | hr
        · exact hle r hr
        · exact Nat.le_of_eq (congrArg Prod.fst (List.mem_singleton.mp hr))
      · dsimp only
        rw [List.map_append]
        refine List.nodup_append.mpr ⟨hnodup, List.pairwise_singleton _ _, ?_⟩
        rintro i hi j hj rfl
        obtain ⟨r, hr, rfl⟩ := List.mem_map.mp hi
        exact Nat.ne_of_lt (hlt r hr) (List.mem_singleton.mp hj)
    | ioException => exact ⟨hle, fun hplace => (by cases hplace), hnodup⟩
    | arrive | clearFlag | close | setListener => exact ⟨hle, hI.lt, hnodup⟩

end UdpManager

end LibraLive

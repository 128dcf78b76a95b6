import LibraLive.H264DeCodePlay

/-!
# The feeding loop can starve itself

An output buffer is asked for only after an input buffer was filled, once. Every time-out of that one call leaves a frame with
the codec, and when the last frame and the last input buffer meet, neither side moves again.
-/

namespace LibraLive

namespace H264DeCodePlay

variable {d : H264DeCodePlay} {s s' : MyRun}

/-- Every input buffer is filled, every output buffer holds a frame, and from here on the thread is refused an input buffer and
does nothing else. -/
structure Livelock (d : H264DeCodePlay) (s : MyRun) : Prop where
  filled : s.filled = d.inputs
  frames : s.frames = d.outputs
  refused : ∀ s', (Lts.ofFun s d.step).Reachable s' → s'.place = .loop ∨ ∃ n, s'.place = .dequeueInputBuffer n

/-- Neither side has more buffers than there are, and the unit that is to be queued was found. -/
structure Buffers (d : H264DeCodePlay) (s : MyRun) : Prop where
  filled : s.filled ≤ d.inputs
  taken : ∀ n, s.place = .queueInputBuffer n → s.filled < d.inputs
  frames : s.frames + s.place.held ≤ d.outputs
  found : ∀ n, s.place = .dequeueInputBuffer n →
    s.startIndex < d.bytes.length ∧ findByFrame d.bytes (s.startIndex + 1) d.bytes.length = some n

/-- There is another unit to queue. -/
def more (d : H264DeCodePlay) (s : MyRun) : Bool :=
  s.startIndex < d.bytes.length && (findByFrame d.bytes (s.startIndex + 1) d.bytes.length).isSome

/-- The frame that is left behind: `dequeueOutputBuffer` times out while no buffer of either kind is free and there is another
unit to queue. -/
def missed (d : H264DeCodePlay) (s : MyRun) (a : RunAct) : Bool :=
  a = .dequeueOutputBuffer false ∧ s.filled = d.inputs ∧ s.frames = d.outputs ∧ d.more s

/-! ## What a step can do -/

/-- The steps of the thread and of the codec. -/
inductive Step (d : H264DeCodePlay) (s : MyRun) : RunAct → MyRun → Prop where
  | stop : s.place = .loop →
      (s.startIndex < d.bytes.length → findByFrame d.bytes (s.startIndex + 1) d.bytes.length = none) →
      Step d s .run { s with place := .ended }
  | find (n : Nat) : s.place = .loop → s.startIndex < d.bytes.length →
      findByFrame d.bytes (s.startIndex + 1) d.bytes.length = some n →
      Step d s .run { s with place := .dequeueInputBuffer n }
  | queue (n : Nat) (unit : List UInt8) : s.place = .queueInputBuffer n →
      unit = (d.bytes.drop s.startIndex).take (n - s.startIndex) → Step d s .run { s with
        startIndex := n
        place := .dequeueOutputBuffer
        queued := s.queued ++ [unit]
        filled := s.filled + 1 }
  | overflow (n : Nat) : s.place = .queueInputBuffer n → Step d s .run { s with place := .thrown }
  | release : s.place = .releaseOutputBuffer → Step d s .run { s with place := .loop }
  | input (n : Nat) : s.place = .dequeueInputBuffer n → s.filled < d.inputs →
      Step d s (.dequeueInputBuffer true) { s with place := .queueInputBuffer n }
  | refuse (n : Nat) : s.place = .dequeueInputBuffer n → Step d s (.dequeueInputBuffer false) { s with place := .loop }
  | output : s.place = .dequeueOutputBuffer → 0 < s.frames → Step d s (.dequeueOutputBuffer true) { s with
      place := .releaseOutputBuffer
      frames := s.frames - 1 }
  | noOutput : s.place = .dequeueOutputBuffer → Step d s (.dequeueOutputBuffer false) { s with place := .loop }
  | consume (frame : Bool) : 0 < s.filled → s.frames + s.place.held < d.outputs → Step d s (.consume frame) { s with
      filled := s.filled - 1
      frames := if frame then s.frames + 1 else s.frames }

theorem step_cases {a : RunAct} (h : d.step s a = some s') : Step d s a s' := by
  unfold step at h
  split at h
  case h_1 =>
    unfold run at h
    split at h
    case h_1 hplace =>
      dsimp only at h
      split at h
      case isTrue hend =>
        cases h
        exact .stop hplace fun hlt => by omega
      case isFalse hsome =>
        split at h
        case h_1 hnone =>
          cases h
          exact .stop hplace fun _ => hnone
        case h_2 n hfind =>
          cases h
          exact .find n hplace (by omega) hfind
    case h_2 n hplace =>
      dsimp only at h
      split at h
      case isTrue =>
        cases h
        exact .queue n _ hplace rfl
      case isFalse =>
        cases h
        exact .overflow n hplace
    case h_3 hplace =>
      cases h
      exact .release hplace
    case h_4 => cases h
  case h_2 ok =>
    split at h
    case h_1 n hplace =>
      cases ok with
      | true =>
        rw [if_pos rfl, ite_eq_iff] at h
        rcases h with ⟨hlt, h⟩ | ⟨-, h⟩
        · cases h
          exact .input n hplace hlt
        · cases h
      | false =>
        cases h
        exact .refuse n hplace
    case h_2 => cases h
  case h_3 ok =>
    split at h
    case h_1 hplace =>
      cases ok with
      | true =>
        rw [if_pos rfl, ite_eq_iff] at h
        rcases h with ⟨hpos, h⟩ | ⟨-, h⟩
        · cases h
          exact .output hplace hpos
        · cases h
      | false =>
        cases h
        exact .noOutput hplace
    case h_2 => cases h
  case h_4 frame =>
    rw [ite_eq_iff] at h
    rcases h with ⟨⟨hfilled, hfree⟩, h⟩ | ⟨-, h⟩
    · cases h
      exact .consume frame hfilled hfree
    · cases h

/-! ## Buffers -/

/-- The thread goes on without a buffer, or with the one it has. -/
theorem Buffers.leave (h : Buffers d s) {p : RunPlace} (hheld : p.held ≤ s.place.held)
    (hqueue : ∀ n, p ≠ .queueInputBuffer n) (hdequeue : ∀ n, p ≠ .dequeueInputBuffer n) :
    Buffers d { s with place := p } := by
  have hframes := h.frames
  refine ⟨h.filled, fun n hn => absurd hn (hqueue n), ?_, fun n hn => absurd hn (hdequeue n)⟩
  dsimp only
  omega

/-- The counts of buffers are right in every state. -/
theorem buffers (h : d.lts.Reachable s) : Buffers d s := by
  refine Lts.Reachable.invariant ?_ ?_ h
  · rintro s rfl
    exact ⟨Nat.zero_le _, fun n hn => (by cases hn), Nat.zero_le _, fun n hn => (by cases hn)⟩
  · intro s a s' _ hI hs
    have hframes := hI.frames
    have hfilled := hI.filled
    cases step_cases hs with
    | stop | overflow | release | refuse | noOutput =>
      exact hI.leave (Nat.zero_le _) (fun _ => by simp) (fun _ => by simp)
    | find n hplace hlt hfind =>
      refine ⟨hfilled, fun n hn => (by cases hn), ?_, fun m hm => ?_⟩
      · rw [hplace] at hframes
        exact hframes
      · cases hm
        exact ⟨hlt, hfind⟩
    | queue n unit hplace hunit =>
      refine ⟨hI.taken n hplace, fun n hn => (by cases hn), ?_, fun n hn => (by cases hn)⟩
      rw [hplace] at hframes
      exact hframes
    | input n hplace hlt =>
      refine ⟨hfilled, fun _ _ => hlt, ?_, fun n hn => (by cases hn)⟩
      rw [hplace] at hframes
      exact hframes
    | output hplace hpos =>
      refine ⟨hfilled, fun n hn => (by cases hn), ?_, fun n hn => (by cases hn)⟩
      rw [hplace] at hframes
      simp only [RunPlace.held] at hframes ⊢
      omega
    | consume frame hpos hfree =>
      refine ⟨by dsimp only; omega, fun n hn => ?_, ?_, hI.found⟩
      · have := hI.taken n hn
        dsimp only
        omega
      · dsimp only
        split <;> omega

/-! ## Starving -/

/-- No buffer is free on either side and the thread asks for an input buffer: that is how it stays. -/
theorem livelock_of_full (h : d.lts.Reachable s) (hfilled : s.filled = d.inputs) (hframes : s.frames = d.outputs)
    {n : Nat} (hplace : s.place = .dequeueInputBuffer n) : d.Livelock s := by
  obtain ⟨hlt, hfind⟩ := (buffers h).found n hplace
  refine ⟨hfilled, hframes, fun s' hr => ?_⟩
  have hstuck : s'.startIndex = s.startIndex ∧ s'.filled = d.inputs ∧ s'.frames = d.outputs ∧
      (s'.place = .loop ∨ s'.place = .dequeueInputBuffer n) := by
    refine Lts.Reachable.invariant ?_ ?_ hr
    · rintro s' rfl
      exact ⟨rfl, hfilled, hframes, Or.inr hplace⟩
    · rintro s₁ a s₂ _ ⟨hstart, hfilled, hframes, hplace⟩ hs
      cases step_cases hs with
      | stop _ hnone =>
        rw [hstart, hfind] at hnone
        cases hnone hlt
      | find m _ _ hm =>
        rw [hstart, hfind] at hm
        cases hm
        exact ⟨hstart, hfilled, hframes, Or.inr rfl⟩
      | refuse => exact ⟨hstart, hfilled, hframes, Or.inl rfl⟩
      | input m _ hfree =>
        rw [hfilled] at hfree
        cases Nat.lt_irrefl _ hfree
      | consume frame _ hfree => omega
      | queue m unit hqueue =>
        rw [hqueue] at hplace
        simp at hplace
      | overflow m hqueue =>
        rw [hqueue] at hplace
        simp at hplace
      | release hother | output hother | noOutput hother =>
        rw [hother] at hplace
        simp at hplace
  exact hstuck.2.2.2.imp_right fun hn => ⟨n, hn⟩

/-- The unit that the thread is about to queue is another unit. -/
theorem more_of_found (h : d.lts.Reachable s) {n : Nat} (hplace : s.place = .dequeueInputBuffer n) : d.more s = true := by
  obtain ⟨hlt, hfind⟩ := (buffers h).found n hplace
  simp [more, hlt, hfind]

/-- From the head of the loop the thread goes on to the next unit, if there is one, and to its end otherwise. -/
theorem run_loop (hplace : s.place = .loop) : if d.more s then ∃ n, d.step s .run = some { s with place := .dequeueInputBuffer n }
    else d.step s .run = some { s with place := .ended } := by
  unfold more step run
  rw [hplace]
  dsimp only
  by_cases hlt : s.startIndex < d.bytes.length
  · have hsome : ¬ (d.bytes.length = 0 ∨ d.bytes.length ≤ s.startIndex) := by omega
    rw [if_neg hsome]
    cases findByFrame d.bytes (s.startIndex + 1) d.bytes.length with
    | none => simp
    | some n => simp [hlt]
  · simp [hlt, Nat.le_of_not_lt hlt]

/-- Fewer buffers are in use than there are wherever the thread is not about to take a frame, if no frame was missed and there
is another unit. -/
theorem room (h : (d.lts.restrict fun s a => d.missed s a = false).Reachable s) (hplace : s.place ≠ .dequeueOutputBuffer)
    (hmore : d.more s = true) : s.filled + s.frames < d.inputs + d.outputs := by
  revert hplace hmore
  refine Lts.Reachable.restrict_invariant ?_ ?_ h
  · rintro s rfl _ _
    exact Nat.add_pos_left d.inputs_pos _
  · intro s a s' hr hmissed hI hs
    have hfilled := (buffers hr).filled
    have hframes := (buffers hr).frames
    intro hplace' hmore
    cases step_cases hs with
    | stop hplace | find _ hplace | overflow _ hplace | release hplace | input _ hplace | refuse _ hplace =>
      exact hI (by rw [hplace]; simp) hmore
    | queue => cases hplace' rfl
    | output hplace hpos =>
      dsimp only
      omega
    | noOutput hplace =>
      have hnot : ¬ (s.filled = d.inputs ∧ s.frames = d.outputs) := by
        rintro ⟨hfull, hall⟩
        exact of_decide_eq_false hmissed ⟨rfl, hfull, hall, hmore⟩
      dsimp only
      omega
    | consume frame hpos hfree =>
      have hlt := hI hplace' hmore
      dsimp only
      split <;> omega

/-- The thread starves in no run in which no frame is missed. -/
theorem no_livelock (h : (d.lts.restrict fun s a => d.missed s a = false).Reachable s) : ¬ d.Livelock s := by
  intro hlive
  have hroom : s.place ≠ .dequeueOutputBuffer → d.more s = true → False := by
    intro hplace hmore
    have hlt := room h hplace hmore
    rw [hlive.filled, hlive.frames] at hlt
    exact Nat.lt_irrefl _ hlt
  rcases hlive.refused s (Lts.Reachable.init rfl) with hplace | ⟨n, hplace⟩
  · have hnext := run_loop (d := d) hplace
    by_cases hmore : d.more s = true
    · exact hroom (by rw [hplace]; simp) hmore
    · -- without another unit the thread would end
      rw [if_neg hmore] at hnext
      rcases hlive.refused _ (Lts.Reachable.step (Lts.Reachable.init rfl) hnext) with hend | ⟨n, hend⟩
      · cases hend
      · cases hend
  · exact hroom (by rw [hplace]; simp) (more_of_found h.of_restrict hplace)

/-- Whenever a frame is missed the thread starves. -/
theorem livelock_of_missed {a : RunAct} (h : d.lts.Reachable s) (hmissed : d.missed s a = true)
    (hs : d.step s a = some s') : ∃ s'', d.step s' .run = some s'' ∧ d.Livelock s'' := by
  obtain ⟨rfl, hfilled, hframes, hmore⟩ := of_decide_eq_true hmissed
  have hr' : d.lts.Reachable s' := h.step hs
  cases step_cases hs with
  | noOutput hplace =>
    have hnext := run_loop (d := d) (s := { s with place := .loop }) rfl
    rw [if_pos (show d.more { s with place := .loop } = true from hmore)] at hnext
    obtain ⟨n, hn⟩ := hnext
    exact ⟨_, hn, livelock_of_full (hr'.step hn) hfilled hframes rfl⟩

/-- Four start codes, and a codec with one buffer of either kind. -/
def fourUnits : H264DeCodePlay where
  bytes := [0, 0, 0, 1, 0, 0, 0, 1, 0, 0, 0, 1, 0, 0, 0, 1, 0]
  inputs := 1
  outputs := 1
  capacity := 16
  inputs_pos := Nat.one_pos

/-- Two calls time out: the first before the frame is decoded, the second with both buffers full. -/
theorem livelock_reached : ¬ ∀ (d : H264DeCodePlay) (s : MyRun), d.lts.Reachable s → ¬ d.Livelock s := by
  intro hall
  have hrun : (Lts.replay fourUnits.step .new [.run, .dequeueInputBuffer true, .run, .dequeueOutputBuffer false, .consume true,
      .run, .dequeueInputBuffer true, .run, .dequeueOutputBuffer false, .run]).map (fun s => (s.filled, s.frames, s.place)) =
        some (1, 1, .dequeueInputBuffer 12) := by decide
  obtain ⟨s, hs, hstate⟩ := Option.map_eq_some_iff.mp hrun
  simp only [Prod.mk.injEq] at hstate
  obtain ⟨hfilled, hframes, hplace⟩ := hstate
  have hr : fourUnits.lts.Reachable s := Lts.replay_reachable (fun _ _ _ => id) _ (.init rfl) hs
  exact hall fourUnits s hr (livelock_of_full hr hfilled hframes hplace)

/-- The same run with the second frame taken. -/
theorem no_livelock_example : ¬ fourUnits.Livelock
    { startIndex := 8
      place := .dequeueInputBuffer 12
      queued := [[0, 0, 0, 1], [0, 0, 0, 1]]
      filled := 1
      frames := 0 } := by
  have hrun : Lts.replayIf fourUnits.step (fun s a => !fourUnits.missed s a) .new [.run, .dequeueInputBuffer true, .run,
      .dequeueOutputBuffer false, .consume true, .run, .dequeueInputBuffer true, .run, .dequeueOutputBuffer true, .run, .run] =
        some ⟨8, .dequeueInputBuffer 12, [[0, 0, 0, 1], [0, 0, 0, 1]], 1, 0⟩ := by decide
  exact no_livelock (Lts.replayIf_reachable (fun _ _ _ => id) (fun s a h => by simpa using h) _ (.init rfl) hrun)

end H264DeCodePlay

end LibraLive

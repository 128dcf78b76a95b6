import LibraLive.Theorems.Livelock

/-!
# What is split, and what is left

The thread queues the file in units that begin at its start codes, and it queues a unit only when it finds the next one. The
last unit is followed by none.
-/

namespace LibraLive

namespace H264DeCodePlay

variable {d : H264DeCodePlay} {s s' : MyRun} {bytes : List UInt8} {i j n start k : Nat}

/-- The units are the file, each of them after the first begins with a start code, and none has a start code further on. -/
structure Complete (bytes : List UInt8) (units : List (List UInt8)) : Prop where
  file : units.flatten = bytes
  begins : ∀ unit ∈ units.tail, startsAt unit 0 = true
  within : ∀ unit ∈ units, ∀ i, 0 < i → startsAt unit i = false

/-- What was queued are the complete units of the file up to the next one, whose start is known where the thread asks for
a buffer or has one. -/
structure Splits (d : H264DeCodePlay) (s : MyRun) : Prop where
  units : Complete (d.bytes.take s.startIndex) s.queued
  next : s.queued ≠ [] → startsAt d.bytes s.startIndex = true
  inside : d.bytes = [] ∨ s.startIndex < d.bytes.length
  found : ∀ n, s.place = .dequeueInputBuffer n ∨ s.place = .queueInputBuffer n →
    findByFrame d.bytes (s.startIndex + 1) d.bytes.length = some n

/-! ## Start codes -/

theorem startsAt_iff : startsAt bytes i = true ↔
    bytes[i]? = some 0 ∧ bytes[i + 1]? = some 0 ∧ bytes[i + 2]? = some 0 ∧ bytes[i + 3]? = some 1 := by
  simp [startsAt, and_assoc]

/-- A start code in a part of the file is one of the file. -/
theorem startsAt_part : startsAt ((bytes.drop start).take k) i = true ↔ i + 3 < k ∧ startsAt bytes (start + i) = true := by
  simp only [startsAt_iff, List.getElem?_take, List.getElem?_drop, ← Nat.add_assoc]
  constructor
  · rintro ⟨h0, h1, h2, h3⟩
    by_cases hlt : i + 3 < k
    · rw [if_pos (by omega)] at h0 h1 h2 h3
      exact ⟨hlt, h0, h1, h2, h3⟩
    · rw [if_neg hlt] at h3
      cases h3
  · rintro ⟨hlt, h0, h1, h2, h3⟩
    rw [if_pos (by omega), if_pos (by omega), if_pos (by omega), if_pos hlt]
    exact ⟨h0, h1, h2, h3⟩

/-- Start codes do not overlap. -/
theorem startsAt_apart (hi : startsAt bytes i = true) (hj : startsAt bytes j = true) (hlt : i < j) : i + 4 ≤ j := by
  obtain ⟨-, -, -, hone⟩ := startsAt_iff.mp hi
  obtain ⟨h0, h1, h2, -⟩ := startsAt_iff.mp hj
  by_contra hnear
  obtain rfl | rfl | rfl : j = i + 1 ∨ j = i + 2 ∨ j = i + 3 := by omega
  · exact absurd (hone.symm.trans h2) (by decide)
  · exact absurd (hone.symm.trans h1) (by decide)
  · exact absurd (hone.symm.trans h0) (by decide)

/-- The first start code from an index on, in what the search looks at. -/
theorem findByFrame_eq_some : findByFrame bytes start bytes.length = some n ↔
    startsAt bytes n = true ∧ (start ≤ n ∧ n + 4 < bytes.length) ∧ ∀ i, start ≤ i → i < n → startsAt bytes i = false := by
  unfold findByFrame
  rw [List.find?_range'_eq_some]
  simp only [List.mem_range'_1, Bool.not_eq_true']
  refine and_congr_right fun _ => and_congr_left fun _ => ?_
  omega

/-! ## A step -/

/-- The next unit is queued. -/
theorem Complete.snoc {units : List (List UInt8)} (h : Complete (bytes.take start) units)
    (hnext : units ≠ [] → startsAt bytes start = true) (hfind : findByFrame bytes (start + 1) bytes.length = some n) :
    Complete (bytes.take n) (units ++ [(bytes.drop start).take (n - start)]) := by
  obtain ⟨hstart, ⟨hle, -⟩, hnone⟩ := findByFrame_eq_some.mp hfind
  have hwithin : ∀ i, 0 < i → startsAt ((bytes.drop start).take (n - start)) i = false := by
    intro i hi
    by_contra hcode
    obtain ⟨hlt, hcode⟩ := startsAt_part.mp (by simpa using hcode)
    have hfirst := hnone (start + i) (by omega) (by omega)
    rw [hcode] at hfirst
    cases hfirst
  refine ⟨?_, fun unit hunit => ?_, fun unit hunit => ?_⟩
  · have hsplit : start + (n - start) = n := by omega
    rw [List.flatten_append, h.file, List.flatten_singleton, ← List.take_add, hsplit]
  · by_cases hfirst : units = []
    · rw [hfirst] at hunit
      cases hunit
    · rw [List.tail_append_of_ne_nil hfirst] at hunit
      rcases List.mem_append.mp hunit with hunit | hunit
      · exact h.begins unit hunit
      · rw [List.mem_singleton.mp hunit]
        have hfar := startsAt_apart (hnext hfirst) hstart (by omega)
        exact startsAt_part.mpr ⟨by omega, hnext hfirst⟩
  · rcases List.mem_append.mp hunit with hunit | hunit
    · exact h.within unit hunit
    · rw [List.mem_singleton.mp hunit]
      exact hwithin

/-- The thread goes on with the units it has queued. -/
theorem Splits.go (h : Splits d s) {p : RunPlace} {filled frames : Nat}
    (hplace : ∀ n, p = .dequeueInputBuffer n ∨ p = .queueInputBuffer n →
      findByFrame d.bytes (s.startIndex + 1) d.bytes.length = some n) :
    Splits d ⟨s.startIndex, p, s.queued, filled, frames⟩ :=
  ⟨h.units, h.next, h.inside, hplace⟩

/-- What is queued splits the file up to the next unit, in every state. -/
theorem splits (h : d.lts.Reachable s) : Splits d s := by
  refine Lts.Reachable.invariant ?_ ?_ h
  · rintro s rfl
    refine ⟨⟨rfl, by simp [MyRun.new], by simp [MyRun.new]⟩, fun h => absurd rfl h, ?_, fun n hn => by simp [MyRun.new] at hn⟩
    exact d.bytes.eq_nil_or_concat.imp_right fun ⟨l, b, h⟩ => by simp [MyRun.new, h]
  · intro s a s' _ hI hs
    cases step_cases hs with
    | stop | overflow | release | refuse | output | noOutput => exact hI.go fun n hn => by simp at hn
    | find n hplace hlt hfind =>
      refine hI.go fun m hm => ?_
      simp only [RunPlace.dequeueInputBuffer.injEq, reduceCtorEq, or_false] at hm
      exact hm ▸ hfind
    | input n hplace =>
      refine hI.go fun m hm => ?_
      simp only [RunPlace.queueInputBuffer.injEq, reduceCtorEq, false_or] at hm
      exact hI.found m (Or.inl (hm ▸ hplace))
    | queue n unit hplace hunit =>
      have hfind := hI.found n (Or.inr hplace)
      obtain ⟨hstart, ⟨-, hlt⟩, -⟩ := findByFrame_eq_some.mp hfind
      refine ⟨hunit ▸ hI.units.snoc hI.next hfind, fun _ => hstart, Or.inr (by dsimp only; omega), fun m hm => by simp at hm⟩
    | consume frame => exact hI.go hI.found

/-- In no state of a run the whole file has been delivered, unless there is nothing to deliver: the last unit stays
behind. -/
theorem complete_iff (d : H264DeCodePlay) (s : MyRun) (h : d.lts.Reachable s) : Complete d.bytes s.queued ↔ d.bytes = [] := by
  obtain ⟨hunits, -, hinside, -⟩ := splits h
  constructor
  · intro hcomplete
    refine hinside.resolve_right fun hlt => ?_
    have hlength := congrArg List.length (hunits.file.symm.trans hcomplete.file)
    rw [List.length_take] at hlength
    omega
  · intro hempty
    rw [hempty, List.take_nil] at hunits
    rw [hempty]
    exact hunits

/-- A file, and a codec with one buffer of either kind. -/
def withFile (bytes : List UInt8) : H264DeCodePlay := { fourUnits with bytes := bytes }

/-- Four units, of which three are queued when the thread ends, and an empty file. -/
theorem complete_iff_example :
    (∃ s, fourUnits.lts.Reachable s ∧ s.place = .ended ∧ s.queued = List.replicate 3 [0, 0, 0, 1] ∧
      (Complete fourUnits.bytes s.queued ↔ fourUnits.bytes = [])) ∧
    ∃ s, (withFile []).lts.Reachable s ∧ s.place = .ended ∧
      (Complete (withFile []).bytes s.queued ↔ (withFile []).bytes = []) := by
  have hunits : (Lts.replay fourUnits.step .new ((List.replicate 3 [.run, .dequeueInputBuffer true, .run,
      .dequeueOutputBuffer false, .consume false]).flatten ++ [.run])).map (fun s => (s.place, s.queued)) =
        some (.ended, List.replicate 3 [0, 0, 0, 1]) := by decide
  obtain ⟨s, hs, hstate⟩ := Option.map_eq_some_iff.mp hunits
  simp only [Prod.mk.injEq] at hstate
  have hr : fourUnits.lts.Reachable s := Lts.replay_reachable (fun _ _ _ => id) _ (.init rfl) hs
  have hempty : Lts.replay (withFile []).step .new [.run] = some { MyRun.new with place := .ended } := by decide
  have hr' : (withFile []).lts.Reachable { MyRun.new with place := .ended } :=
    Lts.replay_reachable (fun _ _ _ => id) _ (.init rfl) hempty
  exact ⟨⟨s, hr, hstate.1, hstate.2, complete_iff fourUnits s hr⟩, _, hr', rfl, complete_iff (withFile []) _ hr'⟩

/-- The only unit of a file is never queued. -/
theorem unit_left : ¬ ∀ (d : H264DeCodePlay) (s : MyRun), d.lts.Reachable s → s.place = .ended → Complete d.bytes s.queued := by
  intro h
  have hrun : Lts.replay (withFile [0, 0, 0, 1, 0x65]).step .new [.run] = some { MyRun.new with place := .ended } := by decide
  have hr : (withFile [0, 0, 0, 1, 0x65]).lts.Reachable { MyRun.new with place := .ended } :=
    Lts.replay_reachable (fun _ _ _ => id) _ (.init rfl) hrun
  have hfile : ([] : List UInt8) = [0, 0, 0, 1, 0x65] := (h _ _ hr rfl).file
  cases hfile

end H264DeCodePlay

end LibraLive

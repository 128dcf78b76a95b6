import LibraLive.Utils

/-!
# A picked file is copied

If the stream says that something is available. If it says that nothing is, the buffer is empty, and `read` returns 0 from then on,
whether the stream has anything left or not.
-/

namespace LibraLive

namespace PickedFile

variable {f : PickedFile} {s s' : CopyRun} {a : CopyAct} {n : Nat}

/-- No run goes on forever, none stops before it has returned, with or without an exception, and where a path is returned the file
is what the stream has delivered. -/
structure Copied (f : PickedFile) : Prop where
  halts : f.lts.Halts f.start
  goesOn : ∀ s, f.lts.Reachable s → (∀ a, a ≠ .exception → f.step s a = none) → s.place = .returned ∨ s.place = .caught
  whole : ∀ s, f.lts.Reachable s → s.place = .returned → s.file = f.bytes

/-- What was read and not written. -/
def pending (s : CopyRun) : List UInt8 :=
  match s.place with
  | .write n => s.buffers.take n
  | _ => []

/-- Nothing gets lost between the stream and the file, and something is read each time if anything can be. -/
structure Intact (f : PickedFile) (s : CopyRun) : Prop where
  length : s.place ≠ .opening → s.place ≠ .caught → s.buffers.length = f.bufferSize
  bytes : s.place ≠ .caught → s.file ++ (pending s ++ s.rest) = f.bytes
  ended : s.place = .close ∨ s.place = .returned → s.rest = []

/-! ## Steps -/

/-- The steps of `getPathFromUri`. -/
inductive Step (f : PickedFile) (s : CopyRun) : CopyAct → CopyRun → Prop where
  | opened : s.place = .opening → Step f s .run { s with
      place := .read
      buffers := List.replicate f.bufferSize 0 }
  | written (n : Nat) : s.place = .write n → Step f s .run { s with
      place := .read
      file := s.file ++ s.buffers.take n }
  | closed : s.place = .close → Step f s .run { s with place := .returned }
  | read (n : Nat) : s.place = .read → mayRead s n = true → Step f s (.read n) { s with
      place := .write n
      rest := s.rest.drop n
      buffers := s.rest.take n ++ s.buffers.drop n }
  | endOfStream : s.place = .read → s.buffers.length ≠ 0 → s.rest = [] → Step f s .endOfStream { s with place := .close }
  | exception : s.place ≠ .returned → s.place ≠ .caught → Step f s .exception { s with place := .caught }

theorem step_cases (h : f.step s a = some s') : Step f s a s' := by
  unfold step at h
  split at h
  case h_1 =>
    split at h
    case h_1 hplace =>
      cases h
      exact .opened hplace
    case h_2 n hplace =>
      cases h
      exact .written n hplace
    case h_3 hplace =>
      cases h
      exact .closed hplace
    case h_4 => cases h
  case h_2 n =>
    obtain ⟨⟨hplace, hmay⟩, heq⟩ := Option.ite_none_right_eq_some.mp h
    cases heq
    exact .read n hplace hmay
  case h_3 =>
    obtain ⟨⟨hplace, hlength, hrest⟩, heq⟩ := Option.ite_none_right_eq_some.mp h
    cases heq
    exact .endOfStream hplace hlength hrest
  case h_4 =>
    obtain ⟨hnot, heq⟩ := Option.ite_none_left_eq_some.mp h
    cases heq
    rw [not_or] at hnot
    exact .exception hnot.1 hnot.2

theorem mayRead_iff : mayRead s n = true ↔
    s.buffers.length = 0 ∧ n = 0 ∨ s.buffers.length ≠ 0 ∧ 1 ≤ n ∧ n ≤ s.buffers.length ∧ n ≤ s.rest.length := by
  unfold mayRead
  split <;> simp_all [and_assoc]

/-! ## Runs -/

theorem intact (h : f.lts.Reachable s) : Intact f s := by
  refine Lts.Reachable.invariant ?_ ?_ h
  · rintro s rfl
    exact ⟨fun h => absurd rfl h, fun _ => rfl, by simp [start]⟩
  · intro s a s' _ hI hs
    have hlength := hI.length
    have hbytes := hI.bytes
    cases step_cases hs with
    | opened hplace =>
      rw [pending, hplace] at hbytes
      exact ⟨fun _ _ => List.length_replicate, fun _ => hbytes (by simp), by simp⟩
    | written n hplace =>
      rw [hplace] at hlength
      rw [pending, hplace] at hbytes
      refine ⟨fun _ _ => hlength (by simp) (by simp), fun _ => ?_, by simp⟩
      rw [← hbytes (by simp)]
      exact List.append_assoc ..
    | closed hplace =>
      rw [hplace] at hlength
      rw [pending, hplace] at hbytes
      exact ⟨fun _ _ => hlength (by simp) (by simp), fun _ => hbytes (by simp), fun _ => hI.ended (Or.inl hplace)⟩
    | read n hplace hmay =>
      rw [hplace] at hlength
      rw [pending, hplace] at hbytes
      have hlength := hlength (by simp) (by simp)
      have hmay := mayRead_iff.mp hmay
      have htake : (s.rest.take n).length = n := List.length_take_of_le (by omega)
      refine ⟨fun _ _ => ?_, fun _ => ?_, by simp⟩
      · dsimp only
        rw [List.length_append, htake, List.length_drop]
        omega
      · show s.file ++ ((s.rest.take n ++ s.buffers.drop n).take n ++ s.rest.drop n) = f.bytes
        rw [List.take_left' htake, List.take_append_drop]
        exact hbytes (by simp)
    | endOfStream hplace _ hrest =>
      rw [hplace] at hlength
      rw [pending, hplace] at hbytes
      exact ⟨fun _ _ => hlength (by simp) (by simp), fun _ => hbytes (by simp), fun _ => hrest⟩
    | exception => exact ⟨fun _ h => absurd rfl h, fun h => absurd rfl h, by simp⟩

/-- Where a path is returned the file is the content. -/
theorem whole (h : f.lts.Reachable s) (hplace : s.place = .returned) : s.file = f.bytes := by
  obtain ⟨-, hbytes, hended⟩ := intact h
  rw [pending, hplace, hended (Or.inr hplace), List.append_nil, List.append_nil] at hbytes
  exact hbytes (by simp)

/-- Wherever the copy has not returned, it goes on. -/
theorem goes_on (hstuck : ∀ a, a ≠ .exception → f.step s a = none) :
    s.place = .returned ∨ s.place = .caught := by
  have hrun := hstuck .run (by simp)
  have hread := hstuck (.read (if s.buffers.length = 0 then 0 else 1)) (by simp)
  have hend := hstuck .endOfStream (by simp)
  cases hplace : s.place with
  | returned => exact Or.inl rfl
  | caught => exact Or.inr rfl
  | opening | write | close => simp [step, hplace] at hrun
  | read =>
    -- the buffer is empty, or the stream is, or one byte can be read
    simp only [step, hplace, true_and, ite_eq_right_iff, reduceCtorEq, imp_false, not_and, ne_eq] at hread hend
    rw [mayRead_iff] at hread
    by_cases hempty : s.buffers.length = 0
    · simp [hempty] at hread
    · have hrest : 1 ≤ s.rest.length := List.length_pos_iff.mpr (hend hempty)
      rw [if_neg hempty] at hread
      omega

/-- What is still to be done: two steps for each byte that can be read. -/
def work (s : CopyRun) : Nat :=
  match s.place with
  | .opening => 2 * s.rest.length + 4
  | .read => 2 * s.rest.length + 2
  | .write _ => 2 * s.rest.length + 3
  | .close => 1
  | .returned | .caught => 0

/-- With something available, every step leaves less to do. -/
theorem halts (hpos : 0 < f.available) : f.lts.Halts f.start := by
  have hsize : 0 < f.bufferSize := by
    unfold bufferSize maxBufferSize
    omega
  refine Lts.halts_of_measure (I := f.lts.Reachable) work (fun s a s' hr hs => ⟨hr.step hs, ?_⟩) (.init rfl)
  have hlength := (intact hr).length
  unfold work
  cases step_cases hs with
  | opened hplace | written _ hplace | closed hplace | endOfStream hplace =>
    rw [hplace]
    dsimp only
    omega
  | read n hplace hmay =>
    rw [hplace] at hlength ⊢
    have hlength := hlength (by simp) (by simp)
    have hmay := mayRead_iff.mp hmay
    dsimp only
    rw [List.length_drop]
    omega
  | exception hreturned hcaught =>
    dsimp only
    cases hplace : s.place with
    | returned => exact absurd hplace hreturned
    | caught => exact absurd hplace hcaught
    | opening | read | write | close => simp

/-- With nothing available, `read` returns 0 again and again. -/
theorem not_halts (hzero : f.available = 0) : ¬ f.lts.Halts f.start := by
  have hsize : f.bufferSize = 0 := by
    unfold bufferSize
    omega
  intro hhalts
  have hopen : f.step f.start .run = some { f.start with
      place := .read
      buffers := [] } := by
    simp [step, start, hsize]
  refine Lts.not_halts_of_closed (I := fun s => s.buffers = [] ∧ (s.place = .read ∨ s.place = .write 0)) ?_ ⟨rfl, Or.inl rfl⟩
    (hhalts.step hopen)
  rintro s ⟨hbuffers, hplace | hplace⟩
  · exact ⟨.read 0, { s with place := .write 0 }, by simp [lts, Lts.ofFun, step, mayRead, hplace, hbuffers], hbuffers, Or.inr rfl⟩
  · exact ⟨.run, { s with place := .read }, by simp [lts, Lts.ofFun, step, hplace, hbuffers], hbuffers, Or.inl rfl⟩

/-- The copy is made, whatever `read` returns, exactly if something was said to be available. -/
theorem copied_iff (f : PickedFile) : f.Copied ↔ 0 < f.available := by
  constructor
  · intro h
    by_contra hzero
    exact not_halts (by omega) h.halts
  · exact fun hpos => ⟨halts hpos, fun _ _ => goes_on, fun _ => whole⟩

/-- The copy of an empty file, of which nothing is available, does not end. -/
theorem empty_file_hangs : ¬ ∀ f : PickedFile, f.Copied :=
  fun h => absurd ((h ⟨[], 0⟩).halts) (not_halts rfl)

end PickedFile

end LibraLive

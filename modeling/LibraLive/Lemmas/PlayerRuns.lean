import LibraLive.Player

/-!
# Runs of the prepare thread

When every FFmpeg call succeeds, the scan of the streams turns each audio and each video stream into a channel, the last one
of its kind staying in the player. `prepared` is the player after the scan; runs that need a started player begin there.
-/

namespace LibraLive

namespace Player

/-- The channel of a kind after `i` streams: that of the last one of its type. -/
def madeChannel (streams : List AVMediaType) (k : Kind) (type : AVMediaType) : Nat → Option Channel
  | 0 => none
  | i + 1 => if streams[i]? = some type then some (Channel.new k i) else madeChannel streams k type i

/-- The player in the scan of its streams, `i` of which are done. -/
def scanAt (streams : List AVMediaType) (i : Nat) (prepare : PreparePc) : Player :=
  { Player.new streams with
    audioChannel := madeChannel streams .audio .audio i
    videoChannel := madeChannel streams .video .video i
    prepare := prepare }

/-- The player after the scan. -/
def prepared (streams : List AVMediaType) : Player := scanAt streams streams.length .checkMedia

/-- A channel the scan made is as constructed. -/
theorem madeChannel_eq_some {streams : List AVMediaType} {k : Kind} {type : AVMediaType} {i : Nat} {c : Channel}
    (h : madeChannel streams k type i = some c) : ∃ j : Nat, c = Channel.new k j := by
  induction i with
  | zero => cases h
  | succ i ih =>
    unfold madeChannel at h
    by_cases hi : streams[i]? = some type
    · rw [if_pos hi] at h
      exact ⟨i, (Option.some.inj h).symm⟩
    · rw [if_neg hi] at h
      exact ih h

/-- The scan makes a channel exactly if it passes a stream of the type. -/
theorem madeChannel_isSome {streams : List AVMediaType} {k : Kind} {type : AVMediaType} {i : Nat} :
    (madeChannel streams k type i).isSome = true ↔ type ∈ streams.take i := by
  induction i with
  | zero => simp [madeChannel]
  | succ i ih =>
    unfold madeChannel
    rw [List.take_add_one, List.mem_append, ← ih]
    by_cases hi : streams[i]? = some type
    · simp [hi]
    · rw [if_neg hi]
      simp [hi]

/-- No step of the scan finds the player crashed. -/
theorem crashed_scanAt (streams : List AVMediaType) (i : Nat) (prepare : PreparePc) :
    (scanAt streams i prepare).crashed = false := by
  have hnone : ∀ k type, (madeChannel streams k type i).any (·.crash.isSome) = false := by
    intro k type
    rw [Option.any_eq_false]
    intro c hc
    obtain ⟨j, rfl⟩ := madeChannel_eq_some hc
    simp [Channel.new]
  simp [crashed, scanAt, Player.new, hnone]

/-- The last step for one stream makes its channel. -/
theorem makeChannel_scanAt (streams : List AVMediaType) (i : Nat) :
    (scanAt streams i (.makeChannel i)).initPrepare 0 = some (scanAt streams (i + 1) (.streamLoop (i + 1))) := by
  simp only [initPrepare, scanAt, Player.new, madeChannel]
  cases hi : streams[i]? with
  | none => simp
  | some type => cases type <;> simp

/-- The loop test over the streams. -/
theorem streamLoop_scanAt (streams : List AVMediaType) (i : Nat) : (scanAt streams i (.streamLoop i)).initPrepare 0 =
    some (scanAt streams i (if i < streams.length then .findDecoder i else .checkMedia)) := rfl

section
variable {P : Player → PlayerAct → Prop} (hP : ∀ s ret, s.ui = .idle → P s (.prepare ret)) {streams : List AVMediaType}
include hP

/-- A step of the scan, in any system whose condition lets the prepare thread run before `stop` is called. -/
theorem scan_prepare {i : Nat} {prepare : PreparePc} {s' : Player} (ret : Int)
    (hr : ((lts streams).restrict P).Reachable (scanAt streams i prepare))
    (h : (scanAt streams i prepare).initPrepare ret = some s') : ((lts streams).restrict P).Reachable s' := by
  refine hr.step (a := .prepare ret) ⟨hP _ _ rfl, ?_⟩
  change (scanAt streams i prepare).step (.prepare ret) = some s'
  unfold step
  rw [crashed_scanAt]
  exact h

/-- The scan of a source all of whose FFmpeg calls succeed reaches every stream. -/
theorem scan_reachable (i : Nat) (hi : i ≤ streams.length) :
    ((lts streams).restrict P).Reachable (scanAt streams i (.streamLoop i)) := by
  induction i with
  | zero =>
    have h0 : ((lts streams).restrict P).Reachable (scanAt streams 0 .openInput) := .init rfl
    have h1 : ((lts streams).restrict P).Reachable (scanAt streams 0 .findStreamInfo) := scan_prepare hP 0 h0 rfl
    exact scan_prepare hP 0 h1 rfl
  | succ i ih =>
    have h0 := ih (by omega)
    have h1 : ((lts streams).restrict P).Reachable (scanAt streams i (.findDecoder i)) := by
      refine scan_prepare hP 0 h0 ?_
      rw [streamLoop_scanAt, if_pos (by omega)]
    have h2 : ((lts streams).restrict P).Reachable (scanAt streams i (.allocContext i)) := scan_prepare hP 1 h1 rfl
    have h3 : ((lts streams).restrict P).Reachable (scanAt streams i (.setParameters i)) := scan_prepare hP 1 h2 rfl
    have h4 : ((lts streams).restrict P).Reachable (scanAt streams i (.openDecoder i)) := scan_prepare hP 0 h3 rfl
    have h5 : ((lts streams).restrict P).Reachable (scanAt streams i (.makeChannel i)) := scan_prepare hP 0 h4 rfl
    exact scan_prepare hP 0 h5 (makeChannel_scanAt streams i)

/-- So it reaches its end. -/
theorem prepared_reachable : ((lts streams).restrict P).Reachable (prepared streams) := by
  refine scan_prepare hP 0 (scan_reachable hP streams.length (Nat.le_refl _)) ?_
  rw [streamLoop_scanAt, if_neg (by omega), prepared]

end

/-- What a list of steps leads to from the end of the scan is reached by a run. -/
theorem reachable_of_prepared {streams : List AVMediaType} {acts : List PlayerAct} {s : Player}
    (h : Lts.replay step (prepared streams) acts = some s) : (lts streams).Reachable s := by
  have hp : ((lts streams).restrict fun _ _ => True).Reachable (prepared streams) :=
    prepared_reachable (fun _ _ _ => trivial)
  exact Lts.replay_reachable (fun _ _ _ => id) acts hp.of_restrict h

/-- The steps of the prepare thread from the verdict of the scan to its end, for a player with both channels. -/
def startActs : List PlayerAct := List.replicate 18 (.prepare 0)

/-- One turn of the demux loop that reads a packet of the given stream. -/
def readActs (stream_index : Int) : List PlayerAct := List.replicate 5 (.demux 0 stream_index 0)

end Player

end LibraLive

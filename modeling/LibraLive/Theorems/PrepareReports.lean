import Mathlib.Logic.Relation
import LibraLive.Prepare

/-!
# How often `init_prepare` reports

Every exit of the routine makes one call into Java, and all but one exit return after it: where `avformat_find_stream_info`
fails the report is made and the loop over the streams goes on, so that a second report follows. The routine in one piece
(`Prepare`) and the prepare thread of `Player` agree on the calls and on the channels (`prepareThread_agrees`).
-/

namespace LibraLive

/-- `init_prepare` made exactly one call into Java, `onError` with one code or `onPrepare`. -/
def ReportsOnce (r : Prepare) : Prop := ∃ callback, r.callbacks = [callback]

/-- The source opens, and `avformat_find_stream_info` fails on it. -/
def Source.infoFails (source : Source) : Prop := source.open_input = 0 ∧ source.find_stream_info < 0

/-- For a source whose streams cannot be found two codes are reported. -/
theorem reports_twice : ¬ ∀ source, ReportsOnce (Prepare.initPrepare source) := by
  intro hall
  obtain ⟨callback, hone⟩ := hall ⟨0, -1, []⟩
  have htwo : (Prepare.initPrepare ⟨0, -1, []⟩).callbacks =
      [.onError FFMPEG_CAN_NOT_FIND_STREAMS, .onError FFMPEG_NO_MEDIA] := rfl
  rw [htwo] at hone
  simp at hone

namespace Prepare

/-- The loop and what follows it make one call. -/
theorem callbacks_streamLoop (streams : List SourceStream) (r : Prepare) (i : Nat) :
    ∃ callback, (r.streamLoop i streams).callbacks = r.callbacks ++ [callback] := by
  induction streams generalizing r i with
  | nil =>
    simp only [streamLoop, checkMedia]
    split
    · exact ⟨_, rfl⟩
    · exact ⟨_, rfl⟩
  | cons stream streams ih =>
    simp only [streamLoop]
    split
    · exact ⟨_, rfl⟩
    · split
      · exact ⟨_, rfl⟩
      · split
        · exact ⟨_, rfl⟩
        · split
          · exact ⟨_, rfl⟩
          · obtain ⟨callback, h⟩ := ih ((r.allocContext i).makeChannel i stream.codec_type) (i + 1)
            exact ⟨callback, by simpa using h⟩

end Prepare

/-- For every source, whatever its streams and whatever FFmpeg returns for them, `init_prepare` makes exactly one call into
Java if and only if it is not so that the source opens and `avformat_find_stream_info` fails on it. -/
theorem reports_once_iff (source : Source) : ReportsOnce (Prepare.initPrepare source) ↔ ¬ source.infoFails := by
  unfold Source.infoFails Prepare.initPrepare
  by_cases hopen : source.open_input = 0
  · rw [if_neg (not_not.mpr hopen)]
    by_cases hinfo : source.find_stream_info < 0
    · -- the first report is not followed by a `return`
      obtain ⟨callback, h⟩ := Prepare.callbacks_streamLoop source.streams (Prepare.new.onError FFMPEG_CAN_NOT_FIND_STREAMS) 0
      rw [if_pos hinfo]
      simp [ReportsOnce, h, hopen, hinfo]
    · obtain ⟨callback, h⟩ := Prepare.callbacks_streamLoop source.streams Prepare.new 0
      rw [if_neg hinfo]
      simp [ReportsOnce, h, hinfo]
  · rw [if_pos hopen]
    simp [ReportsOnce, hopen]

/-! ## The prepare thread of the player -/

/-- What the FFmpeg call returns that the prepare thread is at. -/
def Source.ret (source : Source) : PreparePc → Int
  | .openInput => source.open_input
  | .findStreamInfo => source.find_stream_info
  | .findDecoder i => (source.streams[i]?).elim 0 SourceStream.find_decoder
  | .allocContext i => (source.streams[i]?).elim 0 SourceStream.alloc_context3
  | .setParameters i => (source.streams[i]?).elim 0 SourceStream.parameters_to_context
  | .openDecoder i => (source.streams[i]?).elim 0 SourceStream.open2
  | _ => 0

/-- The codec types of the streams. -/
def Source.types (source : Source) : List AVMediaType := source.streams.map SourceStream.codec_type

/-- The prepare thread takes a step, and the FFmpeg call in it returns what it returns for the source. -/
def PrepareTurn (source : Source) (s s' : Player) : Prop := s.step (.prepare (source.ret s.prepare)) = some s'

/-- The prepare thread runs alone. -/
abbrev PrepareRun (source : Source) : Player → Player → Prop := Relation.ReflTransGen (PrepareTurn source)

/-- The player has done what `r` has: the calls are the same, and so are the channels, as constructed. -/
structure Agrees (source : Source) (s : Player) (r : Prepare) : Prop where
  streams : s.streams = source.types
  callHelper : s.callHelper = true
  ui : s.ui = .idle
  helperDeletes : s.helperDeletes = 0
  fault : s.fault = none
  callbacks : s.callbacks = r.callbacks
  channel : ∀ k, s.channel k = (r.channel k).map fun c => Channel.new k c.id

namespace Agrees

variable {source : Source} {s : Player} {r : Prepare}

/-- A player that agrees has not crashed: its channels are as constructed. -/
theorem crashed (hs : Agrees source s r) : s.crashed = false := by
  have hnew : ∀ k, (s.channel k).any (·.crash.isSome) = false := by
    intro k
    rw [hs.channel k]
    cases r.channel k <;> rfl
  have ha := hnew .audio
  have hv := hnew .video
  simp only [Player.channel] at ha hv
  simp [Player.crashed, hs.fault, ha, hv]

/-- A step of the routine is a turn of the prepare thread. -/
theorem turn (hs : Agrees source s r) {s' : Player} (h : s.initPrepare (source.ret s.prepare) = some s') :
    PrepareTurn source s s' := by
  unfold PrepareTurn Player.step
  rw [hs.crashed, if_neg (by simp), if_neg (by simp [hs.ui])]
  exact h

/-- Contexts are not kept account of in the player. -/
theorem allocContext (hs : Agrees source s r) (i : Nat) : Agrees source s (r.allocContext i) := by
  obtain ⟨h1, h2, h3, h4, h5, h6, h7⟩ := hs
  exact ⟨h1, h2, h3, h4, h5, h6, fun k => by cases k <;> [exact h7 .audio; exact h7 .video]⟩

/-- The prepare thread comes to another place. -/
theorem moved (hs : Agrees source s r) (prepare : PreparePc) : Agrees source { s with prepare := prepare } r := by
  obtain ⟨h1, h2, h3, h4, h5, h6, h7⟩ := hs
  exact ⟨h1, h2, h3, h4, h5, h6, fun k => by cases k <;> [exact h7 .audio; exact h7 .video]⟩

/-- A turn that only moves the prepare thread. -/
theorem move (hs : Agrees source s r) (prepare : PreparePc)
    (h : s.initPrepare (source.ret s.prepare) = some { s with prepare := prepare }) :
    PrepareRun source s { s with prepare := prepare } ∧ Agrees source { s with prepare := prepare } r :=
  ⟨.single (hs.turn h), hs.moved prepare⟩

/-- The end of a run: back from the last call, or in the listener of `onPrepare`. -/
def Done (source : Source) (s s' : Player) (r : Prepare) : Prop :=
  PrepareRun source s s' ∧ Agrees source s' r ∧ (s'.prepare = .errorReported ∨ s'.prepare = .start .setPlaying)

/-- A report is made and the routine returns. -/
theorem report (hs : Agrees source s r) {code : Nat} (hpc : s.prepare = .onError code) :
    ∃ s', Done source s s' (r.onError code) := by
  have h : s.initPrepare (source.ret s.prepare) =
      some { s with callbacks := s.callbacks ++ [.onError code], prepare := .errorReported } := by
    simp [Player.initPrepare, hpc, Player.onError, hs.callHelper]
  refine ⟨_, .single (hs.turn h), ?_, Or.inl rfl⟩
  obtain ⟨h1, h2, h3, h4, h5, h6, h7⟩ := hs
  exact ⟨h1, h2, h3, h4, h5, by simp [h6], fun k => by cases k <;> [exact h7 .audio; exact h7 .video]⟩

/-- A run goes on from where another one ended. -/
theorem Done.head {s₁ : Player} (h : PrepareRun source s s₁) (hd : ∃ s', Done source s₁ s' r) :
    ∃ s', Done source s s' r := by
  obtain ⟨s', hrun, hdone⟩ := hd
  exact ⟨s', h.trans hrun, hdone⟩

/-- A call that fails leads to a report. -/
theorem fail (hs : Agrees source s r) {code : Nat}
    (h : s.initPrepare (source.ret s.prepare) = some { s with prepare := .onError code }) :
    ∃ s', Done source s s' (r.onError code) := by
  obtain ⟨hrun, hs'⟩ := hs.move _ h
  exact Done.head hrun (hs'.report rfl)

/-- After the loop. -/
theorem checkMedia (hs : Agrees source s r) (hpc : s.prepare = .checkMedia) : ∃ s', Done source s s' r.checkMedia := by
  have ha := hs.channel .audio
  have hv := hs.channel .video
  simp only [Player.channel, Prepare.channel] at ha hv
  have hnone : (s.audioChannel.isNone && s.videoChannel.isNone) = (r.audioChannel.isNone && r.videoChannel.isNone) := by
    rw [ha, hv]
    cases r.audioChannel <;> cases r.videoChannel <;> rfl
  unfold Prepare.checkMedia
  by_cases hc : (r.audioChannel.isNone && r.videoChannel.isNone) = true
  · rw [if_pos hc]
    refine hs.fail ?_
    simp only [Player.initPrepare, hpc, hnone, hc, if_true]
  · rw [if_neg hc]
    have hmove : s.initPrepare (source.ret s.prepare) = some { s with prepare := .onPrepare } := by
      simp only [Player.initPrepare, hpc, hnone, hc]
      rfl
    obtain ⟨hrun, hs'⟩ := hs.move _ hmove
    have hcall : ({ s with prepare := .onPrepare } : Player).initPrepare (source.ret .onPrepare) =
        some { s with callbacks := s.callbacks ++ [.onPrepare], prepare := .start .setPlaying } := by
      simp [Player.initPrepare, hs.callHelper]
    refine ⟨_, hrun.tail (hs'.turn hcall), ?_, Or.inr rfl⟩
    obtain ⟨h1, h2, h3, h4, h5, h6, h7⟩ := hs
    exact ⟨h1, h2, h3, h4, h5, by simp [h6], fun k => by cases k <;> [exact h7 .audio; exact h7 .video]⟩

/-- The last statement of a turn of the loop. -/
theorem makeChannel (hs : Agrees source s r) {i : Nat} {stream : SourceStream} (hi : source.streams[i]? = some stream)
    (hpc : s.prepare = .makeChannel i) : ∃ s', PrepareRun source s s' ∧
      Agrees source s' ((r.allocContext i).makeChannel i stream.codec_type) ∧ s'.prepare = .streamLoop (i + 1) := by
  have htype : s.streams[i]? = some stream.codec_type := by simp [hs.streams, Source.types, hi]
  obtain ⟨h1, h2, h3, h4, h5, h6, h7⟩ := id hs
  cases ht : stream.codec_type with
  | video =>
    refine ⟨{ s with videoChannel := some (Channel.new .video i), prepare := .streamLoop (i + 1) },
      .single (hs.turn ?_), ⟨h1, h2, h3, h4, h5, h6, ?_⟩, rfl⟩
    · simp [Player.initPrepare, hpc, htype, ht]
    · intro k
      cases k with
      | audio => exact h7 .audio
      | video => rfl
  | audio =>
    refine ⟨{ s with audioChannel := some (Channel.new .audio i), prepare := .streamLoop (i + 1) },
      .single (hs.turn ?_), ⟨h1, h2, h3, h4, h5, h6, ?_⟩, rfl⟩
    · simp [Player.initPrepare, hpc, htype, ht]
    · intro k
      cases k with
      | audio => rfl
      | video => exact h7 .video
  | other =>
    refine ⟨{ s with prepare := .streamLoop (i + 1) }, .single (hs.turn ?_), ?_, rfl⟩
    · simp [Player.initPrepare, hpc, htype, ht]
    · exact ⟨h1, h2, h3, h4, h5, h6, fun k => by cases k <;> [exact h7 .audio; exact h7 .video]⟩

/-- The loop from stream `i` on, and what comes after it. -/
theorem streamLoop (streams : List SourceStream) (hs : Agrees source s r) {i : Nat} (hi : source.streams.drop i = streams)
    (hpc : s.prepare = .streamLoop i) : ∃ s', Done source s s' (r.streamLoop i streams) := by
  induction streams generalizing s r i with
  | nil =>
    have hlen : ¬ i < s.streams.length := by
      rw [hs.streams, Source.types, List.length_map]
      exact Nat.not_lt.mpr (List.drop_eq_nil_iff.mp hi)
    have hmove : s.initPrepare (source.ret s.prepare) = some { s with prepare := .checkMedia } := by
      simp only [Player.initPrepare, hpc, hlen, if_false]
    obtain ⟨hrun, hs'⟩ := hs.move _ hmove
    exact Done.head hrun (hs'.checkMedia rfl)
  | cons stream streams ih =>
    have hget : source.streams[i]? = some stream := by
      have h := congrArg List.head? hi
      rwa [List.head?_drop] at h
    have hdrop : source.streams.drop (i + 1) = streams := by
      rw [← List.tail_drop, hi]
      rfl
    have hlen : i < s.streams.length := by
      rw [hs.streams, Source.types, List.length_map]
      exact (List.getElem?_eq_some_iff.mp hget).1
    obtain ⟨hrun, hs₁⟩ := hs.move (.findDecoder i)
      (by simp only [Player.initPrepare, hpc, hlen, if_true])
    refine Done.head hrun ?_
    unfold Prepare.streamLoop
    by_cases hfind : stream.find_decoder = 0
    · rw [if_pos hfind]
      exact hs₁.fail (by simp [Player.initPrepare, Source.ret, hget, hfind])
    rw [if_neg hfind]
    obtain ⟨hrun, hs₂⟩ := hs₁.move (.allocContext i)
      (by simp [Player.initPrepare, Source.ret, hget, hfind])
    refine Done.head hrun ?_
    by_cases halloc : stream.alloc_context3 = 0
    · rw [if_pos halloc]
      exact hs₂.fail (by simp [Player.initPrepare, Source.ret, hget, halloc])
    rw [if_neg halloc]
    obtain ⟨hrun, hs₃⟩ := hs₂.move (.setParameters i)
      (by simp [Player.initPrepare, Source.ret, hget, halloc])
    refine Done.head hrun ?_
    by_cases hparameters : stream.parameters_to_context < 0
    · rw [if_pos hparameters]
      exact (hs₃.allocContext i).fail (by simp [Player.initPrepare, Source.ret, hget, hparameters])
    rw [if_neg hparameters]
    obtain ⟨hrun, hs₄⟩ := hs₃.move (.openDecoder i)
      (by simp [Player.initPrepare, Source.ret, hget, hparameters])
    refine Done.head hrun ?_
    by_cases hopen : stream.open2 ≠ 0
    · rw [if_pos hopen]
      exact (hs₄.allocContext i).fail (by simp [Player.initPrepare, Source.ret, hget, hopen])
    rw [if_neg hopen]
    obtain ⟨hrun, hs₅⟩ := hs₄.move (.makeChannel i)
      (by simp [Player.initPrepare, Source.ret, hget, hopen])
    refine Done.head hrun ?_
    obtain ⟨s', hrun, hs', hpc'⟩ := hs₅.makeChannel hget rfl
    exact Done.head hrun (ih hs' hdrop hpc')

end Agrees

/-- Run alone on a source, the prepare thread makes the calls into Java and the channels that `init_prepare` makes in one
piece, and is then back from its last report, or in the listener that `onPrepare` calls. -/
theorem prepareThread_agrees (source : Source) :
    ∃ s', Agrees.Done source (Player.new source.types) s' (Prepare.initPrepare source) := by
  have hs : Agrees source (Player.new source.types) Prepare.new :=
    ⟨rfl, rfl, rfl, rfl, rfl, rfl, fun k => by cases k <;> rfl⟩
  unfold Prepare.initPrepare
  by_cases hopen : source.open_input ≠ 0
  · rw [if_pos hopen]
    exact hs.fail (by simp [Player.initPrepare, Player.new, Source.ret, hopen])
  rw [if_neg hopen]
  obtain ⟨hrun, hs₁⟩ := hs.move .findStreamInfo
    (by simp [Player.initPrepare, Player.new, Source.ret, not_not.mp hopen])
  refine Agrees.Done.head hrun ?_
  by_cases hinfo : source.find_stream_info < 0
  · rw [if_pos hinfo]
    obtain ⟨hrun, hs₂⟩ := hs₁.move .infoError
      (by simp [Player.initPrepare, Source.ret, hinfo])
    refine Agrees.Done.head hrun ?_
    have hreport : PrepareTurn source { Player.new source.types with prepare := .infoError }
        { Player.new source.types with callbacks := [.onError FFMPEG_CAN_NOT_FIND_STREAMS], prepare := .infoReported } :=
      hs₂.turn rfl
    have hs₃ : Agrees source
        { Player.new source.types with callbacks := [.onError FFMPEG_CAN_NOT_FIND_STREAMS], prepare := .infoReported }
        (Prepare.new.onError FFMPEG_CAN_NOT_FIND_STREAMS) :=
      ⟨rfl, rfl, rfl, rfl, rfl, rfl, fun k => by cases k <;> rfl⟩
    obtain ⟨hrun, hs₄⟩ := hs₃.move (.streamLoop 0) rfl
    exact Agrees.Done.head (.head hreport hrun) (hs₄.streamLoop source.streams rfl rfl)
  · rw [if_neg hinfo]
    obtain ⟨hrun, hs₂⟩ := hs₁.move (.streamLoop 0)
      (by simp [Player.initPrepare, Source.ret, hinfo])
    exact Agrees.Done.head hrun (hs₂.streamLoop source.streams rfl rfl)

end LibraLive

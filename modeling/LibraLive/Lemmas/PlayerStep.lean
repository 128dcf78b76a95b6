import LibraLive.Player

/-!
# What one step of each thread of the player does

`PrepareStep`, `DemuxStep`, `StopperStep` and `UiStep` list the steps of the four threads with the state each one leads to;
steps that only move a thread and mean the same to every proof share a line. `step_cases` puts them together.
-/

namespace LibraLive

/-! ## Where the two kinds of channel have their place -/

namespace Kind

/-- The codec type whose streams get a channel of this kind. -/
def mediaType : Kind → AVMediaType
  | .audio => .audio
  | .video => .video

/-- The statement of `NiubiPlayer::start` that starts the channel. -/
def startPc : Kind → StartPc
  | .video => .videoStart
  | .audio => .audioStart

/-- The statement of `NiubiPlayer::start` after it. -/
def startNext : Kind → StartPc
  | .video => .audioStart
  | .audio => .createPlay

/-- The place in `init_start` that tests how long the packets queue of the channel is. -/
def sizePc : Kind → DemuxPc
  | .audio => .audioSize
  | .video => .videoSize

/-- The place after that test. -/
def sizeNext : Kind → DemuxPc
  | .audio => .videoSize
  | .video => .readFrame

/-- The place in `init_start` that stops the channel. -/
def stopPc : Kind → DemuxPc
  | .video => .stopVideo
  | .audio => .stopAudio

/-- The place after it. -/
def stopNext : Kind → DemuxPc
  | .video => .stopAudio
  | .audio => .ended

/-- The place in `init_stop` that deletes the channel. -/
def deletePc : Kind → StopPc
  | .video => .deleteVideo
  | .audio => .deleteAudio

/-- The place after it. -/
def deleteNext : Kind → StopPc
  | .video => .deleteAudio
  | .audio => .deleteHelper

end Kind

/-- In the scan of the streams, before its verdict. -/
def PreparePc.scans : PreparePc → Bool
  | .openInput | .findStreamInfo | .infoError | .infoReported | .streamLoop _ | .findDecoder _ | .allocContext _
  | .setParameters _ | .openDecoder _ | .makeChannel _ | .checkMedia => true
  | _ => false

/-- How many of `n` streams have been turned into channels. -/
def PreparePc.made (n : Nat) : PreparePc → Nat
  | .openInput | .findStreamInfo | .infoError | .infoReported => 0
  | .streamLoop i | .findDecoder i | .allocContext i | .setParameters i | .openDecoder i | .makeChannel i => i
  | _ => n

/-- At a place that calls a method of `callHelper`. -/
def PreparePc.reports : PreparePc → Bool
  | .infoError | .onError _ | .onPrepare => true
  | _ => false

attribute [simp] PreparePc.inHelper PreparePc.scans PreparePc.made PreparePc.reports

/-! ## Reading and replacing channels -/

namespace Player

variable {s s' : Player}

/-- The channels are the two members. -/
theorem channel_congr (ha : s'.audioChannel = s.audioChannel) (hv : s'.videoChannel = s.videoChannel) (k : Kind) :
    s'.channel k = s.channel k := by
  cases k with
  | audio => exact ha
  | video => exact hv

@[simp] theorem channel_setChannel (s : Player) (k : Kind) (c : Option Channel) : (s.setChannel k c).channel k = c := by
  cases k <;> rfl

/-- A player with the channels of a player one of whose channels was replaced. -/
theorem channel_of_setChannel {k : Kind} {c : Option Channel} (ha : s'.audioChannel = (s.setChannel k c).audioChannel)
    (hv : s'.videoChannel = (s.setChannel k c).videoChannel) : s'.channel k = c :=
  (channel_congr ha hv k).trans (channel_setChannel s k c)

/-- Replacing one channel leaves the other. -/
theorem channel_setChannel_of_ne (s : Player) {k k' : Kind} (c : Option Channel) (h : k' ≠ k) :
    (s.setChannel k c).channel k' = s.channel k' := by
  cases k <;> cases k' <;> first | rfl | exact absurd rfl h

/-- A channel after one was replaced is the new one, or was there before. -/
theorem channel_setChannel_cases {k k' : Kind} {c : Option Channel} {c' : Channel}
    (h : (s.setChannel k c).channel k' = some c') : (k' = k ∧ c = some c') ∨ (k' ≠ k ∧ s.channel k' = some c') := by
  by_cases hk : k' = k
  · subst hk
    rw [channel_setChannel] at h
    exact Or.inl ⟨rfl, h⟩
  · rw [channel_setChannel_of_ne s c hk] at h
    exact Or.inr ⟨hk, h⟩

section
variable (s : Player) (k : Kind) (c : Option Channel)

@[simp] theorem streams_setChannel : (s.setChannel k c).streams = s.streams := by cases k <;> rfl
@[simp] theorem isPlaying_setChannel : (s.setChannel k c).isPlaying = s.isPlaying := by cases k <;> rfl
@[simp] theorem callHelper_setChannel : (s.setChannel k c).callHelper = s.callHelper := by cases k <;> rfl
@[simp] theorem prepare_setChannel : (s.setChannel k c).prepare = s.prepare := by cases k <;> rfl
@[simp] theorem demux_setChannel : (s.setChannel k c).demux = s.demux := by cases k <;> rfl
@[simp] theorem stopper_setChannel : (s.setChannel k c).stopper = s.stopper := by cases k <;> rfl
@[simp] theorem ui_setChannel : (s.setChannel k c).ui = s.ui := by cases k <;> rfl
@[simp] theorem fault_setChannel : (s.setChannel k c).fault = s.fault := by cases k <;> rfl
@[simp] theorem reads_setChannel : (s.setChannel k c).reads = s.reads := by cases k <;> rfl
@[simp] theorem packetAllocs_setChannel : (s.setChannel k c).packetAllocs = s.packetAllocs := by cases k <;> rfl
@[simp] theorem freedPackets_setChannel : (s.setChannel k c).freedPackets = s.freedPackets := by cases k <;> rfl
@[simp] theorem helperDeletes_setChannel : (s.setChannel k c).helperDeletes = s.helperDeletes := by cases k <;> rfl

end

/-! ## The steps -/

/-- The steps of the prepare thread. -/
inductive PrepareStep (s : Player) : Player → Prop where
  | scan (next : PreparePc) : s.prepare.scans = true →
      (next.scans = true ∧ next.made s.streams.length ≤ s.prepare.made s.streams.length ∨ ∃ code, next = .onError code) →
      PrepareStep s { s with prepare := next }
  | scanned (i : Nat) : s.prepare = .streamLoop i → s.streams.length ≤ i → PrepareStep s { s with prepare := .checkMedia }
  | skip (i : Nat) : s.prepare = .makeChannel i → (∀ k : Kind, s.streams[i]? ≠ some k.mediaType) →
      PrepareStep s { s with prepare := .streamLoop (i + 1) }
  | makeChannel (i : Nat) (k : Kind) : s.prepare = .makeChannel i → s.streams[i]? = some k.mediaType →
      PrepareStep s { s.setChannel k (some (Channel.new k i)) with prepare := .streamLoop (i + 1) }
  | accept (k : Kind) : s.prepare = .checkMedia → (s.channel k).isSome = true →
      PrepareStep s { s with prepare := .onPrepare }
  | report (code : Nat) (next : PreparePc) : s.callHelper = true →
      (s.prepare = .infoError ∧ next = .infoReported ∨ s.prepare = .onError code ∧ next = .errorReported) →
      PrepareStep s { s with callbacks := s.callbacks ++ [.onError code], prepare := next }
  | onPrepare : s.callHelper = true → s.prepare = .onPrepare →
      PrepareStep s { s with callbacks := s.callbacks ++ [.onPrepare], prepare := .start .setPlaying }
  | nullHelper : s.callHelper = false → s.prepare.reports = true → PrepareStep s { s with fault := some .nullHelper }
  | setPlaying : s.prepare = .start .setPlaying →
      PrepareStep s { s with isPlaying := true, prepare := .start .setAudioChannel }
  | noVideo : s.prepare = .start .setAudioChannel → s.videoChannel = none →
      PrepareStep s { s with prepare := .start .audioStart }
  | setAudioChannel (c c' : Channel) : s.prepare = .start .setAudioChannel → s.videoChannel = some c →
      c.act (.setAudioChannel s.audioChannel.isSome) = some c' →
      PrepareStep s { s.setChannel .video (some c') with prepare := .start .videoStart }
  | startChannel (k : Kind) (c c' : Channel) : s.prepare = .start k.startPc → s.channel k = some c →
      c.act .start = some c' → PrepareStep s (s.setChannel k (some c'))
  | started (k : Kind) : s.prepare = .start k.startPc → (∀ c, s.channel k = some c → c.ctl = .running) →
      PrepareStep s { s with prepare := .start k.startNext }
  | createPlay : s.prepare = .start .createPlay → PrepareStep s { s with demux := .whileTest, prepare := .detach }
  | reported : s.prepare = .errorReported → PrepareStep s { s with prepare := .ended }
  | detach : s.prepare = .detach → PrepareStep s { s with prepare := .ended }
  | deletedHelper : s.prepare.inHelper = true → 0 < s.helperDeletes → PrepareStep s { s with fault := some .deletedHelper }

/-- The steps of the demux thread. -/
inductive DemuxStep (s : Player) : Player → Prop where
  | continue_ : s.demux = .whileTest → s.isPlaying = true → DemuxStep s { s with demux := .audioSize }
  | quit : s.demux = .whileTest → s.isPlaying = false → DemuxStep s { s with demux := .leave .notPlaying }
  | room (k : Kind) : s.demux = k.sizePc → (∀ c, s.channel k = some c → c.packets.size ≤ 100) →
      DemuxStep s { s with demux := k.sizeNext }
  | throttle (k : Kind) (c : Channel) : s.demux = k.sizePc → s.channel k = some c → 100 < c.packets.size →
      DemuxStep s { s with demux := .throttled k }
  | retry (k : Kind) : s.demux = .throttled k → DemuxStep s { s with demux := .whileTest }
  | read (packet : AVPacket) : s.demux = .readFrame →
      DemuxStep s { s with
        reads := s.reads ++ [packet], packetAllocs := s.packetAllocs + 1, demux := .route packet }
  | readFailed (freed : List AVPacket) (next : DemuxPc) : s.demux = .readFrame →
      next = .eofTest .audioPackets ∨ next = .leave .error →
      DemuxStep s { s with freedPackets := freed, packetAllocs := s.packetAllocs + 1, demux := next }
  | routeTo (k : Kind) (packet : AVPacket) (c : Channel) : s.demux = .route packet → s.channel k = some c →
      packet.stream_index = c.id →
      (k = .video → ∀ a, s.audioChannel = some a → packet.stream_index ≠ a.id) →
      DemuxStep s { s.setChannel k (some (c.pushPacket packet)) with demux := .whileTest }
  | routeNowhere (packet : AVPacket) : s.demux = .route packet →
      (∀ k c, s.channel k = some c → packet.stream_index ≠ c.id) → DemuxStep s { s with demux := .whileTest }
  | eofEmpty (test : EofTest) (c : Channel) : s.demux = .eofTest test → s.channel test.kind = some c →
      eofQueueEmpty c test = true → DemuxStep s { s with demux := test.next }
  | eofBusy (test : EofTest) (c : Channel) : s.demux = .eofTest test → s.channel test.kind = some c →
      eofQueueEmpty c test = false → DemuxStep s { s with demux := .whileTest }
  | leave (reason : LeaveReason) : s.demux = .leave reason →
      DemuxStep s { s with isPlaying := false, demux := .stopVideo }
  | stopChannel (k : Kind) (c c' : Channel) : s.demux = k.stopPc → s.channel k = some c → c.act .stop = some c' →
      DemuxStep s (s.setChannel k (some c'))
  | stopped (k : Kind) (c : Channel) : s.demux = k.stopPc → s.channel k = some c → c.ctl = .stopped →
      DemuxStep s { s with demux := k.stopNext }
  | nullChannel (k : Kind) : (s.demux = k.stopPc ∨ ∃ test : EofTest, s.demux = .eofTest test ∧ test.kind = k) →
      s.channel k = none → DemuxStep s { s with fault := some .nullChannel }

/-- The steps of the stop thread. -/
inductive StopperStep (s : Player) : Player → Prop where
  | joinPrepare : s.stopper = .joinPrepare → s.prepare = .ended → StopperStep s { s with stopper := .joinPlay }
  | joinPlay : s.stopper = .joinPlay → s.demux = .ended ∨ s.demux = .notCreated →
      StopperStep s { s with stopper := .deleteVideo }
  | deleteChannel (k : Kind) : s.stopper = k.deletePc →
      StopperStep s { s.setChannel k none with stopper := k.deleteNext }
  | deleteHelper : s.stopper = .deleteHelper →
      StopperStep s { s with
        callHelper := false
        helperDeletes := s.helperDeletes + (if s.callHelper then 1 else 0)
        stopper := .closeFormat }
  | closeFormat : s.stopper = .closeFormat → StopperStep s { s with stopper := .ended }

/-- The steps of the UI thread in `stop` and in the destructor. -/
inductive UiStep (s : Player) : PlayerAct → Player → Prop where
  | clear : s.ui = .idle → UiStep s .stop { s with isPlaying := false, ui := .cleared }
  | zeroHelper : s.ui = .cleared → UiStep s .stop { s with callHelper := false, ui := .helperZero }
  | createStop : s.ui = .helperZero → UiStep s .stop { s with stopper := .joinPrepare, ui := .stopped }
  | destroy : s.ui = .idle ∨ s.ui = .stopped →
      UiStep s .destroy { s with
        callHelper := false
        helperDeletes := s.helperDeletes + (if s.callHelper then 1 else 0)
        ui := .released }

/-- The steps of the player. -/
inductive PlayerStep (s : Player) : PlayerAct → Player → Prop where
  | prepare {ret : Int} {s' : Player} : PrepareStep s s' → PlayerStep s (.prepare ret) s'
  | demux {ret stream_index flags : Int} {s' : Player} : DemuxStep s s' →
      PlayerStep s (.demux ret stream_index flags) s'
  | stopper {s' : Player} : StopperStep s s' → PlayerStep s .stopper s'
  | ui {a : PlayerAct} {s' : Player} : UiStep s a s' → PlayerStep s a s'
  | channel {k : Kind} {b : ChannelAct} {c c' : Channel} : b.own = true → s.channel k = some c → c.act b = some c' →
      PlayerStep s (.channel k b) (s.setChannel k (some c'))

/-! ## The threads take no other step -/

/-- `NiubiPlayer::start` takes only the listed steps. -/
theorem start_cases {pc : StartPc} (hpc : s.prepare = .start pc) (h : s.start pc = some s') : PrepareStep s s' := by
  cases pc with
  | setPlaying =>
    cases h
    exact .setPlaying hpc
  | setAudioChannel =>
    simp only [start] at h
    split at h
    · rename_i hv
      cases h
      exact .noVideo hpc hv
    · rename_i c hv
      obtain ⟨c', hc, rfl⟩ := Option.map_eq_some_iff.mp h
      exact .setAudioChannel c c' hpc hv hc
  | videoStart =>
    simp only [start] at h
    split at h
    · cases h
    · rename_i c hv
      split at h
      · rename_i hctl
        cases h
        refine .started .video hpc ?_
        intro c₁ hc₁
        obtain rfl : c = c₁ := Option.some.inj (hv.symm.trans hc₁)
        exact hctl
      · obtain ⟨c', hc, rfl⟩ := Option.map_eq_some_iff.mp h
        exact .startChannel .video c c' hpc hv hc
  | audioStart =>
    simp only [start] at h
    split at h
    · rename_i ha
      cases h
      refine .started .audio hpc ?_
      intro c₁ hc₁
      exact absurd (ha.symm.trans hc₁) (by simp)
    · rename_i c ha
      split at h
      · rename_i hctl
        cases h
        refine .started .audio hpc ?_
        intro c₁ hc₁
        obtain rfl : c = c₁ := Option.some.inj (ha.symm.trans hc₁)
        exact hctl
      · obtain ⟨c', hc, rfl⟩ := Option.map_eq_some_iff.mp h
        exact .startChannel .audio c c' hpc ha hc
  | createPlay =>
    cases h
    exact .createPlay hpc

/-- A step that only moves the scan on, or ends it with a report of `code`. -/
theorem scan_step {p : Prop} [Decidable p] {code : Nat} {next : PreparePc} (hs : s.prepare.scans = true)
    (hn : next.scans = true) (hm : next.made s.streams.length ≤ s.prepare.made s.streams.length)
    (h : some { s with prepare := if p then .onError code else next } = some s') : PrepareStep s s' := by
  cases h
  refine .scan _ hs ?_
  by_cases hp : p
  · rw [if_pos hp]
    exact Or.inr ⟨code, rfl⟩
  · rw [if_neg hp]
    exact Or.inl ⟨hn, hm⟩

/-- A report is made through a helper that is there, or the null pointer is used. -/
theorem report_step {code : Nat} {next : PreparePc} (hr : s.prepare.reports = true)
    (hn : s.prepare = .infoError ∧ next = .infoReported ∨ s.prepare = .onError code ∧ next = .errorReported) :
    PrepareStep s (s.onError code next) := by
  unfold onError
  by_cases hc : s.callHelper = true
  · rw [if_pos hc]
    exact .report code next hc hn
  · rw [if_neg hc]
    exact .nullHelper (by simpa using hc) hr

/-- The thread comes out of a method of the helper, or uses the deleted helper there. -/
theorem detach_step {next : PreparePc} (hpc : s.prepare.inHelper = true)
    (hout : PrepareStep s { s with prepare := next }) : PrepareStep s (s.detach next) := by
  unfold detach
  by_cases hd : 0 < s.helperDeletes
  · rw [if_pos hd]
    exact .deletedHelper hpc hd
  · rw [if_neg hd]
    exact hout

/-- `init_prepare` takes only the listed steps. -/
theorem initPrepare_cases {ret : Int} (h : s.initPrepare ret = some s') : PrepareStep s s' := by
  unfold initPrepare at h
  split at h
  case h_1 hpc => exact scan_step (by simp [hpc]) (by simp) (by simp [hpc]) h
  case h_2 hpc =>
    cases h
    refine .scan _ (by simp [hpc]) (Or.inl ?_)
    split <;> simp [hpc]
  case h_3 hpc =>
    cases h
    exact report_step (by simp [hpc]) (Or.inl ⟨hpc, rfl⟩)
  case h_4 hpc =>
    cases h
    exact detach_step (by simp [hpc]) (.scan _ (by simp [hpc]) (Or.inl (by simp [hpc])))
  case h_5 i hpc =>
    cases h
    by_cases hi : i < s.streams.length
    · rw [if_pos hi]
      exact .scan _ (by simp [hpc]) (Or.inl (by simp [hpc]))
    · rw [if_neg hi]
      exact .scanned i hpc (Nat.not_lt.mp hi)
  case h_6 i hpc => exact scan_step (by simp [hpc]) (by simp) (by simp [hpc]) h
  case h_7 i hpc => exact scan_step (by simp [hpc]) (by simp) (by simp [hpc]) h
  case h_8 i hpc => exact scan_step (by simp [hpc]) (by simp) (by simp [hpc]) h
  case h_9 i hpc => exact scan_step (by simp [hpc]) (by simp) (by simp [hpc]) h
  case h_10 i hpc =>
    split at h
    case h_1 hi =>
      cases h
      exact .makeChannel i .video hpc hi
    case h_2 hi =>
      cases h
      exact .makeChannel i .audio hpc hi
    case h_3 hv ha =>
      cases h
      refine .skip i hpc ?_
      intro k
      cases k with
      | audio => exact ha
      | video => exact hv
  case h_11 hpc =>
    cases h
    by_cases hn : (s.audioChannel.isNone && s.videoChannel.isNone) = true
    · rw [if_pos hn]
      exact .scan _ (by simp [hpc]) (Or.inr ⟨_, rfl⟩)
    · rw [if_neg hn]
      rw [Bool.and_eq_true, not_and_or] at hn
      rcases hn with ha | hv
      · exact .accept .audio hpc (by simpa [channel, Option.isSome_iff_ne_none] using ha)
      · exact .accept .video hpc (by simpa [channel, Option.isSome_iff_ne_none] using hv)
  case h_12 code hpc =>
    cases h
    exact report_step (by simp [hpc]) (Or.inr ⟨hpc, rfl⟩)
  case h_13 hpc =>
    cases h
    exact detach_step (by simp [hpc]) (.reported hpc)
  case h_14 hpc =>
    by_cases hc : s.callHelper = true
    · rw [if_pos hc] at h
      cases h
      exact .onPrepare hc hpc
    · rw [if_neg hc] at h
      cases h
      exact .nullHelper (by simpa using hc) (by simp [hpc])
  case h_15 pc hpc => exact start_cases hpc h
  case h_16 hpc =>
    cases h
    exact detach_step (by simp [hpc]) (.detach hpc)
  case h_17 => cases h

/-- `packets.push` in the demux loop takes only the listed steps. -/
theorem route_cases {packet : AVPacket} (hd : s.demux = .route packet) :
    DemuxStep s { s.route packet with demux := .whileTest } := by
  unfold route
  by_cases ha : s.audioChannel.any (fun c => decide (packet.stream_index = c.id)) = true
  · rw [if_pos ha]
    obtain ⟨a, hc, hid⟩ := (Option.any_eq_true _ _).mp ha
    rw [show s.audioChannel.map (·.pushPacket packet) = some (a.pushPacket packet) by rw [hc]; rfl]
    exact .routeTo .audio packet a hd hc (of_decide_eq_true hid) (by simp)
  · rw [if_neg ha]
    have hna : ∀ a, s.audioChannel = some a → packet.stream_index ≠ a.id := by
      intro a hc hid
      exact ha ((Option.any_eq_true _ _).mpr ⟨a, hc, decide_eq_true hid⟩)
    by_cases hv : s.videoChannel.any (fun c => decide (packet.stream_index = c.id)) = true
    · rw [if_pos hv]
      obtain ⟨v, hc, hid⟩ := (Option.any_eq_true _ _).mp hv
      rw [show s.videoChannel.map (·.pushPacket packet) = some (v.pushPacket packet) by rw [hc]; rfl]
      exact .routeTo .video packet v hd hc (of_decide_eq_true hid) (fun _ => hna)
    · rw [if_neg hv]
      refine .routeNowhere packet hd ?_
      intro k c hc
      cases k with
      | audio => exact hna c hc
      | video => exact fun hid => hv ((Option.any_eq_true _ _).mpr ⟨c, hc, decide_eq_true hid⟩)

/-- A size test lets the thread on, or sends it to sleep. -/
theorem size_step {k : Kind} (hd : s.demux = k.sizePc) :
    DemuxStep s { s with
      demux := if (s.channel k).any (fun c => decide (100 < c.packets.size)) then .throttled k else k.sizeNext } := by
  by_cases hs : (s.channel k).any (fun c => decide (100 < c.packets.size)) = true
  · rw [if_pos hs]
    obtain ⟨c, hc, h100⟩ := (Option.any_eq_true _ _).mp hs
    exact .throttle k c hd hc (of_decide_eq_true h100)
  · rw [if_neg hs]
    refine .room k hd ?_
    intro c hc
    by_contra h100
    exact hs ((Option.any_eq_true _ _).mpr ⟨c, hc, decide_eq_true (Nat.not_le.mp h100)⟩)

/-- The two `stop` calls at the end of `init_start` go on with the call, pass it, or use a null pointer. -/
theorem stop_step {k : Kind} (hd : s.demux = k.stopPc)
    (h : (match s.channel k with
      | none => some { s with fault := some .nullChannel }
      | some c =>
        if c.ctl = .stopped then some { s with demux := k.stopNext }
        else (c.act .stop).map fun c' => s.setChannel k (some c')) = some s') : DemuxStep s s' := by
  split at h
  · rename_i hc
    cases h
    exact .nullChannel k (Or.inl hd) hc
  · rename_i c hc
    split at h
    · rename_i hctl
      cases h
      exact .stopped k c hd hc hctl
    · obtain ⟨c', hact, rfl⟩ := Option.map_eq_some_iff.mp h
      exact .stopChannel k c c' hd hc hact

/-- `init_start` takes only the listed steps. -/
theorem initStart_cases {ret stream_index flags : Int} (h : s.initStart ret stream_index flags = some s') :
    DemuxStep s s' := by
  unfold initStart at h
  split at h
  case h_1 hd =>
    cases h
    by_cases hp : s.isPlaying = true
    · rw [if_pos hp]
      exact .continue_ hd hp
    · rw [if_neg hp]
      exact .quit hd (by simpa using hp)
  case h_2 hd =>
    cases h
    exact size_step (k := .audio) hd
  case h_3 hd =>
    cases h
    exact size_step (k := .video) hd
  case h_4 k hd =>
    cases h
    exact .retry k hd
  case h_5 hd =>
    by_cases hr : ret = 0
    · rw [if_pos hr] at h
      cases h
      exact .read _ hd
    · rw [if_neg hr] at h
      cases h
      refine .readFailed _ _ hd ?_
      by_cases he : ret = AVERROR_EOF
      · exact Or.inl (if_pos he)
      · exact Or.inr (if_neg he)
  case h_6 packet hd =>
    cases h
    exact route_cases hd
  case h_7 test hd =>
    split at h
    · rename_i hc
      cases h
      exact .nullChannel test.kind (Or.inr ⟨test, hd, rfl⟩) hc
    · rename_i c hc
      cases h
      by_cases he : eofQueueEmpty c test = true
      · rw [if_pos he]
        exact .eofEmpty test c hd hc he
      · rw [if_neg he]
        exact .eofBusy test c hd hc (by simpa using he)
  case h_8 reason hd =>
    cases h
    exact .leave reason hd
  case h_9 hd => exact stop_step (k := .video) hd h
  case h_10 hd => exact stop_step (k := .audio) hd h
  case h_11 => cases h
  case h_12 => cases h

/-- `init_stop` takes only the listed steps. -/
theorem initStop_cases (h : s.initStop = some s') : StopperStep s s' := by
  unfold initStop at h
  split at h
  case h_1 hpc =>
    split at h <;> cases h
    exact .joinPrepare hpc (by assumption)
  case h_2 hpc =>
    split at h <;> cases h
    exact .joinPlay hpc (by assumption)
  case h_3 hpc =>
    cases h
    exact .deleteChannel .video hpc
  case h_4 hpc =>
    cases h
    exact .deleteChannel .audio hpc
  case h_5 hpc =>
    cases h
    exact .deleteHelper hpc
  case h_6 hpc =>
    cases h
    exact .closeFormat hpc
  case h_7 => cases h
  case h_8 => cases h

/-- `stop` takes only the listed steps. -/
theorem stop_cases (h : s.stop = some s') : UiStep s .stop s' := by
  unfold stop at h
  split at h
  case h_1 hpc =>
    cases h
    exact .clear hpc
  case h_2 hpc =>
    cases h
    exact .zeroHelper hpc
  case h_3 hpc =>
    cases h
    exact .createStop hpc
  case h_4 => cases h
  case h_5 => cases h

/-- The destructor takes only the listed step. -/
theorem destroy_cases (h : s.destroy = some s') : UiStep s .destroy s' := by
  unfold destroy at h
  split at h
  case h_1 hpc =>
    cases h
    exact .destroy (Or.inl hpc)
  case h_2 hpc =>
    cases h
    exact .destroy (Or.inr hpc)
  case h_3 => cases h
  case h_4 => cases h
  case h_5 => cases h

/-- Every step of the player is a listed one, of a player that has not crashed; after the destructor it is the end of a
method of the helper. -/
theorem step_cases {a : PlayerAct} (h : s.step a = some s') :
    s.crashed = false ∧ (s.ui = .released → s.prepare.inHelper = true ∧ PrepareStep s s') ∧ PlayerStep s a s' := by
  unfold step at h
  split at h
  · cases h
  rename_i hcr
  refine ⟨by simpa using hcr, ?_⟩
  by_cases hui : s.ui = .released
  · rw [if_pos hui] at h
    split at h
    · split at h
      · rename_i hpc
        have hs := initPrepare_cases h
        exact ⟨fun _ => ⟨hpc, hs⟩, .prepare hs⟩
      · cases h
    · cases h
  · rw [if_neg hui] at h
    refine ⟨fun hr => absurd hr hui, ?_⟩
    cases a with
    | prepare ret => exact .prepare (initPrepare_cases h)
    | demux ret stream_index flags => exact .demux (initStart_cases h)
    | stopper => exact .stopper (initStop_cases h)
    | stop => exact .ui (stop_cases h)
    | destroy => exact .ui (destroy_cases h)
    | channel k b =>
      simp only [Option.ite_none_right_eq_some] at h
      obtain ⟨hown, h⟩ := h
      split at h
      · cases h
      · rename_i c hc
        obtain ⟨c', hact, rfl⟩ := Option.map_eq_some_iff.mp h
        exact .channel hown hc hact

end Player

end LibraLive

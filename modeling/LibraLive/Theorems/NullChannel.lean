import LibraLive.Lemmas.PlayerPhase
import LibraLive.Lemmas.PlayerRuns

/-!
# Media with one stream

`init_prepare` accepts a source with an audio or a video stream. `start` and the first half of `init_start` test the channel
pointers before they use them; the end-of-file branch, the two `stop` calls after the loop and `render` do not. With both
streams no null pointer is used in any run; with one, some run uses one.
-/

namespace LibraLive

/-- No thread has used a null channel pointer: neither a member of the player nor the `audioChannel` of the video channel. -/
structure NullSafe (s : Player) : Prop where
  members : s.fault ≠ some .nullChannel
  render : ∀ k c, s.channel k = some c → c.crash ≠ some .nullAudioChannel

/-! ## With both streams -/

/-- The scan is under way, or has been passed without an error. -/
def PreparePc.accepting : PreparePc → Bool
  | .onError _ | .errorReported | .ended => false
  | _ => true

attribute [simp] PreparePc.accepting

/-- What a source with both streams makes of the player: the channels of the streams passed so far are there until
`init_stop` deletes them, and the video channel knows there is an audio channel before it is started. -/
structure Complete (s : Player) : Prop where
  scan : s.prepare.accepting = true → ∀ k : Kind, k.mediaType ∈ s.streams.take (s.prepare.made s.streams.length) →
    (s.channel k).isSome = true
  demux : s.demux ≠ .notCreated → s.stopper.playJoined = false → ∀ k : Kind, (s.channel k).isSome = true
  wired : ∀ c, s.videoChannel = some c → s.prepare = .start .videoStart ∨ c.ctl ≠ .constructed → c.audioChannel = true

/-- Only `setAudioChannel` writes the pointer. -/
theorem Channel.act_audioChannel {c c' : Channel} {b : ChannelAct} (hb : ∀ x, b ≠ .setAudioChannel x)
    (h : c.act b = some c') : c'.audioChannel = c.audioChannel := by
  cases b with
  | decode ret => exact (decode_cases h).1.audioChannel
  | output i => exact (output_cases h).1.audioChannel
  | start =>
    obtain ⟨hs, -⟩ := start_cases h
    cases hs <;> subst_vars <;> rfl
  | stop =>
    have hs := stop_cases h
    cases hs <;> subst_vars <;> rfl
  | wakeDecode | wakeOutput | playReturn =>
    simp only [Channel.act, Option.ite_none_right_eq_some, Option.some.injEq] at h
    obtain ⟨-, rfl⟩ := h
    rfl
  | push packet =>
    obtain rfl := Option.some.inj h
    rfl
  | setAudioChannel x => exact absurd rfl (hb x)

/-- A channel that has not crashed crashes on the null audio channel only in `render`, when there is none. -/
theorem Channel.act_crash {c c' : Channel} {b : ChannelAct} (hc : c.crash = none) (h : c.act b = some c')
    (hcrash : c'.crash = some .nullAudioChannel) :
    c.output ≠ .notCreated ∧ c.kind = .video ∧ c.audioChannel = false := by
  have hsame : c'.crash ≠ c.crash := by
    rw [hc, hcrash]
    simp
  cases b with
  | decode ret => exact absurd (decode_cases h).1.crash hsame
  | output i =>
    obtain ⟨-, hs⟩ := output_cases h
    have hcreated := hs.created.1
    cases hs with
    | crash reason _ hc' hreason =>
      subst hc'
      exact ⟨hcreated, hreason (Option.some.inj hcrash)⟩
    | pop _ hc' | sync _ hc' =>
      subst hc'
      exact absurd rfl hsame
    | idle _ _ _ _ _ _ _ he | quit _ _ _ _ _ _ _ he | miss _ _ _ _ _ _ _ he | take _ _ _ _ _ _ _ he
    | onTime _ _ _ _ _ _ he | finish _ _ _ _ _ _ _ he => exact absurd he hsame
  | start =>
    obtain ⟨hs, -⟩ := start_cases h
    cases hs <;> subst_vars <;> exact absurd rfl hsame
  | stop =>
    have hs := stop_cases h
    cases hs <;> subst_vars <;> exact absurd rfl hsame
  | wakeDecode | wakeOutput | playReturn | setAudioChannel x =>
    simp only [Channel.act, Option.ite_none_right_eq_some, Option.some.injEq] at h
    obtain ⟨-, rfl⟩ := h
    exact absurd rfl hsame
  | push packet =>
    obtain rfl := Option.some.inj h
    exact absurd rfl hsame

namespace Complete

open Player

variable {s s' : Player}

/-- A step of the prepare thread after which the scan is no further than before. -/
theorem scan_le (hs : Complete s) (hacc : s.prepare.accepting = true)
    (hle : s'.prepare.made s'.streams.length ≤ s.prepare.made s.streams.length) (hstreams : s'.streams = s.streams)
    (hstay : ∀ k, (s.channel k).isSome = true → (s'.channel k).isSome = true) :
    ∀ k : Kind, k.mediaType ∈ s'.streams.take (s'.prepare.made s'.streams.length) → (s'.channel k).isSome = true := by
  intro k hk
  rw [hstreams] at hk hle
  exact hstay k (hs.scan hacc k (List.take_subset_take_left _ hle hk))

/-- The step past a stream makes the channel of its type, if it has one. -/
theorem scan_next (hs : Complete s) {i : Nat} (hpc : s.prepare = .makeChannel i) (hpc' : s'.prepare = .streamLoop (i + 1))
    (hstreams : s'.streams = s.streams) (hstay : ∀ k, (s.channel k).isSome = true → (s'.channel k).isSome = true)
    (hnew : ∀ k : Kind, s.streams[i]? = some k.mediaType → (s'.channel k).isSome = true) :
    ∀ k : Kind, k.mediaType ∈ s'.streams.take (s'.prepare.made s'.streams.length) → (s'.channel k).isSome = true := by
  intro k hk
  rw [hstreams, hpc', PreparePc.made, List.take_add_one, List.mem_append] at hk
  rcases hk with hk | hk
  · exact hstay k (hs.scan (by simp [hpc]) k (by simpa [hpc] using hk))
  · exact hnew k (by simpa using hk)

/-- The two kinds have different codec types. -/
theorem mediaType_injective {k k' : Kind} (h : k.mediaType = k'.mediaType) : k = k' := by
  cases k <;> cases k' <;> first | rfl | cases h

/-- What the scan has passed after a step of the prepare thread. -/
theorem prepare_scan (hs : Complete s) (h : PrepareStep s s')
    (hstay : ∀ k, (s.channel k).isSome = true → (s'.channel k).isSome = true) (hacc' : s'.prepare.accepting = true) :
    ∀ k : Kind, k.mediaType ∈ s'.streams.take (s'.prepare.made s'.streams.length) → (s'.channel k).isSome = true := by
  cases h with
  | scan next hpc hnext =>
    rcases hnext with ⟨-, hle⟩ | ⟨code, rfl⟩
    · refine hs.scan_le ?_ hle rfl hstay
      cases hp : s.prepare <;> simp [hp] at hpc ⊢
    · cases hacc'
  | scanned i hpc hi => exact hs.scan_le (by simp [hpc]) (by simpa [hpc] using hi) rfl hstay
  | skip i hpc hi => exact hs.scan_next hpc rfl rfl hstay (fun k hk => absurd hk (hi k))
  | makeChannel i k hpc hi =>
    refine hs.scan_next hpc rfl (by simp) hstay ?_
    intro k' hk'
    obtain rfl : k = k' := mediaType_injective (Option.some.inj (hi.symm.trans hk'))
    exact Option.isSome_of_mem (channel_of_setChannel (s := s) rfl rfl)
  | report code next _ hpc =>
    rcases hpc with ⟨hpc, rfl⟩ | ⟨-, rfl⟩
    · exact hs.scan_le (by simp [hpc]) (by simp [hpc]) rfl hstay
    · cases hacc'
  | accept k hpc | onPrepare _ hpc | setPlaying hpc | noVideo hpc | createPlay hpc | started k hpc =>
    exact hs.scan_le (by simp [hpc]) (by simp [hpc]) rfl hstay
  | setAudioChannel c c' hpc => exact hs.scan_le (by simp [hpc]) (by simp [hpc]) (by simp) hstay
  | startChannel k c c' hpc => exact hs.scan_le (by simp [hpc]) (by simp [hpc]) (by simp) hstay
  | nullHelper => exact hs.scan_le hacc' (Nat.le_refl _) rfl hstay
  | deletedHelper => exact hs.scan_le hacc' (Nat.le_refl _) rfl hstay
  | reported | detach => cases hacc'

/-- Before the second join of `init_stop` comes the first. -/
theorem playJoined_of_prepare (hph : PlayerPhased s) (h : s.prepare.accepting = true) : s.stopper.playJoined = false := by
  refine PlayerPhased.play_joined ?_
  by_contra hj
  have he := hph.prepareJoined (by simpa using hj)
  simp [he] at h

/-- The stop thread does not go back. -/
theorem playJoined_step (hph : PlayerPhased s) {a : PlayerAct} (h : PlayerStep s a s')
    (hj : s'.stopper.playJoined = false) : s.stopper.playJoined = false := by
  cases h with
  | prepare h => rwa [(PlayerPhased.prepare_keeps h).1] at hj
  | demux h => rwa [(PlayerPhased.demux_keeps h).1] at hj
  | channel => simpa using hj
  | stopper h =>
    cases h with
    | deleteChannel k hpc => cases k <;> cases hj
    | joinPrepare hpc | joinPlay hpc => simp [hpc]
    | deleteHelper | closeFormat => cases hj
  | ui h =>
    cases h with
    | createStop hui =>
      by_contra hne
      have hcreated : s.stopper ≠ .notCreated := by
        intro he
        simp [he] at hne
      rcases hph.stopCreated hcreated with h' | h' <;> simp [hui] at h'
    | _ => exact hj

/-- Only the prepare thread moves itself. -/
theorem prepare_same {a : PlayerAct} (h : PlayerStep s a s') (hp : ¬ PrepareStep s s') :
    s'.prepare = s.prepare ∧ s'.streams = s.streams := by
  cases h with
  | prepare h => exact absurd h hp
  | demux h => exact ⟨(PlayerPhased.demux_keeps h).2.2.1, (PlayerPhased.demux_keeps h).2.2.2⟩
  | stopper h => cases h <;> simp
  | ui h => cases h <;> exact ⟨rfl, rfl⟩
  | channel => simp

/-- A video channel about to be started was given the audio channel, or was there already. -/
theorem videoStart_cases (h : PrepareStep s s') (hpc : s'.prepare = .start .videoStart) :
    s.prepare = .start .videoStart ∨ ∃ c c', s.prepare = .start .setAudioChannel ∧ s.videoChannel = some c ∧
      c.act (.setAudioChannel s.audioChannel.isSome) = some c' ∧ s'.videoChannel = some c' := by
  cases h with
  | setAudioChannel c c' hpc₀ hc hact => exact Or.inr ⟨c, c', hpc₀, hc, hact, rfl⟩
  | scan next _ hnext =>
    cases hpc
    rcases hnext with ⟨hn, -⟩ | ⟨code, hn⟩ <;> cases hn
  | report code next _ hnext =>
    cases hpc
    rcases hnext with ⟨-, hn⟩ | ⟨-, hn⟩ <;> cases hn
  | started k => cases k <;> cases hpc
  | startChannel => exact Or.inl (by simpa using hpc)
  | nullHelper | deletedHelper => exact Or.inl hpc
  | _ => cases hpc

/-- The pointer in the video channel after a step. -/
theorem wired_step (hs : Complete s) (haudio : AVMediaType.audio ∈ s.streams) {a : PlayerAct} (h : PlayerStep s a s') :
    ∀ c, s'.videoChannel = some c → s'.prepare = .start .videoStart ∨ c.ctl ≠ .constructed → c.audioChannel = true := by
  intro c' hc' hw
  by_cases hpc : s.prepare = .start .setAudioChannel ∧ s'.prepare = .start .videoStart
  · -- the call of `setAudioChannel`: the scan has made the audio channel
    obtain ⟨hpc, hpc'⟩ := hpc
    have hp : PrepareStep s s' := by
      by_contra hp
      rw [(prepare_same h hp).1, hpc] at hpc'
      cases hpc'
    rcases videoStart_cases hp hpc' with hold | ⟨c, c₁, -, -, hact, hc₁⟩
    · rw [hpc] at hold
      cases hold
    · obtain rfl : c₁ = c' := Option.some.inj (hc₁.symm.trans hc')
      have ha : s.audioChannel.isSome = true := hs.scan (by simp [hpc]) .audio (by simpa [hpc, Kind.mediaType] using haudio)
      simp only [Channel.act, Option.ite_none_right_eq_some, Option.some.injEq] at hact
      obtain ⟨-, rfl⟩ := hact
      exact ha
  · have hvideo : s'.prepare = .start .videoStart → s.prepare = .start .videoStart := by
      intro hpc'
      by_cases hp : PrepareStep s s'
      · rcases videoStart_cases hp hpc' with hold | ⟨c, c₁, hset, -⟩
        · exact hold
        · exact absurd ⟨hset, hpc'⟩ hpc
      · rw [← (prepare_same h hp).1]
        exact hpc'
    rcases channel_change h (k := .video) hc' with hc | ⟨i, hmake, -, rfl⟩ | ⟨c, b, hc, hact, hcall⟩
    · exact hs.wired c' hc (hw.imp_left hvideo)
    · rcases hw with hw | hw
      · rw [hvideo hw] at hmake
        cases hmake
      · exact absurd rfl hw
    · by_cases hset : ∃ x, b = .setAudioChannel x
      · obtain ⟨x, rfl⟩ := hset
        obtain ⟨hpc₀, -, -⟩ := hcall
        have hctl := Channel.act_ctl (by simp) hact
        simp only [Channel.act, Option.ite_none_right_eq_some] at hact
        rcases hw with hw | hw
        · have hold := hvideo hw
          rw [hpc₀] at hold
          cases hold
        · rw [hctl] at hw
          exact absurd hact.1 hw
      · rw [not_exists] at hset
        rw [Channel.act_audioChannel hset hact]
        refine hs.wired c hc ?_
        by_cases hstart : b = .start
        · subst hstart
          exact Or.inl hcall
        · by_cases hstop : b = .stop
          · subst hstop
            obtain ⟨hst, -⟩ := Channel.act_stop_ctl hact
            refine Or.inr ?_
            intro he
            simp [he] at hst
          · rw [Channel.act_ctl ⟨hstart, hstop⟩ hact] at hw
            exact hw.imp_left hvideo

/-- Every step keeps the player complete. -/
theorem step (hs : Complete s) (hph : PlayerPhased s) (hboth : ∀ k : Kind, k.mediaType ∈ s.streams) {a : PlayerAct}
    (h : PlayerStep s a s') : Complete s' := by
  refine ⟨?_, ?_, hs.wired_step (hboth .audio) h⟩
  · intro hacc'
    by_cases hp : PrepareStep s s'
    · have hj : s.stopper.playJoined = false := PlayerPhased.play_joined (hph.prepare_joined hp)
      exact hs.prepare_scan hp (fun k => channel_stays hj h) hacc'
    · obtain ⟨hprep, hstreams⟩ := prepare_same h hp
      rw [hprep] at hacc'
      have hj := playJoined_of_prepare hph hacc'
      exact hs.scan_le hacc' (by rw [hprep, hstreams]) hstreams (fun k => channel_stays hj h)
  · intro hd' hj' k
    have hj := playJoined_step hph h hj'
    refine channel_stays hj h ?_
    by_cases hd : s.demux = .notCreated
    · -- only `createPlay` creates the demux thread, and the scan has been passed then
      cases h with
      | prepare h =>
        cases h with
        | createPlay hpc => exact hs.scan (by simp [hpc]) k (by simpa [hpc] using hboth k)
        | _ => exact absurd hd (by simpa using hd')
      | demux h => exact absurd hd (hph.demux_joined h).1
      | stopper h => cases h <;> exact absurd hd (by simpa using hd')
      | ui h => cases h <;> exact absurd hd hd'
      | channel => exact absurd hd (by simpa using hd')
    · exact hs.demux hd hj k

/-- No step of a complete player uses a null channel pointer. -/
theorem nullSafe_step (hs : Complete s) (hph : PlayerPhased s) (hn : NullSafe s)
    (hch : ∀ k c, s.channel k = some c → Phased c ∧ c.crash = none) {a : PlayerAct} (h : PlayerStep s a s') :
    NullSafe s' := by
  refine ⟨?_, ?_⟩
  · have hsame : s'.fault = s.fault → s'.fault ≠ some .nullChannel := by
      intro he
      rw [he]
      exact hn.members
    cases h with
    | prepare h =>
      cases h with
      | nullHelper | deletedHelper => rintro ⟨⟩
      | _ => exact hsame (by simp)
    | demux h =>
      obtain ⟨hd, hj⟩ := hph.demux_joined h
      cases h with
      | nullChannel k _ hnone =>
        have hsome := hs.demux hd hj k
        rw [hnone] at hsome
        cases hsome
      | _ => exact hsame (by simp)
    | stopper h => cases h <;> exact hsame (by simp)
    | ui h => cases h <;> exact hsame rfl
    | channel => exact hsame (by simp)
  · intro k c' hc' hcrash
    rcases channel_change h hc' with hc | ⟨i, -, -, rfl⟩ | ⟨c, b, hc, hact, -⟩
    · exact hn.render k c' hc hcrash
    · cases hcrash
    · obtain ⟨hphc, hnone⟩ := hch k c hc
      obtain ⟨ho, hkind, haud⟩ := Channel.act_crash hnone hact hcrash
      obtain rfl : k = .video := (hph.kind k c hc).symm.trans hkind
      have hctl : c.ctl ≠ .constructed := by
        intro he
        have hout := hphc.output.mp ho
        simp [he] at hout
      have hwired := hs.wired c hc (Or.inr hctl)
      rw [haud] at hwired
      cases hwired

end Complete

/-- With both streams in the source, no run uses a null channel pointer. -/
theorem nullSafe_of_both {streams : List AVMediaType} (hboth : ∀ k : Kind, k.mediaType ∈ streams) {s : Player}
    (h : (Player.lts streams).Reachable s) : NullSafe s := by
  have hinv : s.streams = streams ∧ Complete s ∧ NullSafe s := by
    refine Lts.Reachable.invariant (I := fun s => s.streams = streams ∧ Complete s ∧ NullSafe s) ?_ ?_ h
    · rintro s rfl
      refine ⟨rfl, ⟨?_, fun hd => absurd rfl hd, ?_⟩, by simp [Player.new], ?_⟩
      · intro _ k hk
        simp [Player.new] at hk
      · intro c hc
        cases hc
      · intro k c hc
        rw [Player.channel_new] at hc
        cases hc
    · rintro s a s' hreach ⟨hstreams, hs, hn⟩ hstep
      have hph := playerPhased_of_reachable hreach
      obtain ⟨hcr, -, hstep⟩ := Player.step_cases hstep
      have hboth' : ∀ k : Kind, k.mediaType ∈ s.streams := by
        rw [hstreams]
        exact hboth
      refine ⟨?_, hs.step hph hboth' hstep, hs.nullSafe_step hph hn ?_ hstep⟩
      · exact (Player.streams_step hstep).trans hstreams
      · intro k c hc
        exact ⟨phased_of_reachable ((Player.component streams k).reachable hreach c hc), Player.crash_eq_none hcr hc⟩
  exact hinv.2.2

/-! ## With one stream -/

/-- The scan of a source without streams of a type makes no channel of its kind. -/
theorem madeChannel_eq_none {streams : List AVMediaType} {k : Kind} {type : AVMediaType} (h : type ∉ streams) :
    Player.madeChannel streams k type streams.length = none := by
  rw [← Option.not_isSome_iff_eq_none, Player.madeChannel_isSome, List.take_length]
  exact h

/-- The scan of a source with a stream of a type makes a channel of its kind. -/
theorem madeChannel_eq_new {streams : List AVMediaType} {k : Kind} {type : AVMediaType} (h : type ∈ streams) :
    ∃ i : Nat, Player.madeChannel streams k type streams.length = some (Channel.new k i) := by
  rw [← List.take_length (l := streams), ← Player.madeChannel_isSome (k := k), Option.isSome_iff_exists] at h
  obtain ⟨c, hc⟩ := h
  obtain ⟨i, rfl⟩ := Player.madeChannel_eq_some hc
  exact ⟨i, hc⟩

/-- Without a video stream, the end of the file leads to the test of the video channel's packets queue. -/
theorem fault_of_audio_only {streams : List AVMediaType} (ha : AVMediaType.audio ∈ streams)
    (hv : AVMediaType.video ∉ streams) : ∃ s, (Player.lts streams).Reachable s ∧ s.fault = some .nullChannel := by
  obtain ⟨i, hmade⟩ := madeChannel_eq_new (k := .audio) ha
  have hstate : Player.prepared streams = { Player.new streams with
      audioChannel := some (Channel.new .audio i), videoChannel := none, prepare := .checkMedia } := by
    rw [Player.prepared, Player.scanAt, hmade, madeChannel_eq_none hv]
  have hrun : (Lts.replay Player.step (Player.prepared streams) (List.replicate 11 (.prepare 0) ++
      List.replicate 7 (.demux AVERROR_EOF 0 0))).map Player.fault = some (some .nullChannel) := by
    rw [hstate]
    rfl
  obtain ⟨s, hs, hfault⟩ := Option.map_eq_some_iff.mp hrun
  exact ⟨s, Player.reachable_of_prepared hs, hfault⟩

/-- Without an audio stream, the end of the file leads to the test of the audio channel's packets queue. -/
theorem fault_of_video_only {streams : List AVMediaType} (hv : AVMediaType.video ∈ streams)
    (ha : AVMediaType.audio ∉ streams) : ∃ s, (Player.lts streams).Reachable s ∧ s.fault = some .nullChannel := by
  obtain ⟨i, hmade⟩ := madeChannel_eq_new (k := .video) hv
  have hstate : Player.prepared streams = { Player.new streams with
      audioChannel := none, videoChannel := some (Channel.new .video i), prepare := .checkMedia } := by
    rw [Player.prepared, Player.scanAt, hmade, madeChannel_eq_none ha]
  have hrun : (Lts.replay Player.step (Player.prepared streams) (List.replicate 12 (.prepare 0) ++
      List.replicate 5 (.demux AVERROR_EOF 0 0))).map Player.fault = some (some .nullChannel) := by
    rw [hstate]
    rfl
  obtain ⟨s, hs, hfault⟩ := Option.map_eq_some_iff.mp hrun
  exact ⟨s, Player.reachable_of_prepared hs, hfault⟩

/-- A source with one audio stream is accepted, and at its end the null video channel is used. -/
theorem null_channel_audio_only : ¬ ∀ streams : List AVMediaType, AVMediaType.audio ∈ streams ∨ AVMediaType.video ∈ streams →
    ∀ s, (Player.lts streams).Reachable s → NullSafe s := by
  intro hall
  obtain ⟨s, hr, hfault⟩ : ∃ s, (Player.lts [.audio]).Reachable s ∧ s.fault = some .nullChannel :=
    fault_of_audio_only (by decide) (by decide)
  exact (hall [.audio] (by decide) s hr).members hfault

/-- For a source `init_prepare` accepts, no run of the player uses a null channel pointer exactly if the source has both an
audio and a video stream. -/
theorem nullSafe_iff_both {streams : List AVMediaType}
    (hmedia : AVMediaType.audio ∈ streams ∨ AVMediaType.video ∈ streams) :
    (∀ s, (Player.lts streams).Reachable s → NullSafe s) ↔ AVMediaType.audio ∈ streams ∧ AVMediaType.video ∈ streams := by
  refine ⟨fun hall => ?_, ?_⟩
  · by_contra hnot
    rcases hmedia with ha | hv
    · obtain ⟨s, hr, hfault⟩ := fault_of_audio_only ha (fun hv => hnot ⟨ha, hv⟩)
      exact (hall s hr).members hfault
    · obtain ⟨s, hr, hfault⟩ := fault_of_video_only hv (fun ha => hnot ⟨ha, hv⟩)
      exact (hall s hr).members hfault
  · rintro ⟨ha, hv⟩ s hr
    refine nullSafe_of_both ?_ hr
    intro k
    cases k with
    | audio => exact ha
    | video => exact hv

/-- A source with both streams and one of another type. -/
theorem nullSafe_of_three_streams : (AVMediaType.audio ∈ [AVMediaType.other, .video, .audio] ∧
    AVMediaType.video ∈ [AVMediaType.other, .video, .audio]) ∧
    ∀ s, (Player.lts [.other, .video, .audio]).Reachable s → NullSafe s := by
  have hboth : AVMediaType.audio ∈ [AVMediaType.other, .video, .audio] ∧
      AVMediaType.video ∈ [AVMediaType.other, .video, .audio] := by decide
  exact ⟨hboth, (nullSafe_iff_both (Or.inl hboth.1)).mpr hboth⟩

end LibraLive

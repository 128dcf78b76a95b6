import LibraLive.Lemmas.PlayerChannel

/-!
# How far the threads of the player are, relative to each other

`PlayerPhased` ties the channels' `start` and `stop` calls to the places of the prepare and the demux thread, and these to
the joins of the stop thread: the demux loop runs on started channels only, and what `init_stop` deletes nobody uses.
-/

namespace LibraLive

/-- A phase up to the end of `start`. -/
def CtlPc.starting : CtlPc → Bool
  | .constructed | .playing | .working1 | .working2 | .decodeCreated | .running => true
  | _ => false

/-- A phase from the end of `start` on. -/
def CtlPc.stopping : CtlPc → Bool
  | .constructed | .playing | .working1 | .working2 | .decodeCreated => false
  | _ => true

/-- In `NiubiPlayer::start`, from the first `start` of a channel on. -/
def PreparePc.starts : PreparePc → Bool
  | .start .videoStart | .start .audioStart | .start .createPlay => true
  | _ => false

/-- `NiubiPlayer::start` has returned, or was never called and the thread is at its end. -/
def PreparePc.done : PreparePc → Bool
  | .detach | .ended => true
  | _ => false

/-- Inside the loop of `init_start`, or on the way out of it. -/
def DemuxPc.loops : DemuxPc → Bool
  | .notCreated | .stopVideo | .stopAudio | .ended => false
  | _ => true

/-- `init_stop` is past its first join. -/
def StopPc.prepareJoined : StopPc → Bool
  | .notCreated | .joinPrepare => false
  | _ => true

/-- `init_stop` is past its second join. -/
def StopPc.playJoined : StopPc → Bool
  | .notCreated | .joinPrepare | .joinPlay => false
  | _ => true

attribute [simp] CtlPc.starting CtlPc.stopping PreparePc.starts PreparePc.done DemuxPc.loops StopPc.prepareJoined
  StopPc.playJoined

/-- The phases a channel may be in, given where the prepare and the demux thread are. -/
def ctlAt (prepare : PreparePc) (demux : DemuxPc) (k : Kind) (ctl : CtlPc) : Bool :=
  match demux with
  | .notCreated =>
    match prepare, k with
    | .start .videoStart, .video => ctl.starting
    | .start .audioStart, .audio => ctl.starting
    | .start .audioStart, .video => ctl = .running
    | .start .createPlay, _ => ctl = .running
    | _, _ => ctl = .constructed
  | .stopVideo =>
    match k with
    | .video => ctl.stopping
    | .audio => ctl = .running
  | .stopAudio =>
    match k with
    | .video => ctl = .stopped
    | .audio => ctl.stopping
  | .ended => ctl = .stopped
  | _ => ctl = .running

/-- Before the first `start` call the channels are as constructed. -/
theorem ctlAt_constructed {prepare : PreparePc} (h : prepare.starts = false) (k : Kind) (ctl : CtlPc) :
    ctlAt prepare .notCreated k ctl = decide (ctl = .constructed) := by
  unfold ctlAt
  dsimp only
  split <;> first | rfl | simp at h

/-- In the demux loop the channels have been started and not been stopped. -/
theorem ctlAt_running {demux : DemuxPc} (h : demux.loops = true) (prepare : PreparePc) (k : Kind) (ctl : CtlPc) :
    ctlAt prepare demux k ctl = decide (ctl = .running) := by
  cases demux <;> first | rfl | simp at h

/-- A statement of `start` finds and leaves the channel in a phase of `start`. -/
theorem Channel.act_start_ctl {c c' : Channel} (h : c.act .start = some c') :
    c.ctl.starting = true ∧ c'.ctl.starting = true ∧ c.ctl ≠ .running := by
  simp only [Channel.act, Channel.start] at h
  split at h <;> cases h <;> rename_i hctl <;> simp [hctl]

/-- A statement of `stop` finds and leaves the channel in a phase of `stop`, with a clear flag. -/
theorem Channel.act_stop_ctl {c c' : Channel} (h : c.act .stop = some c') :
    c.ctl.stopping = true ∧ c'.ctl.stopping = true ∧ c'.ctl.isPlaying = false := by
  simp only [Channel.act, Channel.stop] at h
  split at h
  case h_1 hctl | h_2 hctl | h_3 hctl =>
    cases h
    exact ⟨by simp [hctl], rfl, rfl⟩
  case h_4 hctl | h_5 hctl | h_6 hctl | h_7 hctl =>
    split at h <;> cases h <;> exact ⟨by simp [hctl], rfl, rfl⟩
  case h_8 => cases h

/-- What the places of the threads and the channels' phases say about each other. -/
structure PlayerPhased (s : Player) : Prop where
  kind : ∀ k c, s.channel k = some c → c.kind = k
  id : ∀ k c, s.channel k = some c → ∃ i : Nat, c.id = i ∧ s.streams[i]? = some k.mediaType
  ctl : ∀ k c, s.channel k = some c → ctlAt s.prepare s.demux k c.ctl = true
  demux : s.demux ≠ .notCreated → s.prepare.done = true
  reads : s.demux = .notCreated → s.reads = []
  prepareJoined : s.stopper.prepareJoined = true → s.prepare = .ended
  playJoined : s.stopper.playJoined = true → s.demux = .ended ∨ s.demux = .notCreated
  stopCreated : s.stopper ≠ .notCreated → s.ui = .stopped ∨ s.ui = .released

namespace PlayerPhased

open Player

variable {s s' : Player}

/-- While `init_prepare` runs there is no demux thread. -/
theorem notCreated (hs : PlayerPhased s) (h : s.prepare.done = false) : s.demux = .notCreated := by
  by_contra hd
  rw [hs.demux hd] at h
  cases h

/-- The class and the stream of a channel are those it was created with. -/
theorem kind_id_step (hs : PlayerPhased s) {a : PlayerAct} (h : PlayerStep s a s') (hst : s'.streams = s.streams) :
    (∀ k c, s'.channel k = some c → c.kind = k) ∧
    ∀ k c, s'.channel k = some c → ∃ i : Nat, c.id = i ∧ s'.streams[i]? = some k.mediaType := by
  refine ⟨?_, ?_⟩
  · intro k c hc
    rcases channel_change h hc with hc | ⟨i, -, -, rfl⟩ | ⟨c₀, b, hc₀, hact, -⟩
    · exact hs.kind k c hc
    · rfl
    · rw [(Channel.act_kind_id hact).1]
      exact hs.kind k c₀ hc₀
  · intro k c hc
    rw [hst]
    rcases channel_change h hc with hc | ⟨i, -, hi, rfl⟩ | ⟨c₀, b, hc₀, hact, -⟩
    · exact hs.id k c hc
    · exact ⟨i, rfl, hi⟩
    · rw [(Channel.act_kind_id hact).2]
      exact hs.id k c₀ hc₀

/-! ### The prepare thread -/

/-- Before the first `start` call the channels are as constructed. -/
theorem constructed (hs : PlayerPhased s) (hd : s.prepare.done = false) (h : s.prepare.starts = false) {k : Kind}
    {c : Channel} (hc : s.channel k = some c) : c.ctl = .constructed := by
  have hctl := hs.ctl k c hc
  rw [hs.notCreated hd, ctlAt_constructed h] at hctl
  exact of_decide_eq_true hctl

/-- A prepare thread that takes a step has not returned, so `init_stop` is not past its first join. -/
theorem prepare_joined (hs : PlayerPhased s) (h : PrepareStep s s') : s.stopper.prepareJoined = false := by
  by_contra hj
  have he := hs.prepareJoined (by simpa using hj)
  cases h with
  | scan next hpc | nullHelper _ hpc => simp [he] at hpc
  | report code next _ hpc => simp [he] at hpc
  | deletedHelper hpc => simp [he] at hpc
  | scanned i hpc | skip i hpc | makeChannel i k hpc | accept k hpc | onPrepare _ hpc | setPlaying hpc | noVideo hpc
  | setAudioChannel c c' hpc | startChannel k c c' hpc | started k hpc | createPlay hpc | reported hpc
  | detach hpc => rw [he] at hpc; cases hpc

/-- The stop thread has not joined the second thread if it has not joined the first. -/
theorem play_joined {pc : StopPc} (h : pc.prepareJoined = false) : pc.playJoined = false := by
  cases pc <;> simp at h ⊢

/-- No step of the prepare thread moves the stop or the UI thread, or changes what was read. -/
theorem prepare_keeps (h : PrepareStep s s') :
    s'.stopper = s.stopper ∧ s'.ui = s.ui ∧ s'.reads = s.reads ∧ s'.streams = s.streams := by
  cases h <;> simp

/-- A step inside the scan or in the part of `start` before the first channel is started leaves constructed channels. -/
theorem ctl_of_constructed {prepare : PreparePc} (hd : s'.demux = .notCreated) (hp : s'.prepare = prepare)
    (hst : prepare.starts = false) (hc : ∀ k c, s'.channel k = some c → c.ctl = .constructed) :
    ∀ k c, s'.channel k = some c → ctlAt s'.prepare s'.demux k c.ctl = true := by
  intro k c h
  rw [hd, hp, ctlAt_constructed hst]
  exact decide_eq_true (hc k c h)

/-- `start` of one channel goes on, and the other stays where it was. -/
theorem ctl_startChannel (hs : PlayerPhased s) {k : Kind} {c c' : Channel} (hpc : s.prepare = .start k.startPc)
    (hact : c.act .start = some c') (k' : Kind) (d : Channel)
    (hd : (s.setChannel k (some c')).channel k' = some d) : ctlAt s.prepare s.demux k' d.ctl = true := by
  rcases channel_setChannel_cases hd with ⟨hk, he⟩ | ⟨-, hsame⟩
  · subst hk
    obtain rfl := Option.some.inj he
    obtain ⟨-, hst, -⟩ := Channel.act_start_ctl hact
    rw [hs.notCreated (by simp [hpc]), hpc]
    cases k' <;> exact hst
  · exact hs.ctl k' d hsame

/-- A channel whose `start` has returned is running, and the other one is as the order of the calls says. -/
theorem ctl_started (hs : PlayerPhased s) {k : Kind} (hpc : s.prepare = .start k.startPc)
    (hrun : ∀ c, s.channel k = some c → c.ctl = .running) (k' : Kind) (c : Channel) (hc : s.channel k' = some c) :
    ctlAt (.start k.startNext) .notCreated k' c.ctl = true := by
  have hctl := hs.ctl k' c hc
  rw [hs.notCreated (by simp [hpc]), hpc] at hctl
  by_cases hk : k' = k
  · subst hk
    rw [hrun c hc]
    cases k' <;> rfl
  · cases k <;> cases k' <;> first | exact absurd rfl hk | skip
    · exact hctl
    · have hcon : c.ctl = .constructed := of_decide_eq_true hctl
      rw [hcon]
      rfl

/-- After `createPlay` and at the end of the thread, the place of the prepare thread says nothing more. -/
theorem ctlAt_done {p p' : PreparePc} (h : p.done = true) (h' : p'.done = true) (demux : DemuxPc) (k : Kind)
    (ctl : CtlPc) : ctlAt p demux k ctl = ctlAt p' demux k ctl := by
  cases demux <;> first | rfl | skip
  rw [ctlAt_constructed (by cases p <;> simp at h ⊢), ctlAt_constructed (by cases p' <;> simp at h' ⊢)]

/-- The channels' phases after a step of the prepare thread. -/
theorem prepare_ctl (hs : PlayerPhased s) (h : PrepareStep s s') :
    ∀ k c, s'.channel k = some c → ctlAt s'.prepare s'.demux k c.ctl = true := by
  cases h with
  | scan next hpc hnext =>
    have hd : s.prepare.done = false := by
      cases hp : s.prepare <;> simp [hp] at hpc ⊢
    have hst : s.prepare.starts = false := by
      cases hp : s.prepare <;> simp [hp] at hpc ⊢
    refine ctl_of_constructed (hs.notCreated hd) rfl ?_ (fun k c hc => hs.constructed (k := k) hd hst ?_)
    · rcases hnext with ⟨hn, -⟩ | ⟨code, rfl⟩
      · cases next <;> simp at hn ⊢
      · rfl
    · exact (channel_congr rfl rfl k).symm.trans hc
  | scanned i hpc _ | skip i hpc _ | accept k hpc _ | onPrepare _ hpc | setPlaying hpc | reported hpc =>
    have hd : s.prepare.done = false := by simp [hpc]
    refine ctl_of_constructed (hs.notCreated hd) rfl rfl (fun k c hc => hs.constructed (k := k) hd (by simp [hpc]) ?_)
    exact (channel_congr rfl rfl k).symm.trans hc
  | makeChannel i k hpc _ =>
    have hd : s.prepare.done = false := by simp [hpc]
    refine ctl_of_constructed ?_ rfl rfl ?_
    · simpa using hs.notCreated hd
    · intro k' c hc
      have hset := (channel_congr (s := s.setChannel k (some (Channel.new k i))) rfl rfl k').symm.trans hc
      rcases channel_setChannel_cases hset with ⟨-, he⟩ | ⟨-, hsame⟩
      · obtain rfl := Option.some.inj he
        rfl
      · exact hs.constructed hd (by simp [hpc]) hsame
  | report code next _ hpc =>
    have hd : s.prepare.done = false := by rcases hpc with ⟨hpc, -⟩ | ⟨hpc, -⟩ <;> simp [hpc]
    have hst : s.prepare.starts = false := by rcases hpc with ⟨hpc, -⟩ | ⟨hpc, -⟩ <;> simp [hpc]
    refine ctl_of_constructed (hs.notCreated hd) rfl ?_ (fun k c hc => hs.constructed (k := k) hd hst ?_)
    · rcases hpc with ⟨-, rfl⟩ | ⟨-, rfl⟩ <;> rfl
    · exact (channel_congr rfl rfl k).symm.trans hc
  | nullHelper | deletedHelper =>
    intro k c hc
    exact hs.ctl k c ((channel_congr rfl rfl k).symm.trans hc)
  | noVideo hpc hv =>
    intro k c hc
    have hd : s.prepare.done = false := by simp [hpc]
    have hsame : s.channel k = some c := (channel_congr rfl rfl k).symm.trans hc
    rw [show ({ s with prepare := PreparePc.start .audioStart } : Player).demux = .notCreated from hs.notCreated hd]
    have hcon := hs.constructed hd (by simp [hpc]) hsame
    cases k with
    | audio => simp [ctlAt, hcon]
    | video => exact absurd (hv.symm.trans hsame) (by simp)
  | setAudioChannel c c' hpc hc hact =>
    intro k d hd
    have hnd : s.prepare.done = false := by simp [hpc]
    have hset := (channel_congr (s := s.setChannel .video (some c')) rfl rfl k).symm.trans hd
    have hcon : d.ctl = .constructed := by
      rcases channel_setChannel_cases hset with ⟨-, he⟩ | ⟨-, hsame⟩
      · obtain rfl := Option.some.inj he
        rw [Channel.act_ctl (by simp) hact]
        exact hs.constructed (k := .video) hnd (by simp [hpc]) hc
      · exact hs.constructed hnd (by simp [hpc]) hsame
    simp only [demux_setChannel, hs.notCreated hnd, hcon]
    cases k <;> rfl
  | startChannel k c c' hpc hc hact =>
    intro k' d hd
    simpa using hs.ctl_startChannel hpc hact k' d hd
  | started k hpc hrun =>
    intro k' c hc
    have hsame : s.channel k' = some c := (channel_congr rfl rfl k').symm.trans hc
    rw [show ({ s with prepare := PreparePc.start k.startNext } : Player).demux = .notCreated from
      hs.notCreated (by simp [hpc])]
    exact hs.ctl_started hpc hrun k' c hsame
  | createPlay hpc =>
    intro k c hc
    have hctl := hs.ctl k c ((channel_congr rfl rfl k).symm.trans hc)
    rw [hs.notCreated (by simp [hpc]), hpc] at hctl
    cases k <;> exact hctl
  | detach hpc =>
    intro k c hc
    have hctl := hs.ctl k c ((channel_congr rfl rfl k).symm.trans hc)
    rw [hpc] at hctl
    exact (ctlAt_done rfl rfl s.demux k c.ctl).trans hctl

/-- Only `createPlay` creates the demux thread. -/
theorem prepare_demux (hs : PlayerPhased s) (h : PrepareStep s s') (hd : s'.demux ≠ .notCreated) :
    s'.prepare.done = true := by
  have hdone : s.demux ≠ .notCreated → s.prepare.done = true := hs.demux
  cases h with
  | nullHelper | deletedHelper => exact hdone hd
  | createPlay | reported | detach => rfl
  | scan next hpc =>
    have h' := hdone hd
    cases hp : s.prepare <;> simp [hp] at hpc h'
  | report code next _ hpc =>
    have h' := hdone hd
    rcases hpc with ⟨hpc, -⟩ | ⟨hpc, -⟩ <;> simp [hpc] at h'
  | scanned i hpc | skip i hpc | accept k hpc | onPrepare _ hpc | setPlaying hpc | noVideo hpc | started k hpc =>
    have h' := hdone hd
    simp [hpc] at h'
  | makeChannel i k hpc | setAudioChannel c c' hpc | startChannel k c c' hpc =>
    have h' := hdone (by simpa using hd)
    simp [hpc] at h'

/-- The steps of the prepare thread keep the phases. -/
theorem prepare_step (hs : PlayerPhased s) (h : PrepareStep s s') : PlayerPhased s' := by
  obtain ⟨hstop, hui, hreads, hstreams⟩ := prepare_keeps h
  have hj := hs.prepare_joined h
  obtain ⟨hkind, hid⟩ := hs.kind_id_step (PlayerStep.prepare h : PlayerStep s (.prepare 0) s') hstreams
  refine ⟨hkind, hid, hs.prepare_ctl h, hs.prepare_demux h, ?_, ?_, ?_, ?_⟩
  · intro hd
    rw [hreads]
    refine hs.reads ?_
    by_contra hne
    cases h <;> simp_all
  · intro h'
    rw [hstop, hj] at h'
    cases h'
  · intro h'
    rw [hstop, play_joined hj] at h'
    cases h'
  · rw [hstop, hui]
    exact hs.stopCreated

/-! ### The demux thread -/

/-- A demux thread that takes a step was created and has not returned. -/
theorem demux_runs (h : DemuxStep s s') : s.demux ≠ .notCreated ∧ s.demux ≠ .ended := by
  cases h with
  | nullChannel k hpc =>
    rcases hpc with hpc | ⟨test, hpc, -⟩
    · cases k <;> simp [hpc, Kind.stopPc]
    · simp [hpc]
  | room k hpc | throttle k c hpc => cases k <;> simp [hpc, Kind.sizePc]
  | stopChannel k c c' hpc | stopped k c hpc => cases k <;> simp [hpc, Kind.stopPc]
  | continue_ hpc | quit hpc | retry k hpc | read packet hpc | readFailed freed next hpc | routeTo k packet c hpc
  | routeNowhere packet hpc | eofEmpty test c hpc | eofBusy test c hpc | leave reason hpc => simp [hpc]

/-- So `init_stop` is not past its second join. -/
theorem demux_joined (hs : PlayerPhased s) (h : DemuxStep s s') :
    s.demux ≠ .notCreated ∧ s.stopper.playJoined = false := by
  obtain ⟨hcreated, hended⟩ := demux_runs h
  refine ⟨hcreated, ?_⟩
  by_contra hj
  rcases hs.playJoined (by simpa using hj) with he | he
  · exact hended he
  · exact hcreated he

/-- No step of the demux thread moves another thread of the player. -/
theorem demux_keeps (h : DemuxStep s s') :
    s'.stopper = s.stopper ∧ s'.ui = s.ui ∧ s'.prepare = s.prepare ∧ s'.streams = s.streams := by
  cases h <;> simp

/-- A demux thread that was created goes on existing. -/
theorem demux_created (h : DemuxStep s s') : s'.demux ≠ .notCreated := by
  cases h with
  | room k _ _ => cases k <;> simp [Kind.sizeNext]
  | stopped k _ _ _ _ => cases k <;> simp [Kind.stopNext]
  | readFailed freed next _ hn => rcases hn with rfl | rfl <;> simp
  | stopChannel k _ _ hpc _ _ => cases k <;> simp [hpc, Kind.stopPc]
  | eofEmpty test _ _ _ _ => cases test <;> simp [EofTest.next]
  | nullChannel k hpc _ =>
    rcases hpc with hpc | ⟨test, hpc, -⟩
    · cases k <;> simp [hpc, Kind.stopPc]
    · simp [hpc]
  | _ => simp

/-- While the demux thread is in its loop the channels are started and not stopped. -/
theorem running (hs : PlayerPhased s) (hl : s.demux.loops = true) {k : Kind} {c : Channel} (hc : s.channel k = some c) :
    c.ctl = .running := by
  have hctl := hs.ctl k c hc
  rw [ctlAt_running hl] at hctl
  exact of_decide_eq_true hctl

/-- A step inside the loop leaves the channels running. -/
theorem ctl_of_running (hl : s'.demux.loops = true) (hc : ∀ k c, s'.channel k = some c → c.ctl = .running) :
    ∀ k c, s'.channel k = some c → ctlAt s'.prepare s'.demux k c.ctl = true := by
  intro k c h
  rw [ctlAt_running hl]
  exact decide_eq_true (hc k c h)

/-- The channels' phases after a step of the demux thread. -/
theorem demux_ctl (hs : PlayerPhased s) (h : DemuxStep s s') :
    ∀ k c, s'.channel k = some c → ctlAt s'.prepare s'.demux k c.ctl = true := by
  cases h with
  | continue_ hpc | quit hpc | retry k hpc | read packet hpc | routeNowhere packet hpc | eofBusy test c hpc =>
    refine ctl_of_running rfl (fun k c hc => hs.running (k := k) (by simp [hpc]) ?_)
    exact (channel_congr rfl rfl k).symm.trans hc
  | room k hpc _ =>
    have hl : s.demux.loops = true := by cases k <;> simp [hpc, Kind.sizePc]
    refine ctl_of_running (by cases k <;> rfl) (fun k c hc => hs.running (k := k) hl ?_)
    exact (channel_congr rfl rfl k).symm.trans hc
  | throttle k c hpc _ _ =>
    have hl : s.demux.loops = true := by cases k <;> simp [hpc, Kind.sizePc]
    refine ctl_of_running rfl (fun k c hc => hs.running (k := k) hl ?_)
    exact (channel_congr rfl rfl k).symm.trans hc
  | readFailed freed next hpc hn =>
    refine ctl_of_running ?_ (fun k c hc => hs.running (k := k) (by simp [hpc]) ?_)
    · rcases hn with rfl | rfl <;> rfl
    · exact (channel_congr rfl rfl k).symm.trans hc
  | eofEmpty test c hpc _ _ =>
    refine ctl_of_running (by cases test <;> rfl) (fun k c hc => hs.running (k := k) (by simp [hpc]) ?_)
    exact (channel_congr rfl rfl k).symm.trans hc
  | routeTo k packet c hpc hc _ _ =>
    have hl : s.demux.loops = true := by simp [hpc]
    refine ctl_of_running rfl ?_
    intro k' d hd
    have hset := (channel_congr (s := s.setChannel k (some (c.pushPacket packet))) rfl rfl k').symm.trans hd
    rcases channel_setChannel_cases hset with ⟨-, he⟩ | ⟨-, hsame⟩
    · obtain rfl := Option.some.inj he
      exact (Channel.act_ctl (b := .push packet) (by simp) rfl).trans (hs.running hl hc)
    · exact hs.running hl hsame
  | leave reason hpc =>
    intro k c hc
    have hrun := hs.running (k := k) (c := c) (by simp [hpc]) ((channel_congr rfl rfl k).symm.trans hc)
    cases k <;> simp [ctlAt, hrun]
  | stopChannel k c c' hpc hc hact =>
    intro k' d hd
    simp only [prepare_setChannel, demux_setChannel]
    rcases channel_setChannel_cases hd with ⟨hk, he⟩ | ⟨-, hsame⟩
    · subst hk
      obtain rfl := Option.some.inj he
      obtain ⟨-, hst, -⟩ := Channel.act_stop_ctl hact
      rw [hpc]
      cases k' <;> exact hst
    · exact hs.ctl k' d hsame
  | stopped k c hpc hc hctl =>
    intro k' d hd
    have hsame : s.channel k' = some d := (channel_congr rfl rfl k').symm.trans hd
    have hphase := hs.ctl k' d hsame
    by_cases hk : k' = k
    · subst hk
      obtain rfl := Option.some.inj (hc.symm.trans hsame)
      cases k' <;> simp [ctlAt, Kind.stopNext, hctl]
    · rw [hpc] at hphase
      cases k <;> cases k' <;> first | exact absurd rfl hk | skip
      · simpa [ctlAt, Kind.stopPc, Kind.stopNext] using hphase
      · have hrun : d.ctl = .running := by simpa [ctlAt, Kind.stopPc] using hphase
        simp [ctlAt, Kind.stopNext, hrun]
  | nullChannel =>
    intro k c hc
    exact hs.ctl k c ((channel_congr rfl rfl k).symm.trans hc)

/-- The steps of the demux thread keep the phases. -/
theorem demux_step (hs : PlayerPhased s) (h : DemuxStep s s') : PlayerPhased s' := by
  obtain ⟨hstop, hui, hprep, hstreams⟩ := demux_keeps h
  obtain ⟨hne, hj⟩ := hs.demux_joined h
  obtain ⟨hkind, hid⟩ := hs.kind_id_step (PlayerStep.demux h : PlayerStep s (.demux 0 0 0) s') hstreams
  refine ⟨hkind, hid, hs.demux_ctl h, ?_, ?_, ?_, ?_, ?_⟩
  · intro _
    rw [hprep]
    exact hs.demux hne
  · intro hd
    exact absurd hd (demux_created h)
  · rw [hstop, hprep]
    exact hs.prepareJoined
  · intro h'
    rw [hstop, hj] at h'
    cases h'
  · rw [hstop, hui]
    exact hs.stopCreated

/-! ### The other threads -/

/-- The stop thread deletes channels and changes no other. -/
theorem stopper_channel (h : StopperStep s s') {k : Kind} {c : Channel} (hc : s'.channel k = some c) :
    s.channel k = some c := by
  cases h with
  | deleteChannel k₁ _ =>
    have hset := (channel_congr (s := s.setChannel k₁ none) rfl rfl k).symm.trans hc
    rcases channel_setChannel_cases hset with ⟨-, he⟩ | ⟨-, hsame⟩
    · cases he
    · exact hsame
  | _ => exact (channel_congr (s := s) rfl rfl k).symm.trans hc

/-- The steps of the stop thread keep the phases. -/
theorem stopper_step (hs : PlayerPhased s) (h : StopperStep s s') : PlayerPhased s' := by
  have hprep : s'.prepare = s.prepare := by cases h <;> simp
  have hdemux : s'.demux = s.demux := by cases h <;> simp
  have hreads : s'.reads = s.reads := by cases h <;> simp
  have hstreams : s'.streams = s.streams := by cases h <;> simp
  refine ⟨?_, ?_, ?_, ?_, ?_, ?_, ?_, ?_⟩
  · exact fun k c hc => hs.kind k c (stopper_channel h hc)
  · rw [hstreams]
    exact fun k c hc => hs.id k c (stopper_channel h hc)
  · rw [hprep, hdemux]
    exact fun k c hc => hs.ctl k c (stopper_channel h hc)
  · rw [hprep, hdemux]
    exact hs.demux
  · rw [hdemux, hreads]
    exact hs.reads
  · rw [hprep]
    cases h with
    | joinPrepare _ hp => exact fun _ => hp
    | deleteChannel k hpc => exact fun _ => hs.prepareJoined (by cases k <;> simp [hpc, Kind.deletePc])
    | joinPlay hpc | deleteHelper hpc | closeFormat hpc => exact fun _ => hs.prepareJoined (by simp [hpc])
  · rw [hdemux]
    cases h with
    | joinPrepare => rintro ⟨⟩
    | joinPlay _ hd => exact fun _ => hd
    | deleteChannel k hpc => exact fun _ => hs.playJoined (by cases k <;> simp [hpc, Kind.deletePc])
    | deleteHelper hpc | closeFormat hpc => exact fun _ => hs.playJoined (by simp [hpc])
  · intro _
    have hui : s'.ui = s.ui := by cases h <;> simp
    rw [hui]
    refine hs.stopCreated ?_
    cases h with
    | deleteChannel k hpc => cases k <;> simp [hpc, Kind.deletePc]
    | joinPrepare hpc | joinPlay hpc | deleteHelper hpc | closeFormat hpc => simp [hpc]

/-- The steps of the UI thread keep the phases. -/
theorem ui_step (hs : PlayerPhased s) {a : PlayerAct} (h : UiStep s a s') : PlayerPhased s' := by
  have hsame : ∀ k, s'.channel k = s.channel k := by
    intro k
    cases h <;> exact channel_congr rfl rfl k
  have hprep : s'.prepare = s.prepare := by cases h <;> rfl
  have hdemux : s'.demux = s.demux := by cases h <;> rfl
  refine ⟨?_, ?_, ?_, ?_, ?_, ?_, ?_, ?_⟩
  · simpa only [hsame] using hs.kind
  · have hstreams : s'.streams = s.streams := by cases h <;> rfl
    simpa only [hsame, hstreams] using hs.id
  · simpa only [hsame, hprep, hdemux] using hs.ctl
  · simpa only [hprep, hdemux] using hs.demux
  · have hreads : s'.reads = s.reads := by cases h <;> rfl
    simpa only [hdemux, hreads] using hs.reads
  · rw [hprep]
    cases h with
    | createStop => rintro ⟨⟩
    | clear | zeroHelper | destroy => exact hs.prepareJoined
  · rw [hdemux]
    cases h with
    | createStop => rintro ⟨⟩
    | clear | zeroHelper | destroy => exact hs.playJoined
  · cases h with
    | clear hui | zeroHelper hui => exact fun hne => absurd (hs.stopCreated hne) (by simp [hui])
    | createStop => exact fun _ => Or.inl rfl
    | destroy => exact fun _ => Or.inr rfl

/-- The steps of a thread of a channel keep the phases. -/
theorem channel_step (hs : PlayerPhased s) {k : Kind} {b : ChannelAct} {c c' : Channel} (hown : b.own = true)
    (hc : s.channel k = some c) (hact : c.act b = some c') : PlayerPhased (s.setChannel k (some c')) := by
  obtain ⟨hkind, hid⟩ := hs.kind_id_step (.channel hown hc hact) (by simp)
  refine ⟨hkind, hid, ?_, ?_, ?_, ?_, ?_, ?_⟩
  · intro k' d hd
    rw [prepare_setChannel, demux_setChannel]
    rcases channel_setChannel_cases hd with ⟨hk, he⟩ | ⟨-, hsame⟩
    · subst hk
      obtain rfl := Option.some.inj he
      rw [Channel.act_ctl (ChannelAct.ne_of_own hown) hact]
      exact hs.ctl k' c hc
    · exact hs.ctl k' d hsame
  · simpa using hs.demux
  · simpa using hs.reads
  · simpa using hs.prepareJoined
  · simpa using hs.playJoined
  · simpa using hs.stopCreated

/-- Every step of the player keeps the phases. -/
theorem step (hs : PlayerPhased s) {a : PlayerAct} (h : PlayerStep s a s') : PlayerPhased s' := by
  cases h with
  | prepare h => exact hs.prepare_step h
  | demux h => exact hs.demux_step h
  | stopper h => exact hs.stopper_step h
  | ui h => exact hs.ui_step h
  | channel hown hc hact => exact hs.channel_step hown hc hact

end PlayerPhased

/-- What the source holds does not change. -/
theorem Player.streams_step {s s' : Player} {a : PlayerAct} (h : s.PlayerStep a s') : s'.streams = s.streams := by
  cases h with
  | prepare h => cases h <;> simp
  | demux h => cases h <;> simp
  | stopper h => cases h <;> simp
  | ui h => cases h <;> rfl
  | channel => simp

/-- Until `init_stop` is past its second join, no step takes a channel away. -/
theorem Player.channel_stays {s s' : Player} {a : PlayerAct} (hj : s.stopper.playJoined = false)
    (h : s.PlayerStep a s') {k : Kind} (hc : (s.channel k).isSome = true) : (s'.channel k).isSome = true := by
  have hset : ∀ {t : Player} {k' : Kind} {c : Channel}, (∀ k, t.channel k = (s.setChannel k' (some c)).channel k) →
      (t.channel k).isSome = true := by
    intro t k' c ht
    rw [ht]
    by_cases hk : k = k'
    · rw [hk, Player.channel_setChannel]
      rfl
    · rwa [Player.channel_setChannel_of_ne s _ hk]
  have hsame : ∀ {t : Player}, (∀ k, t.channel k = s.channel k) → (t.channel k).isSome = true := by
    intro t ht
    rwa [ht]
  cases h with
  | prepare h =>
    cases h with
    | makeChannel | setAudioChannel => exact hset (Player.channel_congr rfl rfl)
    | startChannel => exact hset (fun _ => rfl)
    | _ => exact hsame (Player.channel_congr rfl rfl)
  | demux h =>
    cases h with
    | routeTo => exact hset (Player.channel_congr rfl rfl)
    | stopChannel => exact hset (fun _ => rfl)
    | _ => exact hsame (Player.channel_congr rfl rfl)
  | stopper h =>
    cases h with
    | deleteChannel k' hpc =>
      rw [hpc] at hj
      cases k' <;> cases hj
    | _ => exact hsame (Player.channel_congr rfl rfl)
  | ui h => cases h <;> exact hsame (Player.channel_congr rfl rfl)
  | channel => exact hset (fun _ => rfl)

/-- While the demux thread runs, `init_stop` is not past its second join. -/
theorem PlayerPhased.playJoined_of_loops {s : Player} (hs : PlayerPhased s) (h : s.demux.loops = true) :
    s.stopper.playJoined = false := by
  by_contra hj
  rcases hs.playJoined (by simpa using hj) with he | he <;> simp [he] at h

/-- Every player a run reaches is phased. -/
theorem playerPhased_of_reachable {streams : List AVMediaType} {s : Player} (h : (Player.lts streams).Reachable s) :
    PlayerPhased s := by
  refine Lts.Reachable.invariant ?_ ?_ h
  · rintro s rfl
    have hnone : ∀ k c, (Player.new streams).channel k ≠ some c := by
      intro k c hc
      rw [Player.channel_new] at hc
      cases hc
    exact ⟨fun k c hc => absurd hc (hnone k c), fun k c hc => absurd hc (hnone k c), fun k c hc => absurd hc (hnone k c),
      by simp [Player.new], fun _ => rfl, by simp [Player.new], by simp [Player.new], by simp [Player.new]⟩
  · intro s a s' _ hs hstep
    obtain ⟨-, -, hstep⟩ := Player.step_cases hstep
    exact hs.step hstep

end LibraLive

import LibraLive.Lemmas.PlayerPhase
import LibraLive.Lemmas.PlayerRuns

/-!
# From the demuxer to the decoders, in order

Two conservation laws, composed. In a channel, the packets sent to the codec, followed by the one in hand, are the packets
taken off the queue (`SentInOrder`). In the player, the packets a channel's queue accepted, followed by the one the demux
thread is about to push, are the packets read that belong to the channel (`Routed`): while the demux thread is in its loop no
queue rejects. What a queue gives is the beginning of what it accepted.
-/

namespace LibraLive

/-- The packet the decode thread has taken off the queue and not yet sent. -/
def Channel.inHand (c : Channel) : List AVPacket :=
  match c.decode with
  | .pop (.returned true) | .sendPacket => c.packet.toList
  | _ => []

/-- What was sent, followed by what is in hand, was taken off the queue; a thread that left its loop may have dropped the
last packet. -/
structure SentInOrder (c : Channel) : Prop where
  inLoop : c.decode.left = false → c.sent ++ c.inHand = c.packets.queue.taken
  left : c.decode.left = true → c.sent <+: c.packets.queue.taken

/-! ## From the queue to the codec -/

/-- In either case what was sent is the beginning of what was taken. -/
theorem SentInOrder.sent_prefix_taken {c : Channel} (hc : SentInOrder c) : c.sent <+: c.packets.queue.taken := by
  cases hl : c.decode.left with
  | true => exact hc.left hl
  | false => exact ⟨c.inHand, hc.inLoop hl⟩

/-- A step that takes nothing off the queue and sends nothing, and changes what is in hand only by leaving the loop. -/
theorem SentInOrder.of_same {c c' : Channel} (hc : SentInOrder c) (hs : c'.sent = c.sent)
    (ht : c'.packets.queue.taken = c.packets.queue.taken)
    (hd : c'.decode.left = false → c.decode.left = false ∧ c'.inHand = c.inHand) : SentInOrder c' := by
  refine ⟨?_, ?_⟩
  · intro hl
    obtain ⟨hl, hh⟩ := hd hl
    rw [hs, ht, hh]
    exact hc.inLoop hl
  · intro _
    rw [hs, ht]
    exact hc.sent_prefix_taken

/-- A thread in front of the pop is in its loop with nothing in hand. -/
theorem DecodePc.testing_spec {c : Channel} (h : c.decode.testing = true) :
    c.decode.left = false ∧ c.inHand = [] := by
  cases hd : c.decode <;> simp [hd, Channel.inHand] at h ⊢

/-- A decoding thread is in its loop with nothing in hand. -/
theorem DecodePc.decoding_spec {c : Channel} (h : c.decode.decoding = true) :
    c.decode.left = false ∧ c.inHand = [] := by
  cases hd : c.decode <;> simp [hd, Channel.inHand] at h ⊢

/-- A section of `packets.pop` puts in hand what it takes off the queue. -/
theorem SentInOrder.decodePop {c : Channel} (hc : SentInOrder c) (hd : c.decode = .pop .call ∨ c.decode = .pop .woken) :
    SentInOrder c.decodePop := by
  have hl : c.decode.left = false := by rcases hd with hd | hd <;> simp [hd]
  have hnil : c.inHand = [] := by rcases hd with hd | hd <;> simp [Channel.inHand, hd]
  have hh : c.decodePop.inHand = c.packets.popSection.2.2.toList := by
    rcases c.packets.popSection_cases with ⟨he, -, -⟩ | ⟨he, -, -⟩ | ⟨v, rest, he, -⟩ <;>
      simp [Channel.decodePop, Channel.inHand, he]
  refine ⟨?_, by simp [Channel.decodePop]⟩
  intro _
  have ht := hc.inLoop hl
  rw [hnil, List.append_nil] at ht
  rw [hh, show c.decodePop.sent = c.sent from rfl, ht]
  exact (MessageQueue.taken_popSection c.packets).symm

/-- The decode thread sends packets in the order it takes them. -/
theorem SentInOrder.decode_step {c c' : Channel} {ret : Int} (hc : SentInOrder c)
    (h : c.act (.decode ret) = some c') : SentInOrder c' := by
  obtain ⟨-, hs⟩ := decode_cases h
  cases hs with
  | test hd hd' hp _ _ hsent =>
    refine hc.of_same hsent (by rw [hp]) (fun _ => ⟨(DecodePc.testing_spec hd).1, ?_⟩)
    rw [(DecodePc.testing_spec hd).2, (DecodePc.testing_spec hd').2]
  | check hd _ hd' hp _ _ hsent =>
    refine hc.of_same hsent (by rw [hp]) (fun _ => ⟨(DecodePc.testing_spec hd).1, ?_⟩)
    rw [(DecodePc.testing_spec hd).2]
    simp [Channel.inHand, hd']
  | quit _ _ hd' hp _ _ hsent => exact hc.of_same hsent (by rw [hp]) (fun hl => by simp [hd'] at hl)
  | pop hd hc' =>
    subst hc'
    exact hc.decodePop hd
  | miss hd _ hd' hp _ _ hsent =>
    exact hc.of_same hsent (by rw [hp]) (fun _ => ⟨by simp [hd], by simp [Channel.inHand, hd, hd']⟩)
  | take hd _ hd' hpk hp _ _ hsent =>
    exact hc.of_same hsent (by rw [hp]) (fun _ => ⟨by simp [hd], by simp [Channel.inHand, hd, hd', hpk]⟩)
  | send packet hd hpk _ hd' hp _ _ hsent =>
    have ht := hc.inLoop (by simp [hd])
    simp only [Channel.inHand, hd, hpk, Option.toList_some] at ht
    refine ⟨?_, by simp [hd']⟩
    intro _
    rw [hp, hsent, ht]
    simp [Channel.inHand, hd']
  | sendFailed packet hd hpk _ hd' hp _ _ hsent =>
    have ht := hc.inLoop (by simp [hd])
    simp only [Channel.inHand, hd, hpk, Option.toList_some] at ht
    refine ⟨by simp [hd'], ?_⟩
    intro _
    rw [hp, hsent]
    exact ⟨[], by rw [List.append_nil, ht]⟩
  | noFrame packet hd _ hd' hp _ _ hsent =>
    refine hc.of_same hsent (by rw [hp]) (fun _ => ⟨by simp [hd], ?_⟩)
    have hnil : c.inHand = [] := by simp [Channel.inHand, hd]
    have hnil' : c'.inHand = [] := by
      by_cases hb : breaksDecode c.kind c.decode ret = true
      · rw [if_pos hb] at hd'
        simp [Channel.inHand, hd']
      · rw [if_neg hb] at hd'
        simp [Channel.inHand, hd']
    rw [hnil, hnil']
  | decode hd hd' _ hp _ _ hsent =>
    refine hc.of_same hsent (by rw [hp]) (fun _ => ⟨(DecodePc.decoding_spec hd).1, ?_⟩)
    rw [(DecodePc.decoding_spec hd).2, (DecodePc.decoding_spec hd').2]
  | push frame hd hd' hp _ _ hsent =>
    exact hc.of_same hsent (by rw [hp]) (fun _ => ⟨by simp [hd], by simp [Channel.inHand, hd, hd']⟩)
  | leave _ hd' hp _ _ hsent => exact hc.of_same hsent (by rw [hp]) (fun hl => by simp [hd'] at hl)

/-- A signal changes neither what is in hand nor whether the loop was left. -/
theorem SentInOrder.signalled {c c' : Channel} (hc : SentInOrder c) (hs : c'.sent = c.sent)
    (ht : c'.packets.queue.taken = c.packets.queue.taken) (hp : c'.packet = c.packet)
    (hd : c'.decode = c.decode ∨ c'.decode = c.decode.signalled) : SentInOrder c' := by
  refine hc.of_same hs ht ?_
  rcases hd with hd | hd
  · rw [hd]
    exact fun hl => ⟨hl, by simp [Channel.inHand, hd, hp]⟩
  · rw [hd]
    intro hl
    refine ⟨?_, ?_⟩
    · cases hpc : c.decode <;> simp [hpc, DecodePc.signalled] at hl ⊢
    · cases hpc : c.decode with
      | pop pc => cases pc <;> simp [Channel.inHand, hd, hp, hpc, DecodePc.signalled, PopPc.signalled]
      | _ => simp [Channel.inHand, hd, hp, hpc, DecodePc.signalled]

/-- The statements of `start` and `stop` send nothing and take nothing. -/
theorem SentInOrder.ctl_step {c c' : Channel} (hc : SentInOrder c) (hph : Phased c) (h : CtlStep c c') :
    SentInOrder c' := by
  cases h with
  | createDecode hctl hc' =>
    subst hc'
    have hd : c.decode = .notCreated := by
      by_contra hne
      have := hph.decode.mp hne
      simp [hctl] at this
    exact hc.of_same rfl rfl (fun _ => ⟨by simp [hd], by simp [Channel.inHand, hd]⟩)
  | packetsGotoWork _ _ hc' | packetsBackWork _ _ hc' =>
    subst hc'
    exact hc.signalled rfl rfl rfl (Or.inr rfl)
  | setFlag _ hc' | framesGotoWork _ _ hc' | framesBackWork _ _ hc' | createOutput _ _ hc' | clearFlag _ hc'
  | join _ _ hc' | freeSwr _ _ hc' | destroy _ _ hc' =>
    subst hc'
    exact hc.signalled rfl rfl rfl (Or.inl rfl)

/-- Every step of a channel keeps the order. -/
theorem SentInOrder.step {c c' : Channel} {b : ChannelAct} (hc : SentInOrder c) (hph : Phased c)
    (h : c.act b = some c') : SentInOrder c' := by
  cases b with
  | decode ret => exact hc.decode_step h
  | output i =>
    obtain ⟨hk, -⟩ := output_cases h
    exact hc.signalled hk.sent (by rw [hk.packets]) hk.packet (Or.inl hk.decode)
  | start => exact hc.ctl_step hph (start_cases h).1
  | stop => exact hc.ctl_step hph (stop_cases h)
  | wakeDecode =>
    simp only [Channel.act, Option.ite_none_right_eq_some, Option.some.injEq] at h
    obtain ⟨hd, rfl⟩ := h
    exact hc.of_same rfl rfl (fun _ => ⟨by simp [hd], by simp [Channel.inHand, hd]⟩)
  | wakeOutput | playReturn | setAudioChannel channel =>
    simp only [Channel.act, Option.ite_none_right_eq_some, Option.some.injEq] at h
    obtain ⟨-, rfl⟩ := h
    exact hc.signalled rfl rfl rfl (Or.inl rfl)
  | push packet =>
    simp only [Channel.act, Option.some.injEq] at h
    subst h
    refine hc.signalled rfl ?_ rfl ?_
    · dsimp only [Channel.pushPacket, MessageQueue.push]
      split <;> rfl
    · dsimp only [Channel.pushPacket]
      split
      · exact Or.inr rfl
      · exact Or.inl rfl

/-- Every channel a run reaches sends its packets in order. -/
theorem sentInOrder_of_reachable {kind : Kind} {c : Channel} (h : (Channel.lts kind).Reachable c) : SentInOrder c := by
  refine Lts.Reachable.invariant ?_ ?_ h
  · rintro c ⟨id, rfl⟩
    exact ⟨fun _ => rfl, by simp [Channel.new]⟩
  · intro c b c' hr hc hs
    exact hc.step (phased_of_reachable hr) (Channel.step_eq_some.mp hs).2

/-- What a channel sent to its codec is the beginning of what its queue accepted. -/
theorem SentInOrder.sent_prefix {c : Channel} (hc : SentInOrder c) : c.sent <+: c.packets.queue.accepted :=
  hc.sent_prefix_taken.trans c.packets.queue.taken_prefix

/-! ## From the reader to the queue -/

/-- The packets read that belong to a stream. -/
def Player.readsOf (s : Player) (id : Int) : List AVPacket := s.reads.filter (fun packet => packet.stream_index = id)

/-- The packet the demux thread has read and not yet pushed, if it belongs to the stream. -/
def DemuxPc.pending (id : Int) : DemuxPc → List AVPacket
  | .route packet => if packet.stream_index = id then [packet] else []
  | _ => []

/-- What a queue accepted, followed by what is about to be pushed to it, are the packets read of its stream. -/
def Routed (s : Player) : Prop :=
  ∀ k c, s.channel k = some c → c.packets.queue.accepted ++ s.demux.pending c.id = s.readsOf c.id

/-- The two channels belong to different streams. -/
theorem PlayerPhased.id_ne {s : Player} (hs : PlayerPhased s) {k k' : Kind} {c c' : Channel} (hk : k ≠ k')
    (hc : s.channel k = some c) (hc' : s.channel k' = some c') : c.id ≠ c'.id := by
  obtain ⟨i, hi, hsi⟩ := hs.id k c hc
  obtain ⟨j, hj, hsj⟩ := hs.id k' c' hc'
  intro he
  rw [hi, hj, Int.natCast_inj] at he
  rw [he, hsj, Option.some.injEq] at hsi
  cases k <;> cases k' <;> first | exact hk rfl | cases hsi

/-- What a step does to the record of packets read: nothing; it reads one; or it pushes the one that was read. -/
inductive ReadStep (s s' : Player) : Prop where
  | quiet : s'.reads = s.reads → (∀ id, s'.demux.pending id = s.demux.pending id) → ReadStep s s'
  | read (packet : AVPacket) : s.demux = .readFrame → s'.demux = .route packet → s'.reads = s.reads ++ [packet] →
      (∀ k, s'.channel k = s.channel k) → ReadStep s s'
  | route (packet : AVPacket) : s.demux = .route packet → s'.demux = .whileTest → s'.reads = s.reads →
      (∀ k c, s.channel k = some c →
        s'.channel k = some (if packet.stream_index = c.id then c.pushPacket packet else c)) → ReadStep s s'

/-- A packet goes to the channel of its stream, and to no other. -/
theorem PlayerPhased.route_spec {s : Player} (hs : PlayerPhased s) {k : Kind} {packet : AVPacket} {c : Channel}
    (hc : s.channel k = some c) (hid : packet.stream_index = c.id) {k' : Kind} {d : Channel}
    (hd : s.channel k' = some d) : (s.setChannel k (some (c.pushPacket packet))).channel k' =
      some (if packet.stream_index = d.id then d.pushPacket packet else d) := by
  by_cases hk : k' = k
  · subst hk
    obtain rfl := Option.some.inj (hc.symm.trans hd)
    rw [Player.channel_setChannel, if_pos hid]
  · have hne : packet.stream_index ≠ d.id := by
      rw [hid]
      exact hs.id_ne (Ne.symm hk) hc hd
    rw [Player.channel_setChannel_of_ne s _ hk, if_neg hne]
    exact hd

/-- Every step is one of the three. -/
theorem Player.read_cases {s s' : Player} {a : PlayerAct} (hs : PlayerPhased s) (h : s.PlayerStep a s') :
    ReadStep s s' := by
  cases h with
  | prepare h =>
    cases h with
    | createPlay hpc =>
      refine .quiet rfl ?_
      intro id
      rw [hs.notCreated (by simp [hpc])]
      rfl
    | _ => exact .quiet (by simp) (by simp)
  | stopper h => cases h <;> exact .quiet (by simp) (by simp)
  | ui h => cases h <;> exact .quiet rfl (fun _ => rfl)
  | channel => exact .quiet (by simp) (by simp)
  | demux h =>
    cases h with
    | read packet hpc => exact .read packet hpc rfl rfl (channel_congr rfl rfl)
    | routeTo k packet c hpc hc hid _ =>
      refine .route packet hpc rfl (by simp) ?_
      intro k' d hd
      exact (channel_congr rfl rfl k').trans (hs.route_spec hc hid hd)
    | routeNowhere packet hpc hnone =>
      refine .route packet hpc rfl rfl ?_
      intro k c hc
      rw [if_neg (hnone k c hc)]
      exact (channel_congr rfl rfl k).trans hc
    | continue_ hpc | quit hpc | retry k hpc | leave reason hpc | eofBusy test c hpc =>
      exact .quiet rfl (fun id => by rw [hpc]; rfl)
    | room k hpc _ => exact .quiet rfl (fun id => by rw [hpc]; cases k <;> rfl)
    | throttle k c hpc _ _ => exact .quiet rfl (fun id => by rw [hpc]; cases k <;> rfl)
    | readFailed freed next hpc hn =>
      refine .quiet rfl (fun id => ?_)
      rw [hpc]
      rcases hn with rfl | rfl <;> rfl
    | eofEmpty test c hpc _ _ => exact .quiet rfl (fun id => by rw [hpc]; cases test <;> rfl)
    | stopChannel k c c' hpc _ _ => exact .quiet (by simp) (by simp)
    | stopped k c hpc _ _ => exact .quiet rfl (fun id => by rw [hpc]; cases k <;> rfl)
    | nullChannel => exact .quiet rfl (fun _ => rfl)

/-- Only a push makes a packets queue accept something. -/
theorem Channel.act_packets_accepted {c c' : Channel} {b : ChannelAct} (hb : ∀ packet, b ≠ .push packet)
    (h : c.act b = some c') : c'.packets.queue.accepted = c.packets.queue.accepted := by
  rcases Channel.act_packets hb h with hqueue | hqueue
  · rw [hqueue]
  · rw [hqueue, MessageQueue.accepted_popSection]

/-- A channel that runs accepts every packet. -/
theorem Phased.accepted_pushPacket {c : Channel} (hc : Phased c) (hctl : c.ctl = .running) (packet : AVPacket) :
    (c.pushPacket packet).packets.queue.accepted = c.packets.queue.accepted ++ [packet] := by
  have hst : c.packets.state = true := by
    rw [hc.packets, hctl]
    cases c.kind <;> rfl
  simp [Channel.pushPacket, MessageQueue.push_of_working hst]

/-- Before there is a demux thread nothing was read. -/
theorem PlayerPhased.readsOf_nil {s : Player} (hs : PlayerPhased s) (hd : s.prepare.done = false) (id : Int) :
    s.readsOf id = [] := by
  rw [Player.readsOf, hs.reads (hs.notCreated hd)]
  rfl

/-- Every step keeps the packets read and the packets accepted in line. -/
theorem Routed.step {s s' : Player} {a : PlayerAct} (hr : Routed s) (hs : PlayerPhased s)
    (hph : ∀ k c, s.channel k = some c → Phased c) (h : s.PlayerStep a s') : Routed s' := by
  intro k c' hc'
  cases Player.read_cases hs h with
  | quiet hreads hpend =>
    rw [hpend, Player.readsOf, hreads]
    rcases Player.channel_change h hc' with hc | ⟨i, hpc, -, rfl⟩ | ⟨c, b, hc, hact, hcall⟩
    · exact hr k c' hc
    · have hd : s.prepare.done = false := by simp [hpc]
      rw [hs.notCreated hd]
      exact (hs.readsOf_nil hd _).symm
    · have hb : ∀ packet, b ≠ .push packet := by
        rintro packet rfl
        obtain ⟨hd, -, hd'⟩ := hcall
        have hp := hpend packet.stream_index
        rw [hd, hd'] at hp
        simp [DemuxPc.pending] at hp
      rw [Channel.act_packets_accepted hb hact, (Channel.act_kind_id hact).2]
      exact hr k c hc
  | read packet hd hd' hreads hsame =>
    rw [hsame] at hc'
    have hold := hr k c' hc'
    rw [hd, show DemuxPc.readFrame.pending c'.id = [] from rfl, List.append_nil] at hold
    rw [hd', Player.readsOf, hreads, List.filter_append, hold, Player.readsOf]
    by_cases hid : packet.stream_index = c'.id <;> simp [DemuxPc.pending, hid]
  | route packet hd hd' hreads hroute =>
    -- the channel was there before the push
    obtain ⟨c, hc⟩ : ∃ c, s.channel k = some c := by
      rcases Player.channel_change h hc' with hc | ⟨i, hpc, -, -⟩ | ⟨c, b, hc, -, -⟩
      · exact ⟨c', hc⟩
      · have hnc := hs.notCreated (by simp [hpc])
        rw [hd] at hnc
        cases hnc
      · exact ⟨c, hc⟩
    have hold := hr k c hc
    have hrun := hs.running (by simp [hd]) hc
    obtain rfl := Option.some.inj ((hroute k c hc).symm.trans hc')
    rw [hd, DemuxPc.pending] at hold
    rw [hd', show DemuxPc.whileTest.pending _ = [] from rfl, List.append_nil, Player.readsOf, hreads]
    by_cases hid : packet.stream_index = c.id
    · rw [if_pos hid] at hold
      rw [if_pos hid, (hph k c hc).accepted_pushPacket hrun]
      exact hold
    · rw [if_neg hid, List.append_nil] at hold
      rw [if_neg hid]
      exact hold

/-- The channels of a player are phased. -/
theorem channel_phased {streams : List AVMediaType} {s : Player} (h : (Player.lts streams).Reachable s) {k : Kind}
    {c : Channel} (hc : s.channel k = some c) : Phased c :=
  phased_of_reachable ((Player.component streams k).reachable h c hc)

/-- Every player a run reaches has routed what it read. -/
theorem routed_of_reachable {streams : List AVMediaType} {s : Player} (h : (Player.lts streams).Reachable s) :
    Routed s := by
  refine Lts.Reachable.invariant ?_ ?_ h
  · rintro s rfl k c hc
    rw [Player.channel_new] at hc
    cases hc
  · intro s a s' hreach hr hstep
    obtain ⟨-, -, hstep⟩ := Player.step_cases hstep
    exact hr.step (playerPhased_of_reachable hreach) (fun k c hc => channel_phased hreach hc) hstep

/-- Routing and order: at every moment of every run, what a channel's decode thread has handed to `avcodec_send_packet` is
the beginning of the packets read whose `stream_index` is the channel's id, in reading order, none skipped and none repeated,
whatever `av_read_frame` returns, however the threads interleave and whenever `stop` is called. -/
theorem sent_prefix_reads {streams : List AVMediaType} {s : Player} (h : (Player.lts streams).Reachable s) {k : Kind}
    {c : Channel} (hc : s.channel k = some c) :
    c.sent <+: s.reads.filter (fun packet => packet.stream_index = c.id) := by
  have horder := sentInOrder_of_reachable ((Player.component streams k).reachable h c hc)
  have hsent := SentInOrder.sent_prefix horder
  have hrouted : c.packets.queue.accepted ++ s.demux.pending c.id = s.readsOf c.id := routed_of_reachable h k c hc
  exact hsent.trans ⟨_, hrouted⟩

/-- Two packets of two streams were read; the audio channel has sent the one of its stream. -/
theorem sent_prefix_reads_two_packets : ∃ s c, (Player.lts [.audio, .video]).Reachable s ∧
    s.channel .audio = some c ∧ c.sent = [⟨1, 0, 0⟩] ∧ s.reads = [⟨0, 1, 0⟩, ⟨1, 0, 0⟩] ∧
    c.sent <+: s.reads.filter (fun packet => packet.stream_index = c.id) := by
  have hrun : ((Lts.replay Player.step (Player.prepared [.audio, .video]) (Player.startActs ++ Player.readActs 1 ++
      Player.readActs 0 ++ List.replicate 7 (.channel .audio (.decode 0)))).bind
      fun s => (s.channel .audio).map fun c => (c.sent, s.reads)) = some ([⟨1, 0, 0⟩], [⟨0, 1, 0⟩, ⟨1, 0, 0⟩]) := rfl
  obtain ⟨s, hs, hrun⟩ := Option.bind_eq_some_iff.mp hrun
  obtain ⟨c, hc, hrun⟩ := Option.map_eq_some_iff.mp hrun
  obtain ⟨hsent, hreads⟩ := Prod.mk.inj hrun
  have hr := Player.reachable_of_prepared hs
  exact ⟨s, c, hr, hc, hsent, hreads, sent_prefix_reads hr hc⟩

end LibraLive

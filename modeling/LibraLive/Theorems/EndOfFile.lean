import LibraLive.Lemmas.ChannelFlow
import LibraLive.Theorems.Buffering
import LibraLive.Theorems.Routing

/-!
# The end of the file

When `av_read_frame` reports the end of the file, `init_start` leaves its loop once it has seen the four queues empty, one
after the other: what was read may not have been played yet, as its comment says. An empty queue does not mean that what was
in it has been played, though: the thread that took it out may still have it in hand. Where each test of a frames queue comes
at a moment when neither thread of the channel holds anything, everything read was played.
-/

namespace LibraLive

/-- When the demux thread has left its loop through the end-of-file branch, no thread has a packet or a frame in hand, and for
every packet read, in order, the frame received after it was output or dropped as late. -/
def EofLosesNothing (s : Player) : Prop :=
  s.demux = .leave .eof → ∀ k c, s.channel k = some c →
    c.decode.holds = false ∧ c.output.holds = false ∧ c.finished.map AVFrame.sentLast = (s.readsOf c.id).map some

/-- A step in which no codec or filter call fails, and none of `stop` or the destructor. -/
def undisturbed (s : Player) : PlayerAct → Bool
  | .stop | .destroy => false
  | .channel k (.decode ret) => (s.channel k).all fun c => codecSucceeds c.decode ret
  | _ => true

/-- The test of the channel's frames queue. -/
def Kind.framesTest : Kind → EofTest
  | .audio => .audioFrames
  | .video => .videoFrames

/-- A test of a frames queue that sees it empty is made at a moment when neither thread of the channel has anything in
hand. -/
def testsAtRest (s : Player) : PlayerAct → Bool
  | .demux _ _ _ => [Kind.audio, Kind.video].all fun k => s.demux ≠ .eofTest k.framesTest ||
      (s.channel k).all fun c => !c.frames.empty || (!c.decode.holds && !c.output.holds)
  | _ => true

/-! ## A run that loses a packet -/

/-- The steps of a run after the scan: one audio packet is read and the audio decode thread takes it off the queue, then
the file ends and the four queues are seen empty. -/
def packetInHandActs : List PlayerAct :=
  Player.startActs ++ Player.readActs 0 ++ List.replicate 5 (PlayerAct.channel .audio (.decode 0)) ++
  List.replicate 3 (PlayerAct.demux 0 0 0) ++ [PlayerAct.demux AVERROR_EOF 0 0] ++ List.replicate 4 (PlayerAct.demux 0 0 0)

/-- No call fails and nobody calls `stop`, yet the demux thread leaves its loop at the end of the file while the audio decode
thread is about to send the only packet to its codec. -/
theorem eof_loses_packet_in_hand : ¬ ∀ streams s,
    ((Player.lts streams).restrict fun s a => undisturbed s a = true).Reachable s → EofLosesNothing s := by
  intro hall
  have hrun : ((Lts.replayIf Player.step undisturbed (Player.prepared [.audio, .video]) packetInHandActs).bind
      fun s => (s.channel .audio).map fun c => (s.demux, c.decode.holds)) = some (.leave .eof, true) := by decide +kernel
  obtain ⟨s, hs, hrun⟩ := Option.bind_eq_some_iff.mp hrun
  obtain ⟨c, hc, hrun⟩ := Option.map_eq_some_iff.mp hrun
  obtain ⟨hd, hholds⟩ := Prod.mk.inj hrun
  have hp : ((Player.lts [.audio, .video]).restrict fun s a => undisturbed s a = true).Reachable
      (Player.prepared [.audio, .video]) := Player.prepared_reachable (fun _ _ _ => rfl)
  have hr := Lts.replayIf_reachable (P := fun s a => undisturbed s a = true) (fun _ _ _ => id) (fun _ _ => id) _ hp hs
  obtain ⟨hnot, -⟩ := hall _ _ hr hd .audio c hc
  rw [hholds] at hnot
  cases hnot

/-! ## What the tests have seen -/

/-- Everything that ever came to a drained channel that flows has gone through it: what it output or dropped as late comes
from the packets its queue accepted, one frame for each packet, in order. -/
theorem Drained.finished_of_flowing {c : Channel} (hc : Drained c) (hf : Flowing c) (hs : SentInOrder c) :
    c.finished.map AVFrame.sentLast = c.packets.queue.accepted.map some := by
  have hsent : c.sent = c.packets.queue.accepted := by
    have hnil : c.inHand = [] := by
      have hd := hc.decode
      cases hpc : c.decode with
      | pop p =>
        cases p with
        | returned r => cases r <;> simp [hpc, Channel.inHand] at hd ⊢
        | _ => simp [Channel.inHand, hpc]
      | _ => simp [hpc, Channel.inHand] at hd ⊢
    have hinLoop := hs.inLoop hf.inLoop
    rw [hnil, List.append_nil] at hinLoop
    rw [hinLoop, Fifo.taken_eq_of_items_nil hc.packets]
  have hdecoded := hf.decoded
  rw [DecodePc.inDecoder_of_holds hc.decode, List.append_nil] at hdecoded
  have hout := hf.output
  rw [Channel.outHand, hc.output, if_neg Bool.false_ne_true, List.append_nil] at hout
  rw [hout, Fifo.taken_eq_of_items_nil hc.frames, hdecoded, hsent]

/-- On the way out of the loop, past the test of the channel's packets queue. -/
def DemuxPc.packetsSeen : Kind → DemuxPc → Bool
  | .audio, .eofTest .audioPackets => false
  | .audio, .eofTest _ => true
  | .video, .eofTest .videoFrames => true
  | _, .leave .eof => true
  | _, _ => false

/-- On the way out of the loop, past the test of the channel's frames queue. -/
def DemuxPc.framesSeen : Kind → DemuxPc → Bool
  | .audio, .eofTest .videoPackets | .audio, .eofTest .videoFrames => true
  | _, .leave .eof => true
  | _, _ => false

attribute [simp] DemuxPc.packetsSeen DemuxPc.framesSeen

/-- What the tests have seen still holds: a packets queue that was seen empty is empty, and a channel both of whose queues
were seen empty is drained. -/
structure EofSeen (s : Player) : Prop where
  packets : ∀ k c, s.channel k = some c → s.demux.packetsSeen k = true → c.packets.queue.items = []
  frames : ∀ k c, s.channel k = some c → s.demux.framesSeen k = true → Drained c

/-- Whoever has passed the test of the frames queue has passed the one of the packets queue. -/
theorem DemuxPc.packetsSeen_of_framesSeen {k : Kind} {pc : DemuxPc} (h : pc.framesSeen k = true) :
    pc.packetsSeen k = true := by
  cases pc with
  | eofTest test => cases k <;> cases test <;> simp at h ⊢
  | leave reason => cases k <;> cases reason <;> simp at h ⊢
  | _ => cases k <;> simp at h

/-- The tests come after the demux loop has started. -/
theorem DemuxPc.loops_of_packetsSeen {k : Kind} {pc : DemuxPc} (h : pc.packetsSeen k = true) : pc.loops = true := by
  cases pc <;> cases k <;> simp at h ⊢

/-- A step passes a test, leaves the demux thread where it is, or takes it to a place where no test counts. -/
inductive EofStep (s : Player) (a : PlayerAct) (s' : Player) : Prop where
  | tested (test : EofTest) (c : Channel) (ret stream_index flags : Int) : a = .demux ret stream_index flags →
      s.demux = .eofTest test → s.channel test.kind = some c → Player.eofQueueEmpty c test = true →
      s' = { s with demux := test.next } → EofStep s a s'
  | same : s'.demux = s.demux → EofStep s a s'
  | unseen : (∀ k, s'.demux.packetsSeen k = false) → EofStep s a s'

/-- Every step is one of the three. -/
theorem Player.eof_cases {s s' : Player} {a : PlayerAct} (h : s.PlayerStep a s') : EofStep s a s' := by
  cases h with
  | prepare h =>
    cases h with
    | createPlay => exact .unseen (fun k => by cases k <;> rfl)
    | _ => exact .same (by simp)
  | stopper h => cases h <;> exact .same (by simp)
  | ui h => cases h <;> exact .same rfl
  | channel => exact .same (by simp)
  | @demux ret stream_index flags _ h =>
    cases h with
    | eofEmpty test c hpc hc he => exact .tested test c ret stream_index flags rfl hpc hc he rfl
    | room k' => exact .unseen (fun k => by cases k <;> cases k' <;> rfl)
    | readFailed freed next _ hn => exact .unseen (fun k => by rcases hn with rfl | rfl <;> cases k <;> rfl)
    | stopped k' => exact .unseen (fun k => by cases k <;> cases k' <;> rfl)
    | stopChannel => exact .same (by simp)
    | nullChannel => exact .same rfl
    | _ => exact .unseen (fun k => by cases k <;> rfl)

/-- Past the first test of a channel, a step of the player leaves the channel alone or is a step of a thread of it. -/
theorem Player.seen_channel {s s' : Player} {a : PlayerAct} (hs : PlayerPhased s) (h : s.PlayerStep a s') {k : Kind}
    (hseen : s.demux.packetsSeen k = true) {c' : Channel} (hc' : s'.channel k = some c') :
    s.channel k = some c' ∨ ∃ c b, s.channel k = some c ∧ c.act b = some c' ∧ b.own = true := by
  have hl := DemuxPc.loops_of_packetsSeen hseen
  have hdone : s.prepare.done = true := hs.demux (by intro he; simp [he] at hl)
  rcases channel_change h hc' with hc | ⟨i, hpc, -, -⟩ | ⟨c, b, hc, hact, hcall⟩
  · exact Or.inl hc
  · simp [hpc] at hdone
  · refine Or.inr ⟨c, b, hc, hact, ?_⟩
    cases b with
    | start =>
      rw [show s.prepare = .start k.startPc from hcall] at hdone
      cases hdone
    | stop =>
      rw [show s.demux = k.stopPc from hcall] at hl
      cases k <;> cases hl
    | push packet =>
      rw [hcall.1] at hseen
      cases k <;> cases hseen
    | setAudioChannel channel =>
      rw [hcall.1] at hdone
      cases hdone
    | _ => rfl

namespace EofSeen

variable {s s' : Player}

/-- A test that is passed at rest has seen what it should. -/
theorem test_step (hs : EofSeen s) {test : EofTest} {c : Channel} {a : PlayerAct} {ret stream_index flags : Int}
    (ha : a = .demux ret stream_index flags) (hrest : testsAtRest s a = true) (hd : s.demux = .eofTest test)
    (hc : s.channel test.kind = some c) (he : Player.eofQueueEmpty c test = true) :
    EofSeen { s with demux := test.next } := by
  have hitems : ∀ {α : Type} {q : MessageQueue α}, q.empty = true → q.queue.items = [] := fun h => List.isEmpty_iff.mp h
  refine ⟨?_, ?_⟩
  · intro k d hch hseen
    have hch : s.channel k = some d := (Player.channel_congr rfl rfl k).symm.trans hch
    by_cases hold : s.demux.packetsSeen k = true
    · exact hs.packets k d hch hold
    · rw [hd] at hold
      have hkind : test.kind = k ∧ (test = .audioPackets ∨ test = .videoPackets) := by
        cases test <;> cases k <;> simp [EofTest.next, EofTest.kind] at hseen hold ⊢
      obtain ⟨rfl, htest⟩ := hkind
      obtain rfl := Option.some.inj (hc.symm.trans hch)
      rcases htest with rfl | rfl <;> exact hitems he
  · intro k d hch hseen
    have hch : s.channel k = some d := (Player.channel_congr rfl rfl k).symm.trans hch
    by_cases hold : s.demux.framesSeen k = true
    · exact hs.frames k d hch hold
    · rw [hd] at hold
      have hkind : test = k.framesTest := by
        cases test <;> cases k <;> simp [EofTest.next, Kind.framesTest] at hseen hold ⊢
      subst hkind
      have hk : k.framesTest.kind = k := by cases k <;> rfl
      rw [hk] at hc
      obtain rfl := Option.some.inj (hc.symm.trans hch)
      have hempty : c.frames.empty = true := by cases k <;> exact he
      have hhands : c.decode.holds = false ∧ c.output.holds = false := by
        rw [ha, testsAtRest, List.all_eq_true] at hrest
        have hk' := hrest k (by cases k <;> simp)
        simpa [hd, hc, hempty] using hk'
      have hpackets : c.packets.queue.items = [] := hs.packets k c hc (by rw [hd]; cases k <;> rfl)
      exact ⟨hpackets, hitems hempty, hhands.1, hhands.2⟩

/-- Every step that meets the condition keeps what was seen. -/
theorem step (hs : EofSeen s) (hph : PlayerPhased s)
    (hflow : s.demux.loops = true → ∀ k c, s.channel k = some c → Flowing c) {a : PlayerAct}
    (hrest : testsAtRest s a = true) (h : s.PlayerStep a s') : EofSeen s' := by
  cases Player.eof_cases h with
  | tested test c ret stream_index flags ha hd hc he hs' =>
    subst hs'
    exact hs.test_step ha hrest hd hc he
  | unseen hunseen =>
    refine ⟨fun k c _ hseen => ?_, fun k c _ hseen => ?_⟩
    · rw [hunseen] at hseen
      cases hseen
    · have hp := DemuxPc.packetsSeen_of_framesSeen hseen
      rw [hunseen] at hp
      cases hp
  | same hd =>
    refine ⟨?_, ?_⟩
    · intro k c' hc' hseen
      rw [hd] at hseen
      rcases Player.seen_channel hph h hseen hc' with hc | ⟨c, b, hc, hact, hown⟩
      · exact hs.packets k c' hc hseen
      · have hb : ∀ packet, b ≠ .push packet := by
          rintro packet rfl
          cases hown
        have hle := Channel.act_packets_size hb hact
        rw [MessageQueue.size, MessageQueue.size, hs.packets k c hc hseen] at hle
        exact List.length_eq_zero_iff.mp (Nat.le_zero.mp hle)
    · intro k c' hc' hseen
      rw [hd] at hseen
      have hp := DemuxPc.packetsSeen_of_framesSeen hseen
      rcases Player.seen_channel hph h hp hc' with hc | ⟨c, b, hc, hact, hown⟩
      · exact hs.frames k c' hc hseen
      · have hf := hflow (DemuxPc.loops_of_packetsSeen hp) k c hc
        exact (hs.frames k c hc hseen).step hf.notMissed hown hact

end EofSeen

/-! ## The end of the file -/

/-- No call fails, nobody stops the player, and the frames queues are seen empty at rest only. -/
def EndsAtRest (s : Player) (a : PlayerAct) : Prop := undisturbed s a = true ∧ testsAtRest s a = true

/-- While the demux thread is in its loop, the channels of a player whose codec calls succeed lose nothing. -/
theorem flowing_in_loop {streams : List AVMediaType} {s : Player}
    (h : ((Player.lts streams).restrict EndsAtRest).Reachable s) (hl : s.demux.loops = true) {k : Kind} {c : Channel}
    (hc : s.channel k = some c) : Flowing c := by
  have hcomponent := Player.component_restrict streams k (P := EndsAtRest) (Q := CodecSucceeds) (by
    rintro s s' a c b hP hc hcall ret rfl
    obtain rfl : a = .channel k (.decode ret) := hcall
    simpa [undisturbed, hc] using hP.1)
  refine flowing_of_reachable (hcomponent.reachable h c hc) ?_
  rw [(playerPhased_of_reachable h.of_restrict).running hl hc]
  rfl

/-- In every run in which no call fails, nobody calls `stop`, and each test that sees a frames queue empty is made at a moment
when neither thread of the channel has anything in hand, the end of the file loses nothing. -/
theorem eof_loses_nothing {streams : List AVMediaType} {s : Player}
    (h : ((Player.lts streams).restrict EndsAtRest).Reachable s) : EofLosesNothing s := by
  have hseen : EofSeen s := by
    induction h with
    | init hi =>
      obtain rfl := hi
      refine ⟨fun k c hc => ?_, fun k c hc => ?_⟩ <;> exact absurd ((Player.channel_new streams k).symm.trans hc) (by simp)
    | step hr hs ih =>
      obtain ⟨hP, hs⟩ := hs
      obtain ⟨-, -, hstep⟩ := Player.step_cases hs
      exact ih.step (playerPhased_of_reachable hr.of_restrict) (fun hl k c hc => flowing_in_loop hr hl hc) hP.2 hstep
  intro hd k c hc
  have hdrained := hseen.frames k c hc (by rw [hd]; cases k <;> rfl)
  have hflow := flowing_in_loop h (by rw [hd]; rfl) hc
  have hsent := sentInOrder_of_reachable ((Player.component streams k).reachable h.of_restrict c hc)
  have hrouted : c.packets.queue.accepted ++ s.demux.pending c.id = s.readsOf c.id :=
    routed_of_reachable h.of_restrict k c hc
  rw [hd, show (DemuxPc.leave .eof).pending c.id = [] from rfl, List.append_nil] at hrouted
  refine ⟨hdrained.decode, hdrained.output, ?_⟩
  rw [← hrouted]
  exact hdrained.finished_of_flowing hflow hsent

/-- The steps of a run after the scan in which the one audio packet is decoded and its frame output before the file ends. -/
def packetPlayedActs : List PlayerAct :=
  Player.startActs ++ Player.readActs 0 ++ List.replicate 9 (PlayerAct.channel .audio (.decode 0)) ++
  List.replicate 4 (PlayerAct.channel .audio (.output ⟨.eq, 1024, true⟩)) ++ List.replicate 3 (PlayerAct.demux 0 0 0) ++
  [PlayerAct.demux AVERROR_EOF 0 0] ++ List.replicate 4 (PlayerAct.demux 0 0 0)

/-- One packet was read, and its frame was output. -/
theorem eof_loses_nothing_one_packet : ∃ s c, ((Player.lts [.audio, .video]).restrict EndsAtRest).Reachable s ∧
    s.demux = .leave .eof ∧ s.channel .audio = some c ∧ s.reads = [⟨0, 0, 0⟩] ∧ c.finished = [⟨0, some ⟨0, 0, 0⟩⟩] ∧
    EofLosesNothing s := by
  have hrun : ((Lts.replayIf Player.step (fun s a => undisturbed s a && testsAtRest s a) (Player.prepared [.audio, .video])
      packetPlayedActs).bind fun s => (s.channel .audio).map fun c => (s.demux, s.reads, c.finished)) =
      some (.leave .eof, [⟨0, 0, 0⟩], [⟨0, some ⟨0, 0, 0⟩⟩]) := by decide +kernel
  obtain ⟨s, hs, hrun⟩ := Option.bind_eq_some_iff.mp hrun
  obtain ⟨c, hc, hrun⟩ := Option.map_eq_some_iff.mp hrun
  obtain ⟨hd, hrun⟩ := Prod.mk.inj hrun
  obtain ⟨hreads, hfinished⟩ := Prod.mk.inj hrun
  have hp : ((Player.lts [.audio, .video]).restrict EndsAtRest).Reachable (Player.prepared [.audio, .video]) :=
    Player.prepared_reachable (fun _ _ _ => ⟨rfl, rfl⟩)
  have hr := Lts.replayIf_reachable (P := EndsAtRest) (fun _ _ _ => id) (fun s a => by simp [EndsAtRest]) _ hp hs
  exact ⟨s, c, hr, hd, hc, hreads, hfinished, eof_loses_nothing hr⟩

end LibraLive

import LibraLive.Change
import LibraLive.Lemmas.PlayerRuns
import LibraLive.Lemmas.PlayerPhase

/-!
# What becomes of the packets of `init_start`

A packet that was read goes to a channel, one that was not is freed. A packet of a stream that belongs to neither channel falls
between the two.
-/

namespace LibraLive

/-- The packet that the demux thread has read and not passed on. -/
def DemuxPc.inHand : DemuxPc → List AVPacket
  | .route packet => [packet]
  | _ => []

namespace Player

variable {streams : List AVMediaType} {s s' : Player} {a : PlayerAct} {log : List (Kind × AVPacket)}

/-- What was passed to the packets queue of a channel between two states: what joined it, and what its `push` freed. -/
def passed (c c' : Channel) : List AVPacket :=
  Change.joined c.packets.queue.items c'.packets.queue.items ++ Change.joined c.freedPackets c'.freedPackets

/-- The same for the channel of a kind, if there is one. -/
def passedTo (s s' : Player) (k : Kind) : List (Kind × AVPacket) :=
  match s.channel k, s'.channel k with
  | some c, some c' => (passed c c').map (k, ·)
  | _, _ => []

/-- What a step of `init_start` passes to the queues of the channels. -/
def pushed (s : Player) (a : PlayerAct) (s' : Player) : List (Kind × AVPacket) :=
  match a with
  | .demux _ _ _ => s.passedTo s' .audio ++ s.passedTo s' .video
  | _ => []

/-- The packet that was read belongs to neither channel. -/
def unrouted (s : Player) (a : PlayerAct) : Bool :=
  match a, s.demux with
  | .demux _ _ _, .route packet =>
    s.audioChannel.all (fun c => packet.stream_index ≠ c.id) && s.videoChannel.all (fun c => packet.stream_index ≠ c.id)
  | _, _ => false

/-- How often the packet of an allocation was passed to `push` or freed by `init_start`. -/
def handed (s : Player) (log : List (Kind × AVPacket)) (n : Nat) : Nat :=
  log.countP (·.2.serial = n) + s.freedPackets.countP (·.serial = n)

/-- Every packet allocated was passed to one channel or freed, once, unless the thread has just read it. -/
def Accounted (s : Player) (log : List (Kind × AVPacket)) : Prop :=
  ∀ n < s.packetAllocs, n ∉ s.demux.inHand.map AVPacket.serial → s.handed log n = 1

/-! ## What a step does to the packets -/

/-- `packets.push` passes its packet to the queue, whether it joins it or is freed. -/
theorem passed_pushPacket (c : Channel) (packet : AVPacket) : passed c (c.pushPacket packet) = [packet] := by
  unfold passed Channel.pushPacket
  cases hstate : c.packets.state with
  | true => simp [MessageQueue.push_of_working hstate]
  | false => simp [MessageQueue.push_of_stopped hstate]

/-- No statement of `stop` passes anything. -/
theorem passed_stop {c c' : Channel} (h : c.act .stop = some c') : passed c c' = [] := by
  have hsame : c'.packets.queue = c.packets.queue ∧ c'.freedPackets = c.freedPackets := by
    cases LibraLive.stop_cases h with
    | setFlag _ hc | packetsGotoWork _ _ hc | framesGotoWork _ _ hc | createDecode _ hc | createOutput _ _ hc | clearFlag _ hc
    | packetsBackWork _ _ hc | framesBackWork _ _ hc | join _ _ hc | freeSwr _ _ hc | destroy _ _ hc =>
      subst hc
      exact ⟨rfl, rfl⟩
  simp [passed, hsame]

theorem passedTo_of_same {k : Kind} (h : s'.channel k = s.channel k) : s.passedTo s' k = [] := by
  unfold passedTo
  rw [h]
  cases s.channel k <;> simp [passed]

theorem passedTo_of_some {k : Kind} {c c' : Channel} (hc : s.channel k = some c) (hc' : s'.channel k = some c') :
    s.passedTo s' k = (passed c c').map (k, ·) := by
  unfold passedTo
  rw [hc, hc']

/-- A step that leaves the channels alone passes nothing. -/
theorem pushed_of_same (a : PlayerAct) (h : ∀ k, s'.channel k = s.channel k) : s.pushed a s' = [] := by
  unfold pushed
  split
  · rw [passedTo_of_same (h .audio), passedTo_of_same (h .video)]
    rfl
  · rfl

/-- One that changes one channel passes what that change passes. -/
theorem pushed_of_one {k : Kind} {c c' : Channel} {ret stream_index flags : Int} (hc : s.channel k = some c)
    (hc' : s'.channel k = some c') (hother : ∀ k', k' ≠ k → s'.channel k' = s.channel k') :
    s.pushed (.demux ret stream_index flags) s' = (passed c c').map (k, ·) := by
  unfold pushed
  cases k with
  | audio => rw [passedTo_of_some hc hc', passedTo_of_same (hother .video (by simp)), List.append_nil]
  | video => rw [passedTo_of_some hc hc', passedTo_of_same (hother .audio (by simp)), List.nil_append]

/-- A packet of a channel is routed. -/
theorem unrouted_eq_false {k : Kind} {c : Channel} {packet : AVPacket} {ret stream_index flags : Int} (hd : s.demux = .route packet)
    (hc : s.channel k = some c) (hid : packet.stream_index = c.id) : s.unrouted (.demux ret stream_index flags) = false := by
  unfold unrouted
  rw [hd]
  cases k with
  | audio =>
    have hc : s.audioChannel = some c := hc
    simp [hc, hid]
  | video =>
    have hc : s.videoChannel = some c := hc
    simp [hc, hid]

/-- A packet of no channel is not. -/
theorem unrouted_eq_true {packet : AVPacket} {ret stream_index flags : Int} (hd : s.demux = .route packet)
    (hnone : ∀ k c, s.channel k = some c → packet.stream_index ≠ c.id) : s.unrouted (.demux ret stream_index flags) = true := by
  unfold unrouted
  rw [hd]
  simp only [ne_eq, decide_not, Bool.and_eq_true, Option.all_eq_true, Bool.not_eq_eq_eq_not, Bool.not_true, decide_eq_false_iff_not]
  exact ⟨hnone .audio, hnone .video⟩

/-- Nothing is dropped where nothing is in hand. -/
theorem unrouted_of_none (h : s.demux.inHand = []) (a : PlayerAct) : s.unrouted a = false := by
  unfold unrouted
  split
  case h_1 packet hd =>
    rw [hd] at h
    cases h
  case h_2 => rfl

/-- A step passes no packet on, reads one, frees one that could not be read, passes the one it has read to a queue, or drops
it. -/
inductive PacketStep (s : Player) (a : PlayerAct) (s' : Player) : Prop where
  | quiet : s'.demux.inHand = s.demux.inHand → s'.freedPackets = s.freedPackets → s'.packetAllocs = s.packetAllocs →
      s.pushed a s' = [] → s.unrouted a = false → PacketStep s a s'
  | read (packet : AVPacket) : packet.serial = s.packetAllocs → s.demux.inHand = [] → s'.demux.inHand = [packet] →
      s'.freedPackets = s.freedPackets → s'.packetAllocs = s.packetAllocs + 1 → s.pushed a s' = [] → PacketStep s a s'
  | failed (packet : AVPacket) : packet.serial = s.packetAllocs → s.demux.inHand = [] → s'.demux.inHand = [] →
      s'.freedPackets = s.freedPackets ++ [packet] → s'.packetAllocs = s.packetAllocs + 1 → s.pushed a s' = [] →
      PacketStep s a s'
  | route (packet : AVPacket) (k : Kind) : s.demux.inHand = [packet] → s'.demux.inHand = [] →
      s'.freedPackets = s.freedPackets → s'.packetAllocs = s.packetAllocs → s.pushed a s' = [(k, packet)] →
      s.unrouted a = false → PacketStep s a s'
  | drop (packet : AVPacket) : s.demux.inHand = [packet] → s'.demux.inHand = [] → s'.freedPackets = s.freedPackets →
      s'.packetAllocs = s.packetAllocs → s.pushed a s' = [] → s.unrouted a = true → PacketStep s a s'

/-- A step of the demux thread is a step of `init_start`. -/
theorem step_demux {ret stream_index flags : Int} (h : s.step (.demux ret stream_index flags) = some s') :
    s.initStart ret stream_index flags = some s' := by
  unfold step at h
  split at h
  · cases h
  · split at h
    · cases h
    · exact h

theorem packet_cases_demux {ret stream_index flags : Int} (h : s.initStart ret stream_index flags = some s') :
    PacketStep s (.demux ret stream_index flags) s' := by
  have hquiet : s.demux.inHand = [] → s'.demux.inHand = [] → s'.freedPackets = s.freedPackets →
      s'.packetAllocs = s.packetAllocs → s.pushed (.demux ret stream_index flags) s' = [] →
        PacketStep s (.demux ret stream_index flags) s' :=
    fun hd hd' hf ha hp => .quiet (hd'.trans hd.symm) hf ha hp (unrouted_of_none hd _)
  by_cases hread : s.demux = .readFrame
  · have hnone : s.demux.inHand = [] := by rw [hread]; rfl
    have hpushed : s.pushed (.demux ret stream_index flags) s' = [] := by
      refine pushed_of_same _ (channel_congr ?_ ?_) <;> unfold initStart at h <;> rw [hread] at h <;>
        dsimp only at h <;> split at h <;> cases h <;> rfl
    unfold initStart at h
    rw [hread] at h
    dsimp only at h
    split at h
    · cases h
      exact .read ⟨s.packetAllocs, stream_index, flags⟩ rfl hnone rfl rfl rfl hpushed
    · cases h
      refine .failed ⟨s.packetAllocs, 0, 0⟩ rfl hnone ?_ rfl rfl hpushed
      dsimp only
      split <;> rfl
  · cases initStart_cases h with
    | read _ hd | readFailed _ _ hd => exact absurd hd hread
    | routeTo k packet c hd hc hid =>
      have hpushed : s.pushed (.demux ret stream_index flags)
          { s.setChannel k (some (c.pushPacket packet)) with demux := .whileTest } = (passed c (c.pushPacket packet)).map (k, ·) :=
        pushed_of_one hc (channel_of_setChannel rfl rfl) fun k' hk => channel_setChannel_of_ne s (some (c.pushPacket packet)) hk
      rw [passed_pushPacket] at hpushed
      exact .route packet k (by rw [hd]; rfl) rfl (by simp) (by simp) hpushed (unrouted_eq_false hd hc hid)
    | routeNowhere packet hd hnone =>
      exact .drop packet (by rw [hd]; rfl) rfl rfl rfl (pushed_of_same _ fun _ => rfl) (unrouted_eq_true hd hnone)
    | stopChannel k c c' hd hc hstop =>
      have hnone : s.demux.inHand = [] := by rw [hd]; cases k <;> rfl
      have hpushed : s.pushed (.demux ret stream_index flags) (s.setChannel k (some c')) = (passed c c').map (k, ·) :=
        pushed_of_one hc (channel_setChannel s k _) fun k' hk => channel_setChannel_of_ne s (some c') hk
      rw [passed_stop hstop] at hpushed
      exact hquiet hnone (by rw [demux_setChannel, hnone]) (by simp) (by simp) hpushed
    | nullChannel k hd =>
      have hnone : s.demux.inHand = [] := by
        rcases hd with hd | ⟨test, hd, -⟩
        · rw [hd]
          cases k <;> rfl
        · rw [hd]
          rfl
      exact hquiet hnone hnone rfl rfl (pushed_of_same _ fun _ => rfl)
    | room k hd | stopped k _ hd =>
      exact hquiet (by rw [hd]; cases k <;> rfl) (by cases k <;> rfl) rfl rfl (pushed_of_same _ fun _ => rfl)
    | throttle k _ hd => exact hquiet (by rw [hd]; cases k <;> rfl) rfl rfl rfl (pushed_of_same _ fun _ => rfl)
    | eofEmpty test _ hd =>
      exact hquiet (by rw [hd]; rfl) (by cases test <;> rfl) rfl rfl (pushed_of_same _ fun _ => rfl)
    | continue_ hd | quit hd | retry _ hd | eofBusy _ _ hd | leave _ hd =>
      exact hquiet (by rw [hd]; rfl) rfl rfl rfl (pushed_of_same _ fun _ => rfl)

theorem packet_cases (hs : PlayerPhased s) (h : s.step a = some s') : PacketStep s a s' := by
  obtain ⟨-, -, hstep⟩ := step_cases h
  cases hstep with
  | demux => exact packet_cases_demux (step_demux h)
  | prepare hprepare =>
    cases hprepare with
    | createPlay hpc =>
      refine .quiet ?_ rfl rfl rfl rfl
      rw [hs.notCreated (by simp [hpc])]
      rfl
    | _ => exact .quiet (by simp) (by simp) (by simp) rfl rfl
  | stopper hstopper => cases hstopper <;> exact .quiet (by simp) (by simp) (by simp) rfl rfl
  | ui hui => cases hui <;> exact .quiet rfl rfl rfl rfl rfl
  | channel => exact .quiet (by simp) (by simp) (by simp) rfl rfl

/-! ## The ledger -/

/-- How often a packet is in hand. -/
def held (s : Player) (n : Nat) : Nat := s.demux.inHand.countP (·.serial = n)

/-- How often the step leaves a packet to nobody. -/
def dropped (s : Player) (a : PlayerAct) (n : Nat) : Nat := if s.unrouted a then s.held n else 0

/-- What is in hand or handed on grows by the packet that is allocated, and shrinks by the one that is dropped. -/
theorem handed_step (hs : PlayerPhased s) (h : s.step a = some s') (log : List (Kind × AVPacket)) (n : Nat) :
    s'.handed (log ++ s.pushed a s') n + s'.held n + s.dropped a n + (if n < s.packetAllocs then 1 else 0) =
      s.handed log n + s.held n + if n < s'.packetAllocs then 1 else 0 := by
  have hnew : ∀ serial, serial = s.packetAllocs →
      (if serial = n then 1 else 0) + (if n < s.packetAllocs then 1 else 0) = if n < s.packetAllocs + 1 then 1 else 0 := by
    rintro serial rfl
    split_ifs <;> omega
  unfold handed dropped held
  cases packet_cases hs h with
  | quiet hhand hfreed hallocs hpushed hrouted =>
    rw [hhand, hfreed, hallocs, hpushed, hrouted, List.append_nil]
    simp
  | read packet hserial hhand hhand' hfreed hallocs hpushed =>
    have hadd := hnew packet.serial hserial
    rw [hhand, hhand', hfreed, hallocs, hpushed, List.append_nil, List.countP_singleton]
    simp only [List.countP_nil, ite_self, decide_eq_true_eq]
    omega
  | failed packet hserial hhand hhand' hfreed hallocs hpushed =>
    have hadd := hnew packet.serial hserial
    rw [hhand, hhand', hfreed, hallocs, hpushed, List.append_nil, List.countP_append, List.countP_singleton]
    simp only [List.countP_nil, ite_self, decide_eq_true_eq]
    omega
  | route packet k hhand hhand' hfreed hallocs hpushed hrouted =>
    rw [hhand, hhand', hfreed, hallocs, hpushed, hrouted, List.countP_append, List.countP_singleton, List.countP_singleton,
      List.countP_nil]
    simp only [Bool.false_eq_true, if_false, decide_eq_true_eq]
    omega
  | drop packet hhand hhand' hfreed hallocs hpushed hunrouted =>
    rw [hhand, hhand', hfreed, hallocs, hpushed, hunrouted, List.append_nil]
    simp

/-- A packet is in hand or was handed on once at most, in any run, and not before it is allocated. -/
theorem handed_le {t : Player × List (Kind × AVPacket)} (h : ((lts streams).observe pushed).Reachable t) (n : Nat) :
    t.1.handed t.2 n + t.1.held n ≤ if n < t.1.packetAllocs then 1 else 0 := by
  refine Lts.Reachable.invariant ?_ ?_ h
  · rintro ⟨s, log⟩ ⟨rfl, rfl⟩
    exact Nat.zero_le _
  · rintro ⟨s, log⟩ a ⟨s', log'⟩ hr hI ⟨hstep, hlog⟩
    dsimp only at hlog
    subst hlog
    have heq := handed_step (playerPhased_of_reachable hr.of_observe) hstep log n
    dsimp only at hI heq ⊢
    omega

/-- It is in hand or was handed on exactly once, if no packet was dropped. -/
theorem handed_eq {t : Player × List (Kind × AVPacket)}
    (h : (((lts streams).restrict fun s a => s.unrouted a = false).observe pushed).Reachable t) (n : Nat) :
    t.1.handed t.2 n + t.1.held n = if n < t.1.packetAllocs then 1 else 0 := by
  refine Lts.Reachable.invariant ?_ ?_ h
  · rintro ⟨s, log⟩ ⟨rfl, rfl⟩
    rfl
  · rintro ⟨s, log⟩ a ⟨s', log'⟩ hr hI ⟨⟨hrouted, hstep⟩, hlog⟩
    dsimp only at hlog
    subst hlog
    have heq := handed_step (playerPhased_of_reachable hr.of_observe.of_restrict) hstep log n
    rw [dropped, hrouted, if_neg Bool.false_ne_true] at heq
    dsimp only at hI heq ⊢
    omega

/-- Every packet is passed to one channel or freed, once, in every run in which every packet read belongs to a channel. -/
theorem packets_accounted {t : Player × List (Kind × AVPacket)}
    (h : (((lts streams).restrict fun s a => s.unrouted a = false).observe pushed).Reachable t) : Accounted t.1 t.2 := by
  intro n hn hhand
  have hheld : t.1.held n = 0 := by
    rw [held, List.countP_eq_zero]
    intro packet hmem hserial
    exact hhand (List.mem_map.mpr ⟨packet, hmem, of_decide_eq_true hserial⟩)
  have heq := handed_eq h n
  rw [hheld, if_pos hn] at heq
  exact heq

/-- Whenever a packet is dropped it stays unaccounted for. -/
theorem packet_lost {s s' : Player} {log : List (Kind × AVPacket)} (h : ((lts streams).observe pushed).Reachable (s, log))
    (hunrouted : s.unrouted a = true) (hs : s.step a = some s') : ¬ Accounted s' (log ++ s.pushed a s') := by
  obtain ⟨packet, hhand⟩ : ∃ packet, s.demux.inHand = [packet] := by
    unfold unrouted at hunrouted
    split at hunrouted
    case h_1 packet hd =>
      rw [hd]
      exact ⟨packet, rfl⟩
    case h_2 => cases hunrouted
  have hheld : s.held packet.serial = 1 := by
    rw [held, hhand, List.countP_singleton, if_pos (by simp)]
  have hle : s.handed log packet.serial + s.held packet.serial ≤ if packet.serial < s.packetAllocs then 1 else 0 :=
    handed_le h packet.serial
  have hphased : PlayerPhased s := playerPhased_of_reachable h.of_observe
  have hstep := handed_step hphased hs log packet.serial
  rw [dropped, if_pos hunrouted] at hstep
  -- it was handed to nobody before the step, and it is not in hand any more
  have hnone : s'.handed (log ++ s.pushed a s') packet.serial = 0 ∧ s'.held packet.serial = 0 ∧
      packet.serial < s'.packetAllocs := by
    split_ifs at hle hstep <;> omega
  intro haccounted
  have hgone : packet.serial ∉ s'.demux.inHand.map AVPacket.serial := by
    intro hmem
    obtain ⟨other, hother, hserial⟩ := List.mem_map.mp hmem
    exact List.countP_eq_zero.mp hnone.2.1 other hother (decide_eq_true hserial)
  have hone := haccounted packet.serial hnone.2.2 hgone
  rw [hnone.1] at hone
  cases hone

/-- A packet of a third stream is read. -/
theorem third_stream : ¬ ∀ (streams : List AVMediaType) (t : Player × List (Kind × AVPacket)),
    ((lts streams).observe pushed).Reachable t → Accounted t.1 t.2 := by
  intro hall
  have hrun : (Lts.replay step (prepared [.audio, .video]) (startActs ++ (readActs 2).take 4)).map
      (fun s => (s.unrouted (.demux 0 0 0), (s.step (.demux 0 0 0)).isSome)) = some (true, true) := rfl
  obtain ⟨s, hs, hstate⟩ := Option.map_eq_some_iff.mp hrun
  simp only [Prod.mk.injEq] at hstate
  obtain ⟨s', hs'⟩ := Option.isSome_iff_exists.mp hstate.2
  obtain ⟨log, hr⟩ := (reachable_of_prepared hs).observed pushed
  have hr' : ((lts [.audio, .video]).observe pushed).Reachable (s', log ++ s.pushed (.demux 0 0 0) s') := hr.step ⟨hs', rfl⟩
  exact packet_lost hr hstate.1 hs' (hall _ _ hr')

/-- One packet of either stream, and a read that fails. -/
theorem packets_accounted_example : ∃ t : Player × List (Kind × AVPacket),
    (((lts [.audio, .video]).restrict fun s a => s.unrouted a = false).observe pushed).Reachable t ∧
      t.1.packetAllocs = 3 ∧ t.1.demux = .leave .error ∧ Accounted t.1 t.2 := by
  have hrun : (Lts.replayIf step (fun s a => !s.unrouted a) (prepared [.audio, .video])
      (startActs ++ readActs 0 ++ readActs 1 ++ List.replicate 4 (PlayerAct.demux (-5) 0 0))).map
        (fun s => (s.packetAllocs, s.demux)) = some (3, .leave .error) := rfl
  obtain ⟨s, hs, hstate⟩ := Option.map_eq_some_iff.mp hrun
  have hr : ((lts [.audio, .video]).restrict fun s a => s.unrouted a = false).Reachable s :=
    Lts.replayIf_reachable (fun _ _ _ => id) (fun _ _ h => by simpa using h) _
      (prepared_reachable fun _ _ _ => rfl) hs
  obtain ⟨log, hlog⟩ := hr.observed pushed
  exact ⟨(s, log), hlog, congrArg Prod.fst hstate, congrArg Prod.snd hstate, packets_accounted hlog⟩

end Player

end LibraLive

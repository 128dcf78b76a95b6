import LibraLive.Lemmas.PlayerPhase
import LibraLive.Lemmas.PlayerRuns

/-!
# Buffering is bounded

Each queue has one producer, and that producer looks at the queue's size before it produces. Between the look and the push
only consumers touch the queue, so the bound the look found still holds at the push (`FramesBounded`, `PacketsBounded`), and
the push makes it one more.
-/

namespace LibraLive

/-- Inside `packets.pop`. -/
def DecodePc.pops : DecodePc → Bool
  | .pop _ => true
  | _ => false

/-- Between `packets.pop` and the push of the frame: the size check is behind the thread. -/
def DecodePc.admitted : DecodePc → Bool
  | .sendPacket | .receiveFrame _ | .addFrame | .getFrame | .push _ => true
  | _ => false

attribute [simp] DecodePc.pops DecodePc.admitted

@[simp] theorem DecodePc.pops_signalled (pc : DecodePc) : pc.signalled.pops = pc.pops := by
  cases pc <;> rfl

@[simp] theorem DecodePc.admitted_signalled (pc : DecodePc) : pc.signalled.admitted = pc.admitted := by
  cases pc <;> rfl

/-- The frames queue of a channel is bounded, and more tightly so while the decode thread is on its way to a push. -/
structure FramesBounded (c : Channel) : Prop where
  size : c.frames.size ≤ 101
  popping : c.decode.pops = true → c.isPlaying = true → c.frames.size ≤ 100
  admitted : c.decode.admitted = true → c.frames.size ≤ 100

/-! ## Frames -/

/-- For a thread that is between two packets, or has left, there is nothing to bound but the size. -/
theorem FramesBounded.of_idle {c : Channel} (h : c.frames.size ≤ 101) (hp : c.decode.pops = false)
    (ha : c.decode.admitted = false) : FramesBounded c := by
  refine ⟨h, ?_, ?_⟩
  · intro hp'
    rw [hp] at hp'
    cases hp'
  · intro ha'
    rw [ha] at ha'
    cases ha'

/-- A decoding thread was admitted. -/
theorem DecodePc.admitted_of_decoding {pc : DecodePc} (h : pc.decoding = true) : pc.admitted = true := by
  cases pc <;> simp at h ⊢

/-- The decode thread pushes only what its size check admitted. -/
theorem FramesBounded.decode_step {c c' : Channel} {ret : Int} (hc : FramesBounded c)
    (h : c.act (.decode ret) = some c') : FramesBounded c' := by
  obtain ⟨hk, hs⟩ := decode_cases h
  have hsize : c.frames.size ≤ 101 := hc.size
  cases hs with
  | test _ hd _ hf _ _ =>
    refine FramesBounded.of_idle (by rwa [hf]) ?_ ?_ <;> cases hpc : c'.decode <;> simp [hpc] at hd ⊢
  | check _ h100 hd _ hf _ _ =>
    refine ⟨by rwa [hf], ?_, by simp [hd]⟩
    intro _ hp
    rw [hf]
    exact h100 (hk.isPlaying.symm.trans hp)
  | quit _ _ hd _ hf _ _ => exact FramesBounded.of_idle (by rwa [hf]) (by simp [hd]) (by simp [hd])
  | pop hd hc' =>
    subst hc'
    have hpops : c.decode.pops = true := by rcases hd with hd | hd <;> simp [hd]
    exact ⟨hsize, fun _ hp => hc.popping hpops hp, by simp [Channel.decodePop]⟩
  | miss _ _ hd _ hf _ _ => exact FramesBounded.of_idle (by rwa [hf]) (by simp [hd]) (by simp [hd])
  | take hd hp hd' _ _ hf _ _ =>
    -- the flag was set after `packets.pop` returned, so it was set when the size was checked
    have h100 : c.frames.size ≤ 100 := hc.popping (by simp [hd]) hp
    refine ⟨by rwa [hf], by simp [hd'], ?_⟩
    intro _
    rwa [hf]
  | send packet hd _ _ hd' _ hf _ _ =>
    have h100 : c.frames.size ≤ 100 := hc.admitted (by simp [hd])
    refine ⟨by rwa [hf], by simp [hd'], ?_⟩
    intro _
    rwa [hf]
  | sendFailed packet _ _ _ hd _ hf _ _ => exact FramesBounded.of_idle (by rwa [hf]) (by simp [hd]) (by simp [hd])
  | noFrame packet _ _ hd _ hf _ _ =>
    refine FramesBounded.of_idle (by rwa [hf]) ?_ ?_ <;> rw [hd] <;> split <;> rfl
  | decode hd hd' _ _ hf _ _ =>
    have h100 : c.frames.size ≤ 100 := hc.admitted (DecodePc.admitted_of_decoding hd)
    refine ⟨by rwa [hf], ?_, ?_⟩
    · intro hp
      cases hpc : c'.decode <;> simp [hpc] at hd' hp
    · intro _
      rwa [hf]
  | push frame hd hd' _ hf _ _ =>
    have h100 : c.frames.size ≤ 100 := hc.admitted (by simp [hd])
    have hpush : c'.frames.size ≤ c.frames.size + 1 := by
      rw [hf]
      exact MessageQueue.size_push_le c.frames frame
    exact FramesBounded.of_idle (by omega) (by simp [hd']) (by simp [hd'])
  | leave _ hd _ hf _ _ => exact FramesBounded.of_idle (by rwa [hf]) (by simp [hd]) (by simp [hd])

/-- An output thread only takes frames off. -/
theorem OutputStep.frames_size_le {c c' : Channel} (h : OutputStep c c') : c'.frames.size ≤ c.frames.size := by
  cases h with
  | pop _ hc' =>
    subst hc'
    exact MessageQueue.size_popSection_le c.frames
  | sync _ hc' =>
    subst hc'
    simp [Channel.framesSync, MessageQueue.sync, MessageQueue.size, items_dropAvFrame]
  | crash _ _ hc' =>
    subst hc'
    exact Nat.le_refl _
  | idle _ _ _ _ _ hf | quit _ _ _ _ _ hf | miss _ _ _ _ _ hf | take _ _ _ _ _ hf | onTime _ _ _ _ hf
  | finish _ _ _ _ _ hf => rw [hf]

/-- A step after which the queue is no longer, the thread is where it was and the flag is not newly set. -/
theorem FramesBounded.of_le {c c' : Channel} (hc : FramesBounded c) (hsize : c'.frames.size ≤ c.frames.size)
    (hp : c'.decode.pops = c.decode.pops) (ha : c'.decode.admitted = c.decode.admitted)
    (hflag : c.decode.pops = true → c'.isPlaying = true → c.isPlaying = true) : FramesBounded c' := by
  have h101 := hc.size
  refine ⟨by omega, ?_, ?_⟩
  · intro hpop hplay
    rw [hp] at hpop
    have := hc.popping hpop (hflag hpop hplay)
    omega
  · intro hadm
    rw [ha] at hadm
    have := hc.admitted hadm
    omega

/-- The statements of `start` and `stop` move no frames; the flag is set before there is a decode thread. -/
theorem FramesBounded.ctl_step {c c' : Channel} (hc : FramesBounded c) (hph : Phased c) (h : CtlStep c c') :
    FramesBounded c' := by
  cases h with
  | setFlag hctl hc' =>
    subst hc'
    refine hc.of_le (Nat.le_refl _) rfl rfl ?_
    intro hpop
    have hne : c.decode ≠ .notCreated := by
      intro he
      simp [he] at hpop
    have := hph.decode.mp hne
    simp [hctl] at this
  | packetsGotoWork _ _ hc' | packetsBackWork _ _ hc' =>
    subst hc'
    exact hc.of_le (Nat.le_refl _) (DecodePc.pops_signalled _) (DecodePc.admitted_signalled _) (fun _ => id)
  | framesGotoWork _ _ hc' | framesBackWork _ _ hc' | createOutput _ _ hc' | join _ _ hc' | freeSwr _ _ hc'
  | destroy _ _ hc' =>
    subst hc'
    exact hc.of_le (Nat.le_refl _) rfl rfl (fun _ => id)
  | createDecode _ hc' =>
    subst hc'
    exact FramesBounded.of_idle hc.size rfl rfl
  | clearFlag _ hc' =>
    subst hc'
    exact hc.of_le (Nat.le_refl _) rfl rfl (by simp)

/-- Every step of a channel keeps its frames queue bounded. -/
theorem FramesBounded.step {c c' : Channel} {b : ChannelAct} (hc : FramesBounded c) (hph : Phased c)
    (h : c.act b = some c') : FramesBounded c' := by
  cases b with
  | decode ret => exact hc.decode_step h
  | output i =>
    obtain ⟨hk, hs⟩ := output_cases h
    refine hc.of_le hs.frames_size_le (by rw [hk.decode]) (by rw [hk.decode]) ?_
    intro _ hp
    rcases hs.isPlaying with he | ⟨-, he⟩
    · rwa [he] at hp
    · rw [he] at hp
      cases hp
  | start => exact hc.ctl_step hph (start_cases h).1
  | stop => exact hc.ctl_step hph (stop_cases h)
  | wakeDecode =>
    simp only [Channel.act, Option.ite_none_right_eq_some, Option.some.injEq] at h
    obtain ⟨hd, rfl⟩ := h
    exact hc.of_le (Nat.le_refl _) (by simp [hd]) (by simp [hd]) (fun _ => id)
  | wakeOutput | playReturn | setAudioChannel channel =>
    simp only [Channel.act, Option.ite_none_right_eq_some, Option.some.injEq] at h
    obtain ⟨-, rfl⟩ := h
    exact hc.of_le (Nat.le_refl _) rfl rfl (fun _ => id)
  | push packet =>
    simp only [Channel.act, Option.some.injEq] at h
    subst h
    refine hc.of_le (Nat.le_refl _) ?_ ?_ (fun _ => id) <;> dsimp only [Channel.pushPacket] <;> split
    · exact DecodePc.pops_signalled _
    · rfl
    · exact DecodePc.admitted_signalled _
    · rfl

/-- Every channel a run reaches has a bounded frames queue. -/
theorem framesBounded_of_reachable {kind : Kind} {c : Channel} (h : (Channel.lts kind).Reachable c) :
    FramesBounded c := by
  refine Lts.Reachable.invariant ?_ ?_ h
  · rintro c ⟨id, rfl⟩
    exact FramesBounded.of_idle (Nat.zero_le _) rfl rfl
  · intro c b c' hr hc hs
    exact hc.step (phased_of_reachable hr) (Channel.step_eq_some.mp hs).2

/-! ## Packets -/

/-- The demux thread is past the size test of the channel's packets queue, on its way to a push. -/
def DemuxPc.checked : Kind → DemuxPc → Bool
  | .audio, .videoSize | _, .readFrame | _, .route _ => true
  | _, _ => false

attribute [simp] DemuxPc.checked

/-- The packets queues are bounded, and more tightly so while the demux thread is on its way to a push. -/
def PacketsBounded (s : Player) : Prop :=
  ∀ k c, s.channel k = some c → c.packets.size ≤ if s.demux.checked k then 100 else 101

/-- Only a push makes the packets queue of a channel longer. -/
theorem Channel.act_packets_size {c c' : Channel} {b : ChannelAct} (hb : ∀ packet, b ≠ .push packet)
    (h : c.act b = some c') : c'.packets.size ≤ c.packets.size := by
  have hpop := MessageQueue.size_popSection_le c.packets
  unfold MessageQueue.size at hpop ⊢
  rcases Channel.act_packets hb h with hqueue | hqueue
  · exact Nat.le_of_eq (by rw [hqueue])
  · rwa [hqueue]

/-- The demux thread passes a size test only if there is room. -/
theorem Player.checked_step {s s' : Player} {a : PlayerAct} (h : s.PlayerStep a s') {k : Kind}
    (hch : s'.demux.checked k = true) :
    s.demux.checked k = true ∨ ∀ c, s.channel k = some c → c.packets.size ≤ 100 := by
  cases h with
  | prepare h =>
    cases h with
    | createPlay => cases k <;> cases hch
    | _ => exact Or.inl (by simpa using hch)
  | stopper h => cases h <;> exact Or.inl (by simpa using hch)
  | ui h => cases h <;> exact Or.inl hch
  | channel => exact Or.inl (by simpa using hch)
  | demux h =>
    cases h with
    | room k' hpc hroom =>
      cases k' with
      | audio =>
        cases k with
        | audio => exact Or.inr hroom
        | video => cases hch
      | video =>
        cases k with
        | audio => exact Or.inl (by simp [hpc, Kind.sizePc])
        | video => exact Or.inr hroom
    | read packet hpc => exact Or.inl (by cases k <;> simp [hpc])
    | readFailed freed next _ hn => rcases hn with rfl | rfl <;> cases k <;> cases hch
    | stopped k' _ _ _ _ => cases k <;> cases k' <;> cases hch
    | stopChannel k' _ _ _ _ _ => exact Or.inl (by simpa using hch)
    | eofEmpty test _ _ _ _ => cases k <;> cases test <;> cases hch
    | nullChannel => exact Or.inl hch
    | _ => cases k <;> cases hch

/-- Every step of the player keeps the packets queues bounded. -/
theorem PacketsBounded.step {s s' : Player} {a : PlayerAct} (hs : PacketsBounded s) (h : s.PlayerStep a s') :
    PacketsBounded s' := by
  intro k c' hc'
  -- what holds of the channel before the step, given where the demux thread is after it
  have hold : ∀ c, s.channel k = some c → c.packets.size ≤ if s'.demux.checked k then 100 else 101 := by
    intro c hc
    have hbound := hs k c hc
    by_cases hch : s'.demux.checked k = true
    · rw [if_pos hch]
      rcases Player.checked_step h hch with h' | h'
      · rwa [if_pos h'] at hbound
      · exact h' c hc
    · rw [if_neg hch]
      split at hbound <;> omega
  rcases Player.channel_change h hc' with hc | ⟨i, -, -, rfl⟩ | ⟨c, b, hc, hact, hcall⟩
  · exact hold c' hc
  · exact Nat.zero_le _
  · by_cases hb : ∃ packet, b = .push packet
    · obtain ⟨packet, rfl⟩ := hb
      obtain ⟨hd, -, hd'⟩ := hcall
      have hbound := hs k c hc
      rw [if_pos (by cases k <;> simp [hd])] at hbound
      rw [hd', if_neg (by cases k <;> simp)]
      obtain rfl := Option.some.inj hact
      have hpush : (c.pushPacket packet).packets.size ≤ c.packets.size + 1 := MessageQueue.size_push_le c.packets packet
      omega
    · rw [not_exists] at hb
      exact (Channel.act_packets_size hb hact).trans (hold c hc)

/-- Every player a run reaches has bounded packets queues. -/
theorem packetsBounded_of_reachable {streams : List AVMediaType} {s : Player} (h : (Player.lts streams).Reachable s) :
    PacketsBounded s := by
  refine Lts.Reachable.invariant ?_ ?_ h
  · rintro s rfl k c hc
    rw [Player.channel_new] at hc
    cases hc
  · intro s a s' _ hs hstep
    obtain ⟨-, -, hstep⟩ := Player.step_cases hstep
    exact hs.step hstep

/-- Bounded buffering: in every state of every run of a player, with any source, any results of the codec, filter and read
calls and any interleaving of its threads and of `stop`, each of the four queues holds at most 101 elements. -/
theorem queues_bounded {streams : List AVMediaType} {s : Player} (h : (Player.lts streams).Reachable s) {k : Kind}
    {c : Channel} (hc : s.channel k = some c) : c.packets.size ≤ 101 ∧ c.frames.size ≤ 101 := by
  have hp := packetsBounded_of_reachable h k c hc
  have hf := framesBounded_of_reachable ((Player.component streams k).reachable h c hc)
  refine ⟨?_, hf.size⟩
  split at hp <;> omega

/-- The bounds after one packet of the first of two streams was read. -/
theorem queues_bounded_one_packet : ∃ s c, (Player.lts [.audio, .video]).Reachable s ∧ s.channel .audio = some c ∧
    c.packets.size = 1 ∧ c.packets.size ≤ 101 ∧ c.frames.size ≤ 101 := by
  have hrun : ((Lts.replay Player.step (Player.prepared [.audio, .video])
      (Player.startActs ++ Player.readActs 0)).bind fun s => (s.channel .audio).map (·.packets.size)) = some 1 := rfl
  obtain ⟨s, hs, hrun⟩ := Option.bind_eq_some_iff.mp hrun
  obtain ⟨c, hc, hsize⟩ := Option.map_eq_some_iff.mp hrun
  have hr := Player.reachable_of_prepared hs
  exact ⟨s, c, hr, hc, hsize, queues_bounded hr hc⟩

end LibraLive

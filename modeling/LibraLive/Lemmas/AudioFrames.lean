import LibraLive.Lemmas.ChannelPhase

/-!
# The frames of an audio channel

Every frame an audio channel allocates is in one place at a time: with the decode thread, in the frames queue, with the output
thread, or freed (`FramesOwned`). A step moves frames between these places, or allocates one under a new serial
(`owned_step`), so no frame is in two of them, and none is freed twice. What the output thread took off the queue is in its
hand or freed, and it has a frame in its hand exactly when it is going to release it.
-/

namespace LibraLive

/-- The frame the decode thread is about to push. -/
def DecodePc.hand : DecodePc → List AVFrame
  | .push frame => [frame]
  | _ => []

/-- The frames of a channel, place by place. -/
def Channel.heldFrames (c : Channel) : List AVFrame :=
  c.frame.toList ++ c.decode.hand ++ c.frames.queue.items ++ c.outFrame.toList ++ c.freedFrames

/-- How many places hold a frame of a serial. -/
def Channel.owned (c : Channel) (serial : Nat) : Nat := (c.heldFrames.map AVFrame.serial).count serial

/-- How many frames of a serial were allocated. -/
def Channel.allocated (c : Channel) (serial : Nat) : Nat := if serial < c.frameAllocs then 1 else 0

/-- The output thread is about to test the result of `pop`, or to use the frame, and has one. -/
def OutputPc.hasFrame : OutputPc → Bool
  | .pop (.returned true) | .convert => true
  | _ => false

attribute [simp] DecodePc.hand OutputPc.hasFrame

/-- The frames of an audio channel are each in one place, and the output thread's variable holds one just when it should. -/
structure FramesOwned (c : Channel) : Prop where
  once : ∀ serial, c.owned serial ≤ c.allocated serial
  receiving : ∀ sent, c.decode = .receiveFrame sent → c.frame ≠ none
  inHand : c.outFrame ≠ none → c.output.hasFrame = true
  got : c.output.hasFrame = true → c.outFrame ≠ none
  missed : c.output = .pop (.returned false) → c.isPlaying = false
  taken : ∀ frame, frame ∈ c.frames.queue.taken → c.outFrame = some frame ∨ frame ∈ c.freedFrames
  fromQueue : ∀ frame, c.outFrame = some frame → frame ∈ c.frames.queue.taken

@[simp] theorem DecodePc.hand_signalled (pc : DecodePc) : pc.signalled.hand = pc.hand := by
  cases pc with
  | pop p => cases p <;> rfl
  | _ => rfl

@[simp] theorem OutputPc.hasFrame_signalled (pc : OutputPc) : pc.signalled.hasFrame = pc.hasFrame := by
  cases pc with
  | pop p => cases p <;> rfl
  | _ => rfl

/-! ## Steps move frames, or allocate one -/

/-- The count of a serial, place by place. -/
theorem Channel.owned_eq (c : Channel) (serial : Nat) : c.owned serial =
    (c.frame.toList.map AVFrame.serial).count serial + (c.decode.hand.map AVFrame.serial).count serial +
      (c.frames.queue.items.map AVFrame.serial).count serial + (c.outFrame.toList.map AVFrame.serial).count serial +
      (c.freedFrames.map AVFrame.serial).count serial := by
  simp only [Channel.owned, Channel.heldFrames, List.map_append, List.count_append]

/-- A push moves the frame into the queue, or frees it. -/
theorem Channel.owned_pushFrame (c : Channel) (frame : AVFrame) (serial : Nat) :
    (c.pushFrame frame).owned serial = c.owned serial + [frame.serial].count serial := by
  cases hst : c.frames.state with
  | true =>
    simp [Channel.owned_eq, Channel.pushFrame, MessageQueue.push_of_working hst]
    omega
  | false =>
    simp [Channel.owned_eq, Channel.pushFrame, MessageQueue.push_of_stopped hst]
    omega

/-- A step moves frames from place to place, or allocates one; it takes none off the queue and forgets no freed one. -/
structure FramesMove (c c' : Channel) : Prop where
  owned : ∀ serial, c'.owned serial + c.allocated serial ≤ c.owned serial + c'.allocated serial
  receiving : ∀ sent, c'.decode = .receiveFrame sent → c'.frame ≠ none
  taken : c'.frames.queue.taken = c.frames.queue.taken
  freed : c.freedFrames <+: c'.freedFrames

/-- A step of the shared head of the decode loops moves no frame. -/
theorem framesMove_of_head {c c' : Channel} (h : c.decodeHead = some c') : FramesMove c c' := by
  unfold Channel.decodeHead at h
  split at h
  case h_1 hd | h_2 hd | h_3 hd | h_6 hd =>
    cases h
    refine ⟨fun serial => ?_, ?_, rfl, List.prefix_refl _⟩
    · simp only [Channel.owned_eq, Channel.allocated, hd]
      (repeat' split) <;> simp
    · intro sent
      (repeat' split) <;> simp
  case h_4 hd | h_5 hd =>
    cases h
    refine ⟨fun serial => ?_, by simp [Channel.decodePop], rfl, List.prefix_refl _⟩
    simp [Channel.owned_eq, Channel.allocated, Channel.decodePop, hd]
  case h_7 => cases h

/-- A step of the decode thread moves frames, or allocates one. -/
theorem AudioChannel.decode_owns {c c' : Channel} {ret : Int} (hc : FramesOwned c)
    (h : AudioChannel.decode c ret = some c') : FramesMove c c' := by
  unfold AudioChannel.decode at h
  split at h
  case h_1 hd =>
    cases h
    refine ⟨fun serial => ?_, by simp, rfl, List.prefix_refl _⟩
    simp [Channel.owned_eq, Channel.allocated, hd]
  case h_2 hd =>
    split at h
    · cases h
    · dsimp only at h
      split at h <;> cases h
      · refine ⟨fun serial => ?_, by simp, rfl, List.prefix_refl _⟩
        simp [Channel.owned_eq, Channel.allocated, Channel.releaseAvPacket, hd]
      · -- `av_frame_alloc` gives a frame of a serial that no place holds yet
        refine ⟨fun serial => ?_, by simp, rfl, List.prefix_refl _⟩
        simp only [Channel.owned_eq, Channel.allocated, Channel.releaseAvPacket, hd, DecodePc.hand, Option.toList_some,
          List.map_cons, List.map_nil, List.count_nil, List.count_singleton]
        by_cases hserial : serial = c.frameAllocs
        · simp [hserial]
          omega
        · have hlt : serial < c.frameAllocs + 1 ↔ serial < c.frameAllocs := by omega
          simp [hlt, Ne.symm hserial]
  case h_3 sent hd =>
    split at h
    · cases h
      refine ⟨fun serial => ?_, by simp, rfl, List.prefix_append _ _⟩
      simp [Channel.owned_eq, Channel.allocated, Channel.releaseAvFrame, hd]
      omega
    · split at h <;> cases h
      · refine ⟨fun serial => ?_, by simp, rfl, List.prefix_append _ _⟩
        simp [Channel.owned_eq, Channel.allocated, Channel.releaseAvFrame, hd]
        omega
      · refine ⟨fun serial => ?_, by simp, rfl, List.prefix_refl _⟩
        obtain ⟨frame, hframe⟩ := Option.ne_none_iff_exists'.mp (hc.receiving sent hd)
        simp [Channel.owned_eq, Channel.allocated, hd, hframe]
  case h_4 frame hd =>
    cases h
    refine ⟨fun serial => ?_, by simp, ?_, ?_⟩
    · have hpush := c.owned_pushFrame frame serial
      simp [Channel.owned_eq, Channel.pushFrame, hd] at hpush
      simp [Channel.owned_eq, Channel.allocated, Channel.pushFrame, hd]
      omega
    · cases hst : c.frames.state <;> simp [Channel.pushFrame, MessageQueue.push, hst]
    · exact List.prefix_append _ _
  case h_5 hd =>
    cases h
    refine ⟨fun serial => ?_, by simp, rfl, List.prefix_refl _⟩
    simp [Channel.owned_eq, Channel.allocated, Channel.releaseAvPacket, hd]
  case h_6 => exact framesMove_of_head h

/-! ## `FramesOwned` is an invariant -/

namespace FramesOwned

variable {c c' : Channel}

/-- An output thread that is not about to use a frame has none. -/
theorem outFrame_eq_none (hc : FramesOwned c) (h : c.output.hasFrame = false) : c.outFrame = none := by
  by_contra hf
  rw [hc.inHand hf] at h
  cases h

/-- A step in which no frame changes its place and the output thread comes to, or stays at, a place without one. -/
theorem of_idle (hc : FramesOwned c) (hout : c.outFrame = none) (hframe : c'.frame = c.frame)
    (hdecode : c'.decode = c.decode) (hframes : c'.frames.queue = c.frames.queue) (hallocs : c'.frameAllocs = c.frameAllocs)
    (hfreed : c'.freedFrames = c.freedFrames) (hout' : c'.outFrame = none) (ho : c'.output.hasFrame = false)
    (hmissed : c'.output ≠ .pop (.returned false)) : FramesOwned c' := by
  constructor
  case once =>
    intro serial
    have honce := hc.once serial
    simp only [Channel.owned_eq, Channel.allocated, hframe, hdecode, hframes, hfreed, hout, hout', hallocs] at honce ⊢
    exact honce
  case receiving => rw [hdecode, hframe]; exact hc.receiving
  case inHand => exact fun h => absurd hout' h
  case got => intro h; rw [ho] at h; cases h
  case missed => exact fun h => absurd h hmissed
  case taken =>
    intro frame hmem
    rw [hframes] at hmem
    rcases hc.taken frame hmem with h | h
    · rw [hout] at h
      cases h
    · exact Or.inr (hfreed ▸ h)
  case fromQueue => intro frame h; rw [hout'] at h; cases h

/-- A step in which no frame changes its place. -/
theorem move (hc : FramesOwned c) (hframe : c'.frame = c.frame) (hhand : c'.decode.hand = c.decode.hand)
    (hdecode : ∀ sent, c'.decode = .receiveFrame sent → c.decode = .receiveFrame sent)
    (hqueue : c'.frames.queue = c.frames.queue) (hout : c'.outFrame = c.outFrame)
    (hfreed : c'.freedFrames = c.freedFrames) (hallocs : c'.frameAllocs = c.frameAllocs) : FramesMove c c' := by
  refine ⟨fun serial => ?_, fun sent hd => ?_, by rw [hqueue], hfreed ▸ List.prefix_refl _⟩
  · simp only [Channel.owned_eq, Channel.allocated, hframe, hhand, hqueue, hout, hfreed, hallocs, le_refl]
  · rw [hframe]
    exact hc.receiving sent (hdecode sent hd)

/-- A step that leaves the frames and the output thread alone, or signals it. -/
theorem of_owns (hc : FramesOwned c) (h : FramesMove c c') (ho : c'.output = c.output ∨ c'.output = c.output.signalled)
    (hout : c'.outFrame = c.outFrame) (hp : c'.isPlaying = c.isPlaying ∨ c'.isPlaying = false) : FramesOwned c' := by
  have hhas : c'.output.hasFrame = c.output.hasFrame := by
    rcases ho with ho | ho
    · rw [ho]
    · rw [ho, OutputPc.hasFrame_signalled]
  constructor
  case once =>
    intro serial
    have h1 := hc.once serial
    have h2 := h.owned serial
    omega
  case receiving => exact h.receiving
  case inHand => rw [hout, hhas]; exact hc.inHand
  case got => rw [hout, hhas]; exact hc.got
  case missed =>
    intro hm
    have hm : c.output = .pop (.returned false) := by
      rcases ho with ho | ho
      · rw [← ho, hm]
      · rw [ho] at hm
        exact (OutputPc.signalled_eq_missed _).mp hm
    rcases hp with hp | hp
    · rw [hp, hc.missed hm]
    · exact hp
  case taken =>
    intro frame hmem
    rw [h.taken] at hmem
    rw [hout]
    exact (hc.taken frame hmem).imp id fun hf => h.freed.subset hf
  case fromQueue => rw [hout, h.taken]; exact hc.fromQueue

/-- The frame in the output thread's hand is released. -/
theorem of_release (hc : FramesOwned c) {frame : AVFrame} (hframe : c.outFrame = some frame) (hf : c'.frame = c.frame)
    (hdecode : c'.decode = c.decode) (hframes : c'.frames = c.frames) (hallocs : c'.frameAllocs = c.frameAllocs)
    (hfreed : c'.freedFrames = c.freedFrames ++ [frame]) (hout' : c'.outFrame = none) (ho : c'.output.hasFrame = false)
    (hmissed : c'.output ≠ .pop (.returned false)) : FramesOwned c' := by
  constructor
  case once =>
    intro serial
    have honce := hc.once serial
    simp only [Channel.owned_eq, Channel.allocated, hf, hdecode, hframes, hfreed, hframe, hout', hallocs,
      Option.toList_some, Option.toList_none, List.map_append, List.count_append, List.map_nil, List.count_nil]
      at honce ⊢
    omega
  case receiving => rw [hdecode, hf]; exact hc.receiving
  case inHand => exact fun h => absurd hout' h
  case got => intro h; rw [ho] at h; cases h
  case missed => exact fun h => absurd h hmissed
  case taken =>
    intro f hmem
    rw [hframes] at hmem
    rw [hfreed, List.mem_append, List.mem_singleton]
    rcases hc.taken f hmem with h | h
    · rw [hframe] at h
      exact Or.inr (Or.inr (Option.some.inj h).symm)
    · exact Or.inr (Or.inl h)
  case fromQueue => intro f h; rw [hout'] at h; cases h

/-- The output thread of an audio channel whose frames queue has stopped finds the flag clear. -/
theorem isPlaying_of_stopped (hk : c.kind = .audio) (hph : Phased c) (ho : c.output ≠ .notCreated)
    (hs : c.frames.state = false) : c.isPlaying = false := by
  have houts := hph.output.mp ho
  have hframes := hph.frames
  rw [hs, hk] at hframes
  rw [hph.playing]
  cases hctl : c.ctl <;> simp [hctl] at houts hframes ⊢

/-- One critical section of `frames.pop`. -/
theorem pop_step (hk : c.kind = .audio) (hph : Phased c) (hc : FramesOwned c)
    (ho : c.output = .pop .call ∨ c.output = .pop .woken) : FramesOwned c.outputPop := by
  have hnone : c.outFrame = none := hc.outFrame_eq_none (by rcases ho with ho | ho <;> simp [ho])
  have hcreated : c.output ≠ .notCreated := by rcases ho with ho | ho <;> simp [ho]
  rcases c.frames.popSection_cases with ⟨h, -, -⟩ | ⟨h, -, hs⟩ | ⟨frame, rest, h, hitems⟩
  · exact hc.of_idle hnone rfl rfl (by simp [Channel.outputPop, h]) rfl rfl (by simp [Channel.outputPop, h, hnone])
      (by simp [Channel.outputPop, h]) (by simp [Channel.outputPop, h])
  · constructor
    case once => simpa [Channel.outputPop, Channel.owned_eq, Channel.allocated, h, hnone] using hc.once
    case receiving => exact hc.receiving
    case inHand => simp [Channel.outputPop, h, hnone]
    case got => simp [Channel.outputPop, h]
    case missed => exact fun _ => isPlaying_of_stopped (c := c) hk hph hcreated hs
    case taken => simpa [Channel.outputPop, h, hnone] using hc.taken
    case fromQueue => simp [Channel.outputPop, h, hnone]
  · have hout : c.outputPop.outFrame = some frame := by simp [Channel.outputPop, h]
    have hrest : c.outputPop.frames.queue.items = rest := by simp [Channel.outputPop, h, hitems]
    have htaken : c.outputPop.frames.queue.taken = c.frames.queue.taken ++ [frame] := by
      simp [Channel.outputPop, h, hitems]
    constructor
    case once =>
      intro serial
      have honce := hc.once serial
      have hmoved : c.outputPop.owned serial = c.owned serial := by
        obtain ⟨hframe, hdecode, hfreed⟩ : c.outputPop.frame = c.frame ∧ c.outputPop.decode = c.decode ∧
          c.outputPop.freedFrames = c.freedFrames := ⟨rfl, rfl, rfl⟩
        rw [Channel.owned_eq, Channel.owned_eq, hout, hrest, hframe, hdecode, hfreed, hnone, hitems]
        simp only [Option.toList_some, Option.toList_none, List.map_cons, List.map_nil, List.count_cons, List.count_nil]
        omega
      rw [hmoved]
      exact honce
    case receiving => exact hc.receiving
    case inHand => simp [Channel.outputPop, h]
    case got => simp [hout]
    case missed => simp [Channel.outputPop, h]
    case taken =>
      intro f hmem
      rw [htaken, List.mem_append, List.mem_singleton] at hmem
      rcases hmem with hmem | rfl
      · rcases hc.taken f hmem with hf | hf
        · rw [hnone] at hf
          cases hf
        · exact Or.inr hf
      · exact Or.inl hout
    case fromQueue =>
      intro f hf
      obtain rfl : frame = f := Option.some.inj (hout.symm.trans hf)
      rw [htaken]
      simp

/-- A step of a thread that runs `getPcm`. -/
theorem getPcm_step {i : OutputInput} (hk : c.kind = .audio) (hph : Phased c) (hc : FramesOwned c)
    (h : AudioChannel.getPcm c i = some c') : FramesOwned c' := by
  unfold AudioChannel.getPcm at h
  split at h
  case h_1 ho =>
    have hnone := hc.outFrame_eq_none (by simp [ho])
    split at h <;> cases h <;> exact hc.of_idle hnone rfl rfl rfl rfl rfl (by simp [hnone]) rfl (by simp)
  case h_2 ho =>
    cases h
    exact pop_step hk hph hc (Or.inl ho)
  case h_3 ho =>
    cases h
    exact pop_step hk hph hc (Or.inr ho)
  case h_4 ret ho =>
    cases ret with
    | true =>
      obtain ⟨frame, hframe⟩ := Option.ne_none_iff_exists'.mp (hc.got (by simp [ho]))
      split at h <;> cases h
      · exact hc.of_release hframe rfl rfl rfl rfl (by simp [Channel.releaseOutFrame, hframe]) rfl rfl (by simp)
      · exact ⟨hc.once, hc.receiving, fun _ => rfl, fun _ => hc.got (by simp [ho]), by simp, hc.taken, hc.fromQueue⟩
    | false =>
      have hnone := hc.outFrame_eq_none (by simp [ho])
      split at h
      · cases h
        exact hc.of_idle hnone rfl rfl rfl rfl rfl (by simp [hnone]) rfl (by simp)
      · rename_i hp
        simp [hc.missed ho] at hp
  case h_5 ho =>
    split at h
    · rename_i hnone
      exact absurd hnone (hc.got (by simp [ho]))
    · rename_i frame hframe
      split at h <;> cases h
      · exact ⟨hc.once, hc.receiving, hc.inHand, hc.got, hc.missed, hc.taken, hc.fromQueue⟩
      · exact hc.of_release hframe rfl rfl rfl rfl (by simp [Channel.releaseOutFrame, hframe]) rfl rfl (by simp)
  case h_6 dataSize ho =>
    have hnone := hc.outFrame_eq_none (by simp [ho])
    cases h
    exact hc.of_idle hnone rfl rfl rfl rfl rfl hnone (by dsimp only; split <;> rfl) (by dsimp only; split <;> simp)
  case h_7 ho =>
    have hnone := hc.outFrame_eq_none (by simp [ho])
    cases h
    exact hc.of_idle hnone rfl rfl rfl rfl rfl rfl rfl (by simp)
  case h_8 => cases h

/-- A statement of `start` or `stop`. -/
theorem ctl_step (hph : Phased c) (hc : FramesOwned c) (h : CtlStep c c') : FramesOwned c' := by
  cases h with
  | setFlag hctl hc' =>
    have hnone : c.output = .notCreated := by
      have ho := hph.output
      simpa [hctl] using ho
    subst hc'
    exact ⟨hc.once, hc.receiving, hc.inHand, hc.got, by simp [hnone], hc.taken, hc.fromQueue⟩
  | packetsGotoWork next _ hc' | packetsBackWork next _ hc' =>
    subst hc'
    refine hc.of_owns (hc.move rfl (DecodePc.hand_signalled _) ?_ rfl rfl rfl rfl) (Or.inl rfl) rfl (Or.inl rfl)
    exact fun sent => (DecodePc.signalled_eq_iff (by simp)).mp
  | framesGotoWork next _ hc' | framesBackWork next _ hc' =>
    subst hc'
    exact hc.of_owns (hc.move rfl rfl (fun _ => id) rfl rfl rfl rfl) (Or.inr rfl) rfl (Or.inl rfl)
  | createDecode hctl hc' =>
    have hnone : c.decode = .notCreated := by
      have hd := hph.decode
      simpa [hctl] using hd
    subst hc'
    exact hc.of_owns (hc.move rfl (by simp [hnone]) (by simp) rfl rfl rfl rfl) (Or.inl rfl) rfl (Or.inl rfl)
  | createOutput play hctl hc' =>
    have hnone : c.output = .notCreated := by
      have ho := hph.output
      simpa [hctl] using ho
    have hframe := hc.outFrame_eq_none (by simp [hnone])
    subst hc'
    exact hc.of_idle hframe rfl rfl rfl rfl rfl hframe rfl (by simp)
  | clearFlag _ hc' =>
    subst hc'
    exact hc.of_owns (hc.move rfl rfl (fun _ => id) rfl rfl rfl rfl) (Or.inl rfl) rfl (Or.inr rfl)
  | join next _ hc' =>
    subst hc'
    exact hc.of_owns (hc.move rfl rfl (fun _ => id) rfl rfl rfl rfl) (Or.inl rfl) rfl (Or.inl rfl)
  | freeSwr _ _ hc' =>
    subst hc'
    exact hc.of_owns (hc.move rfl rfl (fun _ => id) rfl rfl rfl rfl) (Or.inl rfl) rfl (Or.inl rfl)
  | destroy _ hidle hc' =>
    have hframe : c.outFrame = none := by
      refine hc.outFrame_eq_none ?_
      simp only [Channel.callbackIdle, Bool.or_eq_true, decide_eq_true_eq] at hidle
      rcases hidle with hidle | hidle <;> simp [hidle]
    subst hc'
    exact hc.of_idle hframe rfl rfl rfl rfl rfl hframe rfl (by simp)

/-- Every step of an audio channel keeps its frames owned. -/
theorem step {a : ChannelAct} (hk : c.kind = .audio) (hph : Phased c) (hc : FramesOwned c) (h : c.act a = some c') :
    FramesOwned c' := by
  cases a with
  | decode ret =>
    obtain ⟨hkeeps, hstep⟩ := decode_cases h
    simp only [Channel.act, hk] at h
    exact hc.of_owns (AudioChannel.decode_owns hc h) hstep.output hkeeps.outFrame (Or.inl hkeeps.isPlaying)
  | output i =>
    simp only [Channel.act, hk] at h
    exact getPcm_step hk hph hc h
  | start => exact ctl_step hph hc (start_cases h).1
  | stop => exact ctl_step hph hc (stop_cases h)
  | push packet =>
    cases h
    refine hc.of_owns (hc.move rfl ?_ (fun sent => ?_) rfl rfl rfl rfl) (Or.inl rfl) rfl (Or.inl rfl)
    · simp only [Channel.pushPacket]
      split
      · exact DecodePc.hand_signalled _
      · rfl
    · simp only [Channel.pushPacket]
      split
      · exact (DecodePc.signalled_eq_iff (by simp)).mp
      · exact id
  | wakeDecode =>
    simp only [Channel.act, Option.ite_none_right_eq_some, Option.some.injEq] at h
    obtain ⟨hd, rfl⟩ := h
    exact hc.of_owns (hc.move rfl (by simp [hd]) (by simp) rfl rfl rfl rfl) (Or.inl rfl) rfl (Or.inl rfl)
  | wakeOutput =>
    simp only [Channel.act, Option.ite_none_right_eq_some, Option.some.injEq] at h
    obtain ⟨ho, rfl⟩ := h
    have hframe := hc.outFrame_eq_none (by simp [ho])
    exact hc.of_idle hframe rfl rfl rfl rfl rfl hframe rfl (by simp)
  | playReturn | setAudioChannel channel =>
    simp only [Channel.act, Option.ite_none_right_eq_some, Option.some.injEq] at h
    obtain ⟨-, rfl⟩ := h
    exact ⟨hc.once, hc.receiving, hc.inHand, hc.got, hc.missed, hc.taken, hc.fromQueue⟩

end FramesOwned

/-- In every run of an audio channel its frames are owned. -/
theorem framesOwned_of_reachable {c : Channel} (h : (Channel.lts .audio).Reachable c) : FramesOwned c := by
  refine Lts.Reachable.invariant ?_ ?_ h
  · rintro c ⟨id, rfl⟩
    constructor <;> simp [Channel.new, Channel.owned_eq]
  · intro c a c' hr hc hs
    exact FramesOwned.step (Channel.kind_of_reachable hr) (phased_of_reachable hr) hc (Channel.step_eq_some.mp hs).2

/-! ## What follows for one frame -/

namespace FramesOwned

variable {c : Channel} {frame : AVFrame}

/-- A frame is freed at most once. -/
theorem count_freed_le_one (hc : FramesOwned c) (frame : AVFrame) : c.freedFrames.count frame ≤ 1 := by
  have honce := hc.once frame.serial
  have hle := List.count_le_count_map (l := c.freedFrames) (f := AVFrame.serial) (x := frame)
  have halloc : c.allocated frame.serial ≤ 1 := by unfold Channel.allocated; split <;> omega
  rw [Channel.owned_eq] at honce
  omega

/-- The frame in the output thread's hand is not freed. -/
theorem not_freed (hc : FramesOwned c) (h : c.outFrame = some frame) : frame ∉ c.freedFrames := by
  intro hmem
  have honce := hc.once frame.serial
  have hpos : 0 < (c.freedFrames.map AVFrame.serial).count frame.serial :=
    List.count_pos_iff.mpr (List.mem_map_of_mem hmem)
  have halloc : c.allocated frame.serial ≤ 1 := by unfold Channel.allocated; split <;> omega
  rw [Channel.owned_eq, h] at honce
  simp only [Option.toList_some, List.map_cons, List.map_nil, List.count_cons_self, List.count_nil] at honce
  omega

/-- A frame taken off the queue is in the output thread's hand, or freed once. -/
theorem released_once (hc : FramesOwned c) (h : frame ∈ c.frames.queue.taken) :
    c.freedFrames.count frame + (if c.outFrame = some frame then 1 else 0) = 1 := by
  by_cases hout : c.outFrame = some frame
  · rw [if_pos hout, List.count_eq_zero_of_not_mem (hc.not_freed hout)]
  · have hpos := List.count_pos_iff.mpr ((hc.taken frame h).resolve_left hout)
    have hle := hc.count_freed_le_one frame
    rw [if_neg hout]
    omega

end FramesOwned

end LibraLive

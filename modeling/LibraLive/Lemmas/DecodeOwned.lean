import LibraLive.DecodeEvents

/-!
# What a decode thread holds

A packet is in the variable from `pop` to its release, whether that comes after `avcodec_send_packet` or after the loop, and a
frame is in the variable or on its way through the filter. So what the thread holds can be read off where it is, and every
step may do what it does.
-/

namespace LibraLive

namespace DecodePc

/-- The frame inside `doFilter`, or on its way to the queue. -/
def filterFrame (frameAllocs : Nat) : DecodePc → List Resource
  | .getFrame => [.frame (frameAllocs - 1)]
  | .push frame => [.frame frame.serial]
  | _ => []

/-- The places of the loops at which no frame is on its way. -/
def quiet : DecodePc → Bool
  | .whileTest | .sizeFlag | .sizeTest | .pop _ | .sendPacket | .leave => true
  | _ => false

/-- The thread may have taken a packet and not released it. -/
def hasPacket : DecodePc → Bool
  | .pop (.returned true) | .sendPacket | .leave => true
  | _ => false

/-- The variable `frame` is not null: that of `AudioChannel::decode` between the allocation and the push, that of
`VideoChannel::decode` from its first statement to its last. -/
def hasFrame : Kind → DecodePc → Bool
  | .audio, .receiveFrame _ => true
  | .audio, _ => false
  | .video, .notCreated | .video, .enter | .video, .ended => false
  | .video, _ => true

/-- At such a place the class decides. -/
theorem hasFrame_of_quiet {pc pc' : DecodePc} (hq : pc.quiet = true) (hq' : pc'.quiet = true) (kind : Kind) :
    pc.hasFrame kind = pc'.hasFrame kind := by
  cases kind <;> cases pc <;> cases hq <;> cases pc' <;> cases hq' <;> rfl

end DecodePc

namespace Channel

variable {kind : Kind} {c c' : Channel} {ret : Int}

/-- What the decode thread holds. -/
def decodeOwned (c : Channel) : List Resource :=
  match c.decode with
  | .notCreated | .enter | .ended => []
  | pc => c.packet.toList.map Resource.packet ++ c.frame.toList.map (fun frame => .frame frame.serial) ++
      pc.filterFrame c.frameAllocs

/-- The variables of the decode thread are null where nothing is in them. -/
structure Locals (c : Channel) : Prop where
  created : c.decode ≠ .notCreated
  packet : c.packet.isSome = true → c.decode.hasPacket = true
  frame : c.frame.isSome = c.decode.hasFrame c.kind
  fresh : ∀ n, .frame n ∈ c.decodeOwned → n < c.frameAllocs

/-- The step may do what it does with packets and frames, and what the thread holds after it is what it should hold. -/
def Holds (c : Channel) (events : List (OwnEvent Resource)) (c' : Channel) : Prop :=
  ∃ held, Ownership.run c.decodeOwned events = some held ∧ held.Perm c'.decodeOwned

/-- At a place without a frame on its way only the variables hold something. -/
theorem decodeOwned_of_quiet (h : c.decode.quiet = true) : c.decodeOwned =
    c.packet.toList.map Resource.packet ++ c.frame.toList.map (fun frame => .frame frame.serial) := by
  unfold decodeOwned
  cases hd : c.decode <;> rw [hd] at h <;> first | exact List.append_nil _ | cases h

/-- Inside the loop what is in the variables, and in the filter, is held. -/
theorem decodeOwned_of_inside (h : c.decode.hasFrame .video = true) : c.decodeOwned =
    c.packet.toList.map Resource.packet ++ c.frame.toList.map (fun frame => .frame frame.serial) ++
      c.decode.filterFrame c.frameAllocs := by
  unfold decodeOwned
  cases hd : c.decode <;> rw [hd] at h <;> first | rfl | cases h

/-- The frame in the variable was allocated. -/
theorem Locals.frame_lt (hl : Locals c) (hd : c.decode.hasFrame .video = true) {frame : AVFrame} (hframe : c.frame = some frame) :
    frame.serial < c.frameAllocs := by
  refine hl.fresh frame.serial ?_
  rw [decodeOwned_of_inside hd, hframe]
  simp

/-- A place without a frame on its way is reached. -/
theorem Locals.of_quiet (hq : c.decode.quiet = true) (hhas : c.packet.isSome = true → c.decode.hasPacket = true)
    (hframe : c.frame.isSome = c.decode.hasFrame c.kind) (hfresh : ∀ frame, c.frame = some frame → frame.serial < c.frameAllocs) :
    Locals c := by
  refine ⟨?_, hhas, hframe, ?_⟩
  · intro hd
    rw [hd] at hq
    cases hq
  · intro n hn
    rw [decodeOwned_of_quiet hq] at hn
    simp only [List.mem_append, List.mem_map, reduceCtorEq, and_false, exists_false, false_or, Resource.frame.injEq,
      Option.mem_toList] at hn
    obtain ⟨frame, hframe, rfl⟩ := hn
    exact hfresh frame hframe

/-- Between two such places nothing changes hands. -/
theorem Locals.move (hl : Locals c) (hkind : c'.kind = c.kind) (hpacket : c'.packet = c.packet) (hframe : c'.frame = c.frame)
    (hallocs : c'.frameAllocs = c.frameAllocs) (hq : c.decode.quiet = true) (hq' : c'.decode.quiet = true)
    (hhas : c.packet.isSome = true → c'.decode.hasPacket = true) : Locals c' ∧ c.Holds [] c' := by
  have howned : c'.decodeOwned = c.decodeOwned := by
    rw [decodeOwned_of_quiet hq, decodeOwned_of_quiet hq', hpacket, hframe]
  refine ⟨⟨?_, by rw [hpacket]; exact hhas, ?_, ?_⟩, ⟨_, rfl, howned ▸ .refl _⟩⟩
  · intro hd
    rw [hd] at hq'
    cases hq'
  · rw [hframe, hl.frame, hkind]
    exact DecodePc.hasFrame_of_quiet hq hq' _
  · rw [howned, hallocs]
    exact hl.fresh

/-- Where no packet can be in the variable it is null. -/
theorem Locals.packet_eq_none (hl : Locals c) (h : c.decode.hasPacket = false) : c.packet = none := by
  rw [← Option.not_isSome_iff_eq_none]
  intro hsome
  rw [hl.packet hsome] at h
  cases h

/-- Where no frame can be in the variable it is null. -/
theorem Locals.frame_eq_none (hl : Locals c) (h : c.decode.hasFrame c.kind = false) : c.frame = none :=
  Option.not_isSome_iff_eq_none.mp (Bool.eq_false_iff.mp (hl.frame.trans h))

/-- Where a frame must be in the variable it is not null. -/
theorem Locals.frame_eq_some (hl : Locals c) (h : c.decode.hasFrame c.kind = true) : ∃ frame, c.frame = some frame :=
  Option.isSome_iff_exists.mp (hl.frame.trans h)

/-- A step that changes neither the queues nor the record of the channel hands nothing on. -/
theorem handed_of_same (hpackets : c'.packets = c.packets) (hframes : c'.frames = c.frames)
    (hfreedPackets : c'.freedPackets = c.freedPackets) (hfreedFrames : c'.freedFrames = c.freedFrames)
    (hallocs : c'.frameAllocs = c.frameAllocs) : c.handed c' = [] := by
  simp [handed, hpackets, hframes, hfreedPackets, hfreedFrames, hallocs]

/-- A frame that is pushed joins the queue, or is freed when the queue is not working. -/
theorem handed_of_push {frame : AVFrame} (hpackets : c'.packets = c.packets) (hframes : c'.frames = (c.pushFrame frame).frames)
    (hfreedPackets : c'.freedPackets = c.freedPackets) (hfreedFrames : c'.freedFrames = (c.pushFrame frame).freedFrames)
    (hallocs : c'.frameAllocs = c.frameAllocs) :
    c.handed c' = [.pass (.frame frame.serial)] ∨ c.handed c' = [.free (.frame frame.serial)] := by
  cases hstate : c.frames.state with
  | true =>
    refine Or.inl ?_
    simp [handed, hpackets, hframes, hfreedPackets, hfreedFrames, hallocs, pushFrame, MessageQueue.push_of_working hstate]
  | false =>
    refine Or.inr ?_
    simp [handed, hpackets, hframes, hfreedPackets, hfreedFrames, hallocs, pushFrame, MessageQueue.push_of_stopped hstate]

/-- `packets.pop` may take a packet, into a variable that is null. -/
theorem decodePop_holds (hl : Locals c) (hd : c.decode = .pop .call ∨ c.decode = .pop .woken) :
    Locals c.decodePop ∧ c.Holds (c.handed c.decodePop) c.decodePop := by
  have hquiet : c.decode.quiet = true := by rcases hd with hd | hd <;> rw [hd] <;> rfl
  have hinside : c.decode.hasFrame .video = true := by rcases hd with hd | hd <;> rw [hd] <;> rfl
  have hnone : c.packet = none := hl.packet_eq_none (by rcases hd with hd | hd <;> rw [hd] <;> rfl)
  have hmiss : ∀ pc : PopPc, c.packets.popSection = (pc, c.packets, none) →
      Locals c.decodePop ∧ c.Holds (c.handed c.decodePop) c.decodePop := by
    intro pc hsection
    have hnothing : c.handed c.decodePop = [] := handed_of_same (by simp [decodePop, hsection]) rfl rfl rfl rfl
    rw [hnothing]
    exact hl.move rfl (by simp [decodePop, hsection]) rfl rfl hquiet rfl (by simp [hnone])
  rcases c.packets.popSection_cases with ⟨hsection, -, -⟩ | ⟨hsection, -, -⟩ | ⟨packet, rest, hsection, hitems⟩
  · exact hmiss _ hsection
  · exact hmiss _ hsection
  · have hleft : Change.left c.packets.queue.items c.decodePop.packets.queue.items = [packet] :=
      Change.left_of_eq (by simp [decodePop, hsection, hitems])
    have hhanded : c.handed c.decodePop = [.acquire (.packet packet)] := by
      unfold handed
      rw [hleft]
      simp [decodePop]
    have hafter : c.decodePop.packet = some packet ∧ c.decodePop.decode = .pop (.returned true) := by
      simp [decodePop, hsection]
    rw [hhanded]
    refine ⟨.of_quiet (by rw [hafter.2]; rfl) (fun _ => by rw [hafter.2]; rfl) ?_
      (fun frame hframe => hl.frame_lt hinside hframe), ?_⟩
    · exact hl.frame.trans (DecodePc.hasFrame_of_quiet hquiet (by rw [hafter.2]; rfl) _)
    · have hframe : c.decodePop.frame = c.frame := rfl
      unfold Holds
      rw [decodeOwned_of_quiet hquiet, decodeOwned_of_quiet (by rw [hafter.2]; rfl), hnone, hafter.1, hframe]
      exact ⟨_, by simp [Ownership.step], .refl _⟩

/-- The head of the loops. -/
theorem head_holds (hl : Locals c) (h : c.decodeHead = some c') : Locals c' ∧ c.Holds (c.handed c') c' := by
  -- but for `pop` itself it only goes on
  have hgo : ∀ pc : DecodePc, c.decode.quiet = true → pc.quiet = true → (c.packet.isSome = true → pc.hasPacket = true) →
      Locals { c with decode := pc } ∧ c.Holds (c.handed { c with decode := pc }) { c with decode := pc } := by
    intro pc hquiet hquiet' hhas
    have hnothing : c.handed { c with decode := pc } = [] := handed_of_same rfl rfl rfl rfl rfl
    rw [hnothing]
    exact hl.move rfl rfl rfl rfl hquiet hquiet' hhas
  have hnull : c.decode.hasPacket = false → ∀ pc : DecodePc, c.packet.isSome = true → pc.hasPacket = true := by
    intro hno pc hsome
    rw [hl.packet_eq_none hno] at hsome
    cases hsome
  unfold decodeHead at h
  split at h
  case h_1 hd =>
    cases h
    exact hgo _ (by rw [hd]; rfl) (by split <;> rfl) (hnull (by rw [hd]; rfl) _)
  case h_2 hd =>
    cases h
    exact hgo _ (by rw [hd]; rfl) (by split <;> rfl) (hnull (by rw [hd]; rfl) _)
  case h_3 hd =>
    cases h
    exact hgo _ (by rw [hd]; rfl) (by split <;> rfl) (hnull (by rw [hd]; rfl) _)
  case h_4 hd =>
    cases h
    exact decodePop_holds hl (Or.inl hd)
  case h_5 hd =>
    cases h
    exact decodePop_holds hl (Or.inr hd)
  case h_6 ret hd =>
    cases h
    refine hgo _ (by rw [hd]; rfl) (by split_ifs <;> rfl) ?_
    intro hsome
    have hret := hl.packet hsome
    rw [hd] at hret
    cases ret with
    | false => cases hret
    | true => cases c.isPlaying <;> rfl
  case h_7 => cases h

/-- In the head of the loops both classes only hand on. -/
theorem events_of_head (h : c.decodeHead = some c') :
    AudioChannel.events c c' = c.handed c' ∧ VideoChannel.events c c' = c.handed c' := by
  unfold decodeHead at h
  unfold AudioChannel.events VideoChannel.events AudioChannel.uses VideoChannel.uses VideoChannel.usesAfter
  cases hd : c.decode <;> rw [hd] at h <;> first | exact ⟨rfl, List.append_nil _⟩ | cases h

end Channel

/-- After its last statement the thread holds nothing. -/
theorem Channel.Locals.of_ended {c : Channel} (hd : c.decode = .ended) (hpacket : c.packet = none) (hframe : c.frame = none) :
    c.Locals := by
  refine ⟨by rw [hd]; simp, by rw [hpacket]; simp, ?_, ?_⟩
  · rw [hd, hframe]
    cases c.kind <;> rfl
  · intro n hn
    unfold decodeOwned at hn
    rw [hd] at hn
    cases hn

/-- `AudioChannel::decode` releases the packet as soon as the codec saw it, and allocates a frame if the codec took it. -/
theorem AudioChannel.sendPacket_holds {c c' : Channel} {ret : Int} (hk : c.kind = .audio) (hl : c.Locals)
    (hd : c.decode = .sendPacket) (h : AudioChannel.decode c ret = some c') :
    c'.Locals ∧ c.Holds (AudioChannel.events c c') c' := by
  have hnone : c.frame = none := hl.frame_eq_none (by rw [hk, hd]; rfl)
  rw [AudioChannel.decode, hd] at h
  dsimp only at h
  split at h
  case h_1 => cases h
  case h_2 packet hpacket =>
    have howned : c.decodeOwned = [.packet packet] := by
      rw [Channel.decodeOwned_of_quiet (by rw [hd]; rfl), hpacket, hnone]
      rfl
    rw [ite_eq_iff] at h
    rcases h with ⟨hret, h⟩ | ⟨hret, h⟩
    · cases h
      refine ⟨.of_quiet rfl (fun h => by cases h) (by simp [Channel.releaseAvPacket, hk, hnone, DecodePc.hasFrame])
        (fun frame h => by simp [Channel.releaseAvPacket, hnone] at h), ⟨[], ?_, ?_⟩⟩
      · rw [howned]
        simp [AudioChannel.events, AudioChannel.uses, Channel.packetVariable, Channel.handed, Channel.releaseAvPacket, hd,
          hpacket, Ownership.step]
      · simp [Channel.decodeOwned, Channel.releaseAvPacket, DecodePc.filterFrame, hnone]
    · cases h
      refine ⟨⟨by simp, by simp [Channel.releaseAvPacket], by simp [Channel.releaseAvPacket, hk, DecodePc.hasFrame], ?_⟩,
        ⟨[.frame c.frameAllocs], ?_, ?_⟩⟩
      · intro n hn
        simp only [Channel.decodeOwned, Channel.releaseAvPacket, DecodePc.filterFrame, Option.toList_none, Option.toList_some,
          List.map_nil, List.map_cons, List.nil_append, List.append_nil, List.mem_singleton, Resource.frame.injEq] at hn
        rw [hn]
        exact Nat.lt_succ_self _
      · rw [howned]
        simp [AudioChannel.events, AudioChannel.uses, Channel.packetVariable, Channel.handed, Channel.releaseAvPacket, hd,
          hpacket, Ownership.step]
      · simp [Channel.decodeOwned, Channel.releaseAvPacket, DecodePc.filterFrame]

/-- `AudioChannel::decode` releases the frame, unless the codec filled it. -/
theorem AudioChannel.receiveFrame_holds {c c' : Channel} {ret : Int} {sent : AVPacket} (hk : c.kind = .audio) (hl : c.Locals)
    (hd : c.decode = .receiveFrame sent) (h : AudioChannel.decode c ret = some c') :
    c'.Locals ∧ c.Holds (AudioChannel.events c c') c' := by
  have hnull : c.packet = none := hl.packet_eq_none (by rw [hd]; rfl)
  obtain ⟨frame, hsome⟩ := hl.frame_eq_some (by rw [hk, hd]; rfl)
  have howned : c.decodeOwned = [.frame frame.serial] := by
    rw [Channel.decodeOwned_of_inside (by rw [hd]; rfl), hd, hnull, hsome]
    rfl
  have hrelease : ∀ pc : DecodePc, pc = .whileTest ∨ pc = .leave → ret ≠ 0 →
      ({ c.releaseAvFrame with decode := pc } : Channel).Locals ∧
        c.Holds (AudioChannel.events c { c.releaseAvFrame with decode := pc }) { c.releaseAvFrame with decode := pc } := by
    intro pc hpc hret
    have hquiet : pc.quiet = true := by rcases hpc with rfl | rfl <;> rfl
    refine ⟨.of_quiet hquiet (by simp [Channel.releaseAvFrame, hnull]) ?_ (fun frame h => by cases h), ⟨[], ?_, ?_⟩⟩
    · rcases hpc with rfl | rfl <;> simp [Channel.releaseAvFrame, hk, DecodePc.hasFrame]
    · rw [howned]
      simp [AudioChannel.events, AudioChannel.uses, Channel.frameVariable, Channel.handed, Channel.releaseAvFrame, hd, hsome,
        Ownership.step]
    · rw [Channel.decodeOwned_of_quiet hquiet]
      simp [Channel.releaseAvFrame, hnull]
  rw [AudioChannel.decode, hd] at h
  dsimp only at h
  split at h
  case isTrue hagain =>
    cases h
    refine hrelease .whileTest (Or.inl rfl) ?_
    rintro rfl
    revert hagain
    decide
  case isFalse =>
    rw [ite_eq_iff] at h
    rcases h with ⟨hret, h⟩ | ⟨hret, h⟩
    · cases h
      exact hrelease .leave (Or.inr rfl) hret
    · cases h
      have howned' : ∀ pushed : AVFrame, pushed.serial = frame.serial →
          ({ c with frame := none, decode := .push pushed } : Channel).decodeOwned = [.frame frame.serial] := by
        intro pushed hserial
        simp [Channel.decodeOwned, DecodePc.filterFrame, hnull, hserial]
      refine ⟨⟨by simp, by simp [hnull], by simp [hk, DecodePc.hasFrame], ?_⟩, ⟨[.frame frame.serial], ?_, ?_⟩⟩
      · intro n hn
        rw [howned' _ (by simp [hsome])] at hn
        exact hl.fresh n (howned ▸ hn)
      · rw [howned]
        simp [AudioChannel.events, AudioChannel.uses, Channel.frameVariable, Channel.handed, hd, hsome, Ownership.step]
      · rw [howned' _ (by simp [hsome])]

/-- `AudioChannel::decode` does with packets and frames what it may. -/
theorem AudioChannel.events_hold {c c' : Channel} {ret : Int} (hk : c.kind = .audio) (hl : c.Locals)
    (h : AudioChannel.decode c ret = some c') : c'.Locals ∧ c.Holds (AudioChannel.events c c') c' := by
  have hsame := h
  unfold AudioChannel.decode at h
  split at h
  case h_1 hd =>
    cases h
    have hnone : c.frame = none := hl.frame_eq_none (by rw [hk, hd]; rfl)
    refine ⟨.of_quiet rfl (fun h => by cases h) (by rw [hk, hnone]; rfl) (fun frame h => by rw [hnone] at h; cases h), ?_⟩
    refine ⟨[], ?_, ?_⟩
    · simp [AudioChannel.events, AudioChannel.uses, Channel.handed, Channel.decodeOwned, hd]
    · simp [Channel.decodeOwned, DecodePc.filterFrame, hnone]
  case h_2 hd => exact AudioChannel.sendPacket_holds hk hl hd hsame
  case h_3 sent hd => exact AudioChannel.receiveFrame_holds hk hl hd hsame
  case h_4 frame hd =>
    have hhanded : c.handed c' = [.pass (.frame frame.serial)] ∨ c.handed c' = [.free (.frame frame.serial)] :=
      Channel.handed_of_push (by cases h; rfl) (by cases h; rfl) (by cases h; rfl) (by cases h; rfl) (by cases h; rfl)
    have hevents : AudioChannel.events c c' = c.handed c' := by simp [AudioChannel.events, AudioChannel.uses, hd]
    rw [hevents]
    cases h
    have hnone : c.frame = none := hl.frame_eq_none (by rw [hk, hd]; rfl)
    have hnull : c.packet = none := hl.packet_eq_none (by rw [hd]; rfl)
    refine ⟨.of_quiet rfl (by simp [Channel.pushFrame, hnull]) (by simp [Channel.pushFrame, hk, hnone, DecodePc.hasFrame])
      (fun frame h => by simp [Channel.pushFrame, hnone] at h), ⟨[], ?_, ?_⟩⟩
    · rw [Channel.decodeOwned_of_inside (by rw [hd]; rfl)]
      rcases hhanded with hhanded | hhanded <;> rw [hhanded] <;>
        simp [hd, hnull, hnone, DecodePc.filterFrame, Ownership.step]
    · rw [Channel.decodeOwned_of_quiet rfl]
      simp [Channel.pushFrame, hnull, hnone]
  case h_5 hd =>
    cases h
    have hnone : c.frame = none := hl.frame_eq_none (by rw [hk, hd]; rfl)
    refine ⟨.of_ended rfl rfl hnone, ⟨[], ?_, ?_⟩⟩
    · rw [Channel.decodeOwned_of_quiet (by rw [hd]; rfl), hnone]
      cases hpacket : c.packet <;> simp [AudioChannel.events, AudioChannel.uses, Channel.handed, Channel.releaseAvPacket, hd,
        hpacket, Ownership.step]
    · simp [Channel.decodeOwned]
  case h_6 =>
    rw [(Channel.events_of_head h).1]
    exact Channel.head_holds hl h

/-- The frame in the variable of `VideoChannel::decode`, inside its loop. -/
theorem Channel.Locals.video_frame {c : Channel} (hl : c.Locals) (hk : c.kind = .video) (hd : c.decode.hasFrame .video = true) :
    ∃ frame, c.frame = some frame ∧ frame.serial < c.frameAllocs := by
  obtain ⟨frame, hframe⟩ := hl.frame_eq_some (by rw [hk]; exact hd)
  exact ⟨frame, hframe, hl.frame_lt hd hframe⟩

/-- `VideoChannel::decode` releases the packet if the codec took it, and keeps it for the end if not. -/
theorem VideoChannel.sendPacket_holds {c c' : Channel} {ret : Int} (hk : c.kind = .video) (hl : c.Locals)
    (hd : c.decode = .sendPacket) (h : VideoChannel.decode c ret = some c') :
    c'.Locals ∧ c.Holds (VideoChannel.events c c') c' := by
  obtain ⟨frame, hsome, hlt⟩ := hl.video_frame hk (by rw [hd]; rfl)
  rw [VideoChannel.decode, hd] at h
  dsimp only at h
  split at h
  case h_1 => cases h
  case h_2 packet hpacket =>
    have howned : c.decodeOwned = [.packet packet, .frame frame.serial] := by
      rw [Channel.decodeOwned_of_quiet (by rw [hd]; rfl), hpacket, hsome]
      rfl
    rw [ite_eq_iff] at h
    rcases h with ⟨hret, h⟩ | ⟨hret, h⟩
    · cases h
      refine ⟨.of_quiet rfl (fun _ => rfl) (by simp [hk, hsome, DecodePc.hasFrame]) (fun other h => ?_), ⟨_, ?_, .refl _⟩⟩
      · rw [hsome] at h
        cases h
        exact hlt
      · rw [howned]
        simp [VideoChannel.events, VideoChannel.uses, VideoChannel.usesAfter, Channel.packetVariable, Channel.handed, hd,
          hpacket, hsome, Channel.decodeOwned, DecodePc.filterFrame, Ownership.step]
    · cases h
      refine ⟨⟨by simp, by simp [Channel.releaseAvPacket],
        by simp [Channel.releaseAvPacket, hk, hsome, DecodePc.hasFrame], ?_⟩, ⟨[.frame frame.serial], ?_, ?_⟩⟩
      · intro n hn
        simp only [Channel.decodeOwned, Channel.releaseAvPacket, DecodePc.filterFrame, hsome, Option.toList_none,
          Option.toList_some, List.map_nil, List.map_cons, List.nil_append, List.append_nil, List.mem_singleton,
          Resource.frame.injEq] at hn
        rw [hn]
        exact hlt
      · rw [howned]
        simp [VideoChannel.events, VideoChannel.uses, VideoChannel.usesAfter, Channel.packetVariable, Channel.handed,
          Channel.releaseAvPacket, hd, hpacket, Ownership.step]
      · simp [Channel.decodeOwned, Channel.releaseAvPacket, DecodePc.filterFrame, hsome]

/-- `VideoChannel::decode` keeps the frame, whatever the codec returns. -/
theorem VideoChannel.receiveFrame_holds {c c' : Channel} {ret : Int} {sent : AVPacket} (hk : c.kind = .video) (hl : c.Locals)
    (hd : c.decode = .receiveFrame sent) (h : VideoChannel.decode c ret = some c') :
    c'.Locals ∧ c.Holds (VideoChannel.events c c') c' := by
  obtain ⟨frame, hsome, hlt⟩ := hl.video_frame hk (by rw [hd]; rfl)
  have hnull : c.packet = none := hl.packet_eq_none (by rw [hd]; rfl)
  have howned : c.decodeOwned = [.frame frame.serial] := by
    rw [Channel.decodeOwned_of_inside (by rw [hd]; rfl), hd, hnull, hsome]
    rfl
  -- `av_frame_unref` keeps the frame
  have hunref : ∀ pc : DecodePc, pc = .whileTest ∨ pc = .leave → ret ≠ 0 →
      ({ c with frame := c.frame.map ({ · with sentLast := none }), decode := pc } : Channel).Locals ∧
        c.Holds (VideoChannel.events c { c with frame := c.frame.map ({ · with sentLast := none }), decode := pc })
          { c with frame := c.frame.map ({ · with sentLast := none }), decode := pc } := by
    intro pc hpc hret
    have hquiet : pc.quiet = true := by rcases hpc with rfl | rfl <;> rfl
    refine ⟨.of_quiet hquiet (by simp [hnull]) ?_ (fun other h => ?_), ⟨[.frame frame.serial], ?_, ?_⟩⟩
    · rcases hpc with rfl | rfl <;> simp [hk, hsome, DecodePc.hasFrame]
    · simp only [hsome, Option.map_some, Option.some.injEq] at h
      rw [← h]
      exact hlt
    · rw [howned]
      simp [VideoChannel.events, VideoChannel.uses, VideoChannel.usesAfter, Channel.frameVariable, Channel.handed, hd, hsome,
        Ownership.step]
    · rw [Channel.decodeOwned_of_quiet hquiet]
      simp [hnull, hsome]
  rw [VideoChannel.decode, hd] at h
  dsimp only at h
  split at h
  case isTrue hagain =>
    cases h
    refine hunref .whileTest (Or.inl rfl) ?_
    rw [hagain]
    decide
  case isFalse =>
    rw [ite_eq_iff] at h
    rcases h with ⟨hret, h⟩ | ⟨hret, h⟩
    · cases h
      exact hunref .leave (Or.inr rfl) hret
    · cases h
      refine ⟨⟨by simp, by simp [hnull], by simp [hk, DecodePc.hasFrame], ?_⟩, ⟨[.frame frame.serial], ?_, ?_⟩⟩
      · intro n hn
        refine hl.fresh n (howned ▸ ?_)
        simpa [Channel.decodeOwned, DecodePc.filterFrame, hnull, hsome] using hn
      · rw [howned]
        simp [VideoChannel.events, VideoChannel.uses, VideoChannel.usesAfter, Channel.frameVariable, Channel.handed, hd,
          hsome, Ownership.step]
      · simp [Channel.decodeOwned, DecodePc.filterFrame, hnull, hsome]

/-- `VideoChannel::decode`, with `doFilter`, does with packets and frames what it may. -/
theorem VideoChannel.events_hold {c c' : Channel} {ret : Int} (hk : c.kind = .video) (hl : c.Locals)
    (h : VideoChannel.decode c ret = some c') : c'.Locals ∧ c.Holds (VideoChannel.events c c') c' := by
  have hsame := h
  unfold VideoChannel.decode at h
  split at h
  case h_1 hd =>
    cases h
    refine ⟨.of_quiet rfl (fun h => by cases h) (by rw [hk]; rfl) (fun frame h => ?_), ⟨[.frame c.frameAllocs], ?_, ?_⟩⟩
    · cases h
      exact Nat.lt_succ_self _
    · simp [VideoChannel.events, VideoChannel.uses, VideoChannel.usesAfter, Channel.handed, Channel.decodeOwned, hd,
        Ownership.step]
    · simp [Channel.decodeOwned, DecodePc.filterFrame]
  case h_2 hd => exact VideoChannel.sendPacket_holds hk hl hd hsame
  case h_3 sent hd => exact VideoChannel.receiveFrame_holds hk hl hd hsame
  case h_4 hd =>
    cases h
    obtain ⟨frame, hsome, hlt⟩ := hl.video_frame hk (by rw [hd]; rfl)
    have hnull : c.packet = none := hl.packet_eq_none (by rw [hd]; rfl)
    refine ⟨⟨by simp, by simp [hnull], by simp [hk, hsome, DecodePc.hasFrame], ?_⟩,
      ⟨[.frame c.frameAllocs, .frame frame.serial], ?_, ?_⟩⟩
    · intro n hn
      simp only [Channel.decodeOwned, DecodePc.filterFrame, hnull, hsome, Option.toList_none, Option.toList_some, List.map_nil,
        List.map_cons, List.nil_append, List.cons_append, List.mem_cons, List.not_mem_nil, or_false, Resource.frame.injEq,
        Nat.add_sub_cancel] at hn
      dsimp only
      omega
    · rw [Channel.decodeOwned_of_inside (by rw [hd]; rfl), hd]
      simp [VideoChannel.events, VideoChannel.uses, VideoChannel.usesAfter, Channel.frameVariable, Channel.handed, hd, hnull,
        hsome, DecodePc.filterFrame, Ownership.step, Nat.ne_of_gt hlt]
    · simp only [Channel.decodeOwned, DecodePc.filterFrame, hnull, hsome, Option.toList_none, Option.toList_some, List.map_nil,
        List.map_cons, List.nil_append, List.cons_append, Nat.add_sub_cancel]
      exact .swap _ _ _
  case h_5 hd =>
    cases h
    obtain ⟨frame, hsome, hlt⟩ := hl.video_frame hk (by rw [hd]; rfl)
    have hnull : c.packet = none := hl.packet_eq_none (by rw [hd]; rfl)
    have howned : c.decodeOwned = [.frame frame.serial, .frame (c.frameAllocs - 1)] := by
      rw [Channel.decodeOwned_of_inside (by rw [hd]; rfl), hd, hnull, hsome]
      rfl
    refine ⟨⟨by simp, by simp [hnull], by simp [hk, hsome, DecodePc.hasFrame], ?_⟩, ⟨_, ?_, .refl _⟩⟩
    · intro n hn
      refine hl.fresh n (howned ▸ ?_)
      simpa [Channel.decodeOwned, DecodePc.filterFrame, hnull, hsome] using hn
    · rw [howned]
      simp [VideoChannel.events, VideoChannel.uses, VideoChannel.usesAfter, Channel.handed, hd, hnull, hsome,
        Channel.decodeOwned, DecodePc.filterFrame, Ownership.step]
  case h_6 pushed hd =>
    have hhanded : c.handed c' = [.pass (.frame pushed.serial)] ∨ c.handed c' = [.free (.frame pushed.serial)] :=
      Channel.handed_of_push (by cases h; rfl) (by cases h; rfl) (by cases h; rfl) (by cases h; rfl) (by cases h; rfl)
    obtain ⟨frame, hsome, hlt⟩ := hl.video_frame hk (by rw [hd]; rfl)
    have hevents : VideoChannel.events c c' = c.handed c' ++ [.use (.frame frame.serial)] := by
      simp [VideoChannel.events, VideoChannel.uses, VideoChannel.usesAfter, Channel.frameVariable, hd, hsome]
    rw [hevents]
    cases h
    have hnull : c.packet = none := hl.packet_eq_none (by rw [hd]; rfl)
    have howned : c.decodeOwned = [.frame frame.serial, .frame pushed.serial] := by
      rw [Channel.decodeOwned_of_inside (by rw [hd]; rfl), hd, hnull, hsome]
      rfl
    refine ⟨.of_quiet rfl (by simp [Channel.pushFrame, hnull]) (by simp [Channel.pushFrame, hk, hsome, DecodePc.hasFrame])
      (fun other h => ?_), ⟨[.frame frame.serial], ?_, ?_⟩⟩
    · simp only [hsome, Option.map_some, Option.some.injEq] at h
      rw [← h]
      exact hlt
    · rw [howned]
      rcases hhanded with hhanded | hhanded <;> rw [hhanded] <;> by_cases hsame : frame.serial = pushed.serial <;>
        simp [hsame, Ownership.step]
    · simp [Channel.decodeOwned, Channel.pushFrame, DecodePc.filterFrame, hnull, hsome]
  case h_7 hd =>
    cases h
    obtain ⟨frame, hsome, hlt⟩ := hl.video_frame hk (by rw [hd]; rfl)
    refine ⟨.of_ended rfl rfl rfl, ⟨[], ?_, ?_⟩⟩
    · rw [Channel.decodeOwned_of_quiet (by rw [hd]; rfl), hsome]
      cases hpacket : c.packet <;>
        simp [VideoChannel.events, VideoChannel.uses, VideoChannel.usesAfter, Channel.handed, Channel.releaseAvPacket,
          Channel.releaseAvFrame, hd, hpacket, hsome, Ownership.step]
    · simp [Channel.decodeOwned]
  case h_8 =>
    rw [(Channel.events_of_head h).2]
    exact Channel.head_holds hl h

namespace Channel

variable {kind : Kind} {c c' : Channel} {a : DecodeAct} {t : Channel × List (OwnEvent Resource)}

/-- What other threads do leaves what the decode thread holds. -/
theorem Meddled.holds (hm : c.Meddled c') (hl : c.Locals) : c'.Locals ∧ c.Holds [] c' := by
  have hsignalled : ∀ pc : DecodePc, (pc.signalled = .notCreated ↔ pc = .notCreated) ∧ pc.signalled.hasPacket = pc.hasPacket ∧
      pc.signalled.hasFrame c.kind = pc.hasFrame c.kind := by
    intro pc
    cases pc with
    | pop pc => cases pc <;> cases c.kind <;> simp [DecodePc.signalled, PopPc.signalled, DecodePc.hasPacket, DecodePc.hasFrame]
    | _ => simp [DecodePc.signalled]
  have hpc : (c'.decode = .notCreated ↔ c.decode = .notCreated) ∧ c'.decode.hasPacket = c.decode.hasPacket ∧
      c'.decode.hasFrame c.kind = c.decode.hasFrame c.kind := by
    rcases hm.decode with hd | hd
    · rw [hd]
      exact ⟨.rfl, rfl, rfl⟩
    · rw [hd]
      exact hsignalled _
  have howned : c'.decodeOwned = c.decodeOwned := by
    unfold decodeOwned
    rw [hm.packet, hm.frame, hm.frameAllocs]
    rcases hm.decode with hd | hd
    · rw [hd]
    · rw [hd]
      cases c.decode <;> rfl
  refine ⟨⟨?_, ?_, ?_, ?_⟩, ⟨_, rfl, howned ▸ .refl _⟩⟩
  · rw [ne_eq, hpc.1]
    exact hl.created
  · rw [hm.packet, hpc.2.1]
    exact hl.packet
  · rw [hm.frame, hm.kind, hpc.2.2]
    exact hl.frame
  · rw [howned, hm.frameAllocs]
    exact hl.fresh

/-- Every step leaves the thread with what it should hold. -/
theorem decode_holds (hl : c.Locals) (hs : (decodeLts kind).step c a c') : c'.Locals ∧ c.Holds (c.events a c') c' := by
  cases a with
  | others => exact Meddled.holds hs hl
  | decode ret =>
    have h : c.act (.decode ret) = some c' := hs
    unfold events
    cases hk : c.kind with
    | audio =>
      simp only [act, hk] at h
      exact AudioChannel.events_hold hk hl h
    | video =>
      simp only [act, hk] at h
      exact VideoChannel.events_hold hk hl h

/-- What is handed on acquires the frames that were allocated. -/
theorem count_handed (c c' : Channel) (n : Nat) : (c.handed c').count (.acquire (.frame n)) =
    if c.frameAllocs ≤ n ∧ n < c'.frameAllocs then 1 else 0 := by
  have hnone : ∀ l : List (OwnEvent Resource), (∀ e ∈ l, e ≠ .acquire (.frame n)) → l.count (.acquire (.frame n)) = 0 :=
    fun l hl => List.count_eq_zero.mpr fun hmem => hl _ hmem rfl
  have hnodup : ((List.range' c.frameAllocs (c'.frameAllocs - c.frameAllocs)).map fun serial =>
      OwnEvent.acquire (Resource.frame serial)).Nodup := (List.nodup_range' 1).map fun _ _ h => by simpa using h
  have hmem : OwnEvent.acquire (Resource.frame n) ∈ (List.range' c.frameAllocs (c'.frameAllocs - c.frameAllocs)).map (fun serial =>
      OwnEvent.acquire (Resource.frame serial)) ↔ c.frameAllocs ≤ n ∧ n < c'.frameAllocs := by
    simp only [List.mem_map, List.mem_range'_1, OwnEvent.acquire.injEq, Resource.frame.injEq, exists_eq_right]
    omega
  unfold handed
  rw [List.count_append, List.count_append, List.count_append, List.count_append, hnone _ (by simp), hnone _ (by simp),
    hnone _ (by simp), hnone _ (by simp), hnodup.count, Nat.zero_add]
  simp only [hmem]

/-- A step acquires the frames that it allocates. -/
theorem count_events (hs : (decodeLts kind).step c a c') (n : Nat) :
    (c.events a c').count (.acquire (.frame n)) = if c.frameAllocs ≤ n ∧ n < c'.frameAllocs then 1 else 0 := by
  have huses : ∀ l : List Resource, (l.map OwnEvent.use).count (.acquire (.frame n)) = 0 :=
    fun l => List.count_eq_zero.mpr (by simp)
  unfold events
  cases a with
  | others =>
    rw [Meddled.frameAllocs hs, if_neg (by omega)]
    rfl
  | decode ret =>
    cases c.kind with
    | audio =>
      dsimp only
      rw [AudioChannel.events, List.count_append, huses, count_handed, Nat.zero_add]
    | video =>
      dsimp only
      rw [VideoChannel.events, List.count_append, List.count_append, huses, huses, count_handed, Nat.zero_add, Nat.add_zero]

/-- No frame that was allocated becomes one that was not. -/
theorem frameAllocs_le (hs : (decodeLts kind).step c a c') : c.frameAllocs ≤ c'.frameAllocs := by
  have hhead : c.decodeHead = some c' → c.frameAllocs ≤ c'.frameAllocs := by
    intro h
    unfold decodeHead at h
    split at h <;> cases h <;> exact Nat.le_refl _
  cases a with
  | others => exact (Meddled.frameAllocs hs).ge
  | decode ret =>
    have h : c.act (.decode ret) = some c' := hs
    cases hk : c.kind with
    | audio =>
      simp only [act, hk, AudioChannel.decode] at h
      split at h
      case h_2 =>
        split at h
        · cases h
        · split at h <;> cases h
          · exact Nat.le_refl _
          · exact Nat.le_succ _
      case h_3 =>
        split at h
        · cases h
          exact Nat.le_refl _
        · split at h <;> cases h <;> exact Nat.le_refl _
      case h_6 => exact hhead h
      all_goals
        cases h
        exact Nat.le_refl _
    | video =>
      simp only [act, hk, VideoChannel.decode] at h
      split at h
      case h_1 | h_4 =>
        cases h
        exact Nat.le_succ _
      case h_2 =>
        split at h
        · cases h
        · split at h <;> cases h <;> exact Nat.le_refl _
      case h_3 =>
        split at h
        · cases h
          exact Nat.le_refl _
        · split at h <;> cases h <;> exact Nat.le_refl _
      case h_8 => exact hhead h
      all_goals
        cases h
        exact Nat.le_refl _

/-- No packet is passed on. -/
theorem keeps_packets (c : Channel) (a : DecodeAct) (c' : Channel) (packet : AVPacket) :
    .pass (.packet packet) ∉ c.events a c' := by
  have hhanded : .pass (.packet packet) ∉ c.handed c' := by simp [handed]
  unfold events
  cases a with
  | others => exact List.not_mem_nil
  | decode ret =>
    cases c.kind with
    | audio => simp [AudioChannel.events, hhanded]
    | video => simp [VideoChannel.events, hhanded]

end Channel

end LibraLive

import LibraLive.Channel

/-!
# What one step of a decode thread does

`DecodeStep` lists the steps of both `decode` loops by what they do to the queues, to the packet in hand and to the record of
packets sent; `decodeStep_of_act` shows that the two functions take no other. `DecodeKeeps` is what every step leaves alone.
-/

namespace LibraLive

/-- Between two packets: before the loop test or in the size check. -/
def DecodePc.testing : DecodePc → Bool
  | .enter | .whileTest | .sizeFlag | .sizeTest => true
  | _ => false

/-- Between the codec call that took a packet and the push of its frame. -/
def DecodePc.decoding : DecodePc → Bool
  | .receiveFrame _ | .addFrame | .getFrame | .push _ => true
  | _ => false

/-- After the loop. -/
def DecodePc.left : DecodePc → Bool
  | .leave | .ended => true
  | _ => false

/-- The codec results on which a decode loop ends: any failure of `avcodec_send_packet`, and a failure of
`avcodec_receive_frame` that the loop has no `continue` for. -/
def breaksDecode (kind : Kind) (pc : DecodePc) (ret : Int) : Bool :=
  match kind, pc with
  | _, .sendPacket => ret ≠ 0
  | .audio, .receiveFrame _ =>
    ret ≠ 0 ∧ ret ≠ AVERROR_EAGAIN ∧ ret ≠ AVERROR_EOF ∧ ret ≠ AVERROR_EINVAL ∧ ret ≠ AVERROR_INPUT_CHANGED
  | .video, .receiveFrame _ => ret ≠ 0 ∧ ret ≠ AVERROR_EAGAIN
  | _, _ => false

/-- The result means success at the call the decode thread is at. -/
def codecSucceeds (pc : DecodePc) (ret : Int) : Bool :=
  match pc with
  | .sendPacket | .receiveFrame _ => ret = 0
  | .addFrame | .getFrame => 0 ≤ ret
  | _ => true

/-- The packet sent last, while no frame received after it has been given to the frames queue. -/
def Channel.inDecoder (c : Channel) : List (Option AVPacket) :=
  match c.decode with
  | .receiveFrame sent => [some sent]
  | .addFrame | .getFrame => [c.frame.bind AVFrame.sentLast]
  | .push frame => [frame.sentLast]
  | _ => []

/-- The part of a channel that no step of its decode thread changes. -/
structure DecodeKeeps (c c' : Channel) : Prop where
  kind : c'.kind = c.kind
  id : c'.id = c.id
  isPlaying : c'.isPlaying = c.isPlaying
  audioChannel : c'.audioChannel = c.audioChannel
  swrContext : c'.swrContext = c.swrContext
  ctl : c'.ctl = c.ctl
  outFrame : c'.outFrame = c.outFrame
  play : c'.play = c.play
  crash : c'.crash = c.crash
  finished : c'.finished = c.finished

/-- The steps of a decode thread. -/
inductive DecodeStep (c : Channel) (ret : Int) (c' : Channel) : Prop where
  | test : c.decode.testing = true → c'.decode.testing = true → c'.packets = c.packets → c'.frames = c.frames →
      c'.output = c.output → c'.sent = c.sent → DecodeStep c ret c'
  | check : c.decode.testing = true → (c.isPlaying = true → c.frames.size ≤ 100) → c'.decode = .pop .call →
      c'.packets = c.packets → c'.frames = c.frames → c'.output = c.output → c'.sent = c.sent → DecodeStep c ret c'
  | quit : (c.decode.testing = true ∨ ∃ r, c.decode = .pop (.returned r)) → c.isPlaying = false → c'.decode = .leave →
      c'.packets = c.packets → c'.frames = c.frames → c'.output = c.output → c'.sent = c.sent → DecodeStep c ret c'
  | pop : c.decode = .pop .call ∨ c.decode = .pop .woken → c' = c.decodePop → DecodeStep c ret c'
  | miss : c.decode = .pop (.returned false) → c.isPlaying = true → c'.decode = .whileTest → c'.packets = c.packets →
      c'.frames = c.frames → c'.output = c.output → c'.sent = c.sent → DecodeStep c ret c'
  | take : c.decode = .pop (.returned true) → c.isPlaying = true → c'.decode = .sendPacket → c'.packet = c.packet →
      c'.packets = c.packets → c'.frames = c.frames → c'.output = c.output → c'.sent = c.sent → DecodeStep c ret c'
  | send (packet : AVPacket) : c.decode = .sendPacket → c.packet = some packet → ret = 0 →
      c'.decode = .receiveFrame packet → c'.packets = c.packets → c'.frames = c.frames → c'.output = c.output →
      c'.sent = c.sent ++ [packet] → DecodeStep c ret c'
  | sendFailed (packet : AVPacket) : c.decode = .sendPacket → c.packet = some packet → ret ≠ 0 → c'.decode = .leave →
      c'.packets = c.packets → c'.frames = c.frames → c'.output = c.output → c'.sent = c.sent ++ [packet] →
      DecodeStep c ret c'
  | noFrame (packet : AVPacket) : c.decode = .receiveFrame packet → ret ≠ 0 →
      c'.decode = (if breaksDecode c.kind c.decode ret then .leave else .whileTest) → c'.packets = c.packets →
      c'.frames = c.frames → c'.output = c.output → c'.sent = c.sent → DecodeStep c ret c'
  | decode : c.decode.decoding = true → c'.decode.decoding = true →
      (codecSucceeds c.decode ret = true → c'.inDecoder = c.inDecoder) → c'.packets = c.packets →
      c'.frames = c.frames → c'.output = c.output → c'.sent = c.sent → DecodeStep c ret c'
  | push (frame : AVFrame) : c.decode = .push frame → c'.decode = .whileTest → c'.packets = c.packets →
      c'.frames = (c.pushFrame frame).frames → c'.output = (c.pushFrame frame).output → c'.sent = c.sent →
      DecodeStep c ret c'
  | leave : c.decode = .leave → c'.decode = .ended → c'.packets = c.packets → c'.frames = c.frames →
      c'.output = c.output → c'.sent = c.sent → DecodeStep c ret c'

attribute [simp] DecodePc.testing DecodePc.decoding DecodePc.left

/-- The shared head of the two loops changes only what belongs to the decode thread. -/
theorem decodeKeeps_of_head {c c' : Channel} (h : c.decodeHead = some c') : DecodeKeeps c c' := by
  unfold Channel.decodeHead at h
  split at h <;> cases h <;> constructor <;> rfl

/-- The shared head of the two loops takes only the listed steps. -/
theorem decodeStep_of_head {c c' : Channel} {ret : Int} (h : c.decodeHead = some c') : DecodeStep c ret c' := by
  unfold Channel.decodeHead at h
  split at h
  case h_1 hd =>
    cases h
    rcases Bool.eq_false_or_eq_true c.isPlaying with hp | hp
    · exact .test (by simp [hd]) (by simp [hp]) rfl rfl rfl rfl
    · exact .quit (Or.inl (by simp [hd])) hp (by simp [hp]) rfl rfl rfl rfl
  case h_2 hd =>
    cases h
    rcases Bool.eq_false_or_eq_true c.isPlaying with hp | hp
    · exact .test (by simp [hd]) (by simp [hp]) rfl rfl rfl rfl
    · exact .check (by simp [hd]) (by simp [hp]) (by simp [hp]) rfl rfl rfl rfl
  case h_3 hd =>
    cases h
    by_cases hs : 100 < c.frames.size
    · exact .test (by simp [hd]) (by simp [hs]) rfl rfl rfl rfl
    · exact .check (by simp [hd]) (fun _ => by omega) (by simp [hs]) rfl rfl rfl rfl
  case h_4 hd =>
    cases h
    exact .pop (Or.inl hd) rfl
  case h_5 hd =>
    cases h
    exact .pop (Or.inr hd) rfl
  case h_6 ret' hd =>
    cases h
    rcases Bool.eq_false_or_eq_true c.isPlaying with hp | hp
    · cases ret' with
      | true => exact .take hd hp (by simp [hp]) rfl rfl rfl rfl rfl
      | false => exact .miss hd hp (by simp [hp]) rfl rfl rfl rfl
    · exact .quit (Or.inr ⟨ret', hd⟩) hp (by simp [hp]) rfl rfl rfl rfl
  case h_7 => cases h

/-- `AudioChannel::decode` changes only what belongs to the decode thread, and takes only the listed steps. -/
theorem AudioChannel.decode_cases {c c' : Channel} {ret : Int} (hk : c.kind = .audio)
    (h : AudioChannel.decode c ret = some c') : DecodeKeeps c c' ∧ DecodeStep c ret c' := by
  unfold AudioChannel.decode at h
  split at h
  case h_1 hd =>
    cases h
    exact ⟨by constructor <;> rfl, .test (by simp [hd]) rfl rfl rfl rfl rfl⟩
  case h_2 hd =>
    split at h
    · cases h
    · rename_i packet hpk
      dsimp only at h
      split at h <;> cases h
      · exact ⟨by constructor <;> rfl, .sendFailed packet hd hpk ‹_› rfl rfl rfl rfl rfl⟩
      · rename_i hr
        exact ⟨by constructor <;> rfl, .send packet hd hpk (not_not.mp hr) rfl rfl rfl rfl rfl⟩
  case h_3 sent hd =>
    split at h
    · rename_i hr
      cases h
      have hz : ret ≠ 0 := by
        rintro rfl
        revert hr
        decide
      have hb : breaksDecode c.kind c.decode ret = false := by
        simp only [breaksDecode, hk, hd, decide_eq_false_iff_not]
        tauto
      exact ⟨by constructor <;> rfl, .noFrame sent hd hz (by rw [hb]; rfl) rfl rfl rfl rfl⟩
    · rename_i hr
      split at h <;> cases h
      · rename_i hz
        have hb : breaksDecode c.kind c.decode ret = true := by
          simp only [breaksDecode, hk, hd, decide_eq_true_eq]
          tauto
        exact ⟨by constructor <;> rfl, .noFrame sent hd hz (by rw [hb]; rfl) rfl rfl rfl rfl⟩
      · exact ⟨by constructor <;> rfl, .decode (by simp [hd]) rfl (fun _ => by simp [Channel.inDecoder, hd]) rfl rfl rfl rfl⟩
  case h_4 frame hd =>
    cases h
    exact ⟨by constructor <;> rfl, .push frame hd rfl rfl rfl rfl rfl⟩
  case h_5 hd =>
    cases h
    exact ⟨by constructor <;> rfl, .leave hd rfl rfl rfl rfl rfl⟩
  case h_6 => exact ⟨decodeKeeps_of_head h, decodeStep_of_head h⟩

/-- `VideoChannel::decode` changes only what belongs to the decode thread, and takes only the listed steps. -/
theorem VideoChannel.decode_cases {c c' : Channel} {ret : Int} (hk : c.kind = .video)
    (h : VideoChannel.decode c ret = some c') : DecodeKeeps c c' ∧ DecodeStep c ret c' := by
  unfold VideoChannel.decode at h
  split at h
  case h_1 hd =>
    cases h
    exact ⟨by constructor <;> rfl, .test (by simp [hd]) rfl rfl rfl rfl rfl⟩
  case h_2 hd =>
    split at h
    · cases h
    · rename_i packet hpk
      dsimp only at h
      split at h <;> cases h
      · exact ⟨by constructor <;> rfl, .sendFailed packet hd hpk ‹_› rfl rfl rfl rfl rfl⟩
      · rename_i hr
        exact ⟨by constructor <;> rfl, .send packet hd hpk (not_not.mp hr) rfl rfl rfl rfl rfl⟩
  case h_3 sent hd =>
    split at h
    · rename_i hr
      cases h
      have hz : ret ≠ 0 := by
        rintro rfl
        revert hr
        decide
      have hb : breaksDecode c.kind c.decode ret = false := by
        simp only [breaksDecode, hk, hd, decide_eq_false_iff_not]
        tauto
      exact ⟨by constructor <;> rfl, .noFrame sent hd hz (by rw [hb]; rfl) rfl rfl rfl rfl⟩
    · rename_i hr
      split at h <;> cases h
      · rename_i hz
        have hb : breaksDecode c.kind c.decode ret = true := by
          simp only [breaksDecode, hk, hd, decide_eq_true_eq]
          tauto
        exact ⟨by constructor <;> rfl, .noFrame sent hd hz (by rw [hb]; rfl) rfl rfl rfl rfl⟩
      · exact ⟨by constructor <;> rfl, .decode (by simp [hd]) rfl (fun _ => by simp [Channel.inDecoder, hd]) rfl rfl rfl rfl⟩
  case h_4 hd =>
    cases h
    exact ⟨by constructor <;> rfl, .decode (by simp [hd]) rfl (fun _ => by simp [Channel.inDecoder, hd]) rfl rfl rfl rfl⟩
  case h_5 hd =>
    cases h
    refine ⟨by constructor <;> rfl, .decode (by simp [hd]) rfl ?_ rfl rfl rfl rfl⟩
    intro hr
    rw [hd] at hr
    simp [Channel.inDecoder, hd, Int.not_lt.mpr (of_decide_eq_true hr)]
  case h_6 frame hd =>
    cases h
    exact ⟨by constructor <;> rfl, .push frame hd rfl rfl rfl rfl rfl⟩
  case h_7 hd =>
    cases h
    exact ⟨by constructor <;> rfl, .leave hd rfl rfl rfl rfl rfl⟩
  case h_8 => exact ⟨decodeKeeps_of_head h, decodeStep_of_head h⟩

/-- Whatever the class of the channel, a step of its decode thread is a listed one. -/
theorem decode_cases {c c' : Channel} {ret : Int} (h : c.act (.decode ret) = some c') :
    DecodeKeeps c c' ∧ DecodeStep c ret c' := by
  cases hk : c.kind with
  | audio =>
    simp only [Channel.act, hk] at h
    exact AudioChannel.decode_cases hk h
  | video =>
    simp only [Channel.act, hk] at h
    exact VideoChannel.decode_cases hk h

end LibraLive

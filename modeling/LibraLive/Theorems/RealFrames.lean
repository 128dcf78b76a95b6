import LibraLive.Lemmas.OutputHand
import LibraLive.Theorems.DecodeBalance
import LibraLive.Theorems.GetPcm

/-!
# Only filled frames are queued

`AudioChannel::decode` pushes the frame that `avcodec_receive_frame` has just filled. `VideoChannel::doFilter` pushes its
filter frame whatever `av_buffersink_get_frame` returned, so there it takes a filter that delivers. An audio channel has no
filter, and a callback of the device has a filled frame in any case (`getPcm_filled`).
-/

namespace LibraLive

/-- A codec or filter call that returned success has filled the frame. -/
def AVFrame.filled (frame : AVFrame) : Bool := frame.sentLast.isSome

/-- The decode thread is in the filter. -/
def DecodePc.filtering : DecodePc → Bool
  | .addFrame | .getFrame => true
  | _ => false

attribute [simp] DecodePc.filtering

@[simp] theorem DecodePc.filtering_signalled (pc : DecodePc) : pc.signalled.filtering = pc.filtering := by
  cases pc with
  | pop p => cases p <;> rfl
  | _ => rfl

namespace Channel

variable {kind : Kind} {c c' : Channel}

/-- The frames that are pushed and queued are filled, and the output thread has a filled frame whenever it uses one. -/
structure RealFrames (c : Channel) : Prop where
  pushed : ∀ frame, c.decode = .push frame → frame.filled = true
  queued : ∀ frame ∈ c.frames.queue.accepted, frame.filled = true
  processed : c.output.showing = true → ∃ frame, c.outFrame = some frame ∧ frame.filled = true

/-- Where the step asks the filter for a picture, it delivers one. -/
def FilterDelivers (c : Channel) (b : ChannelAct) : Prop := ∀ ret, b = .decode ret → c.decode = .getFrame → 0 ≤ ret

/-! ## What the decode thread has received -/

/-- The place to which a step of the shared head of the decode loops leads. -/
theorem head_leads (h : c.decodeHead = some c') : c'.decode.filtering = false ∧ ∀ frame, c'.decode ≠ .push frame := by
  unfold decodeHead at h
  split at h
  case h_7 => cases h
  all_goals
    cases h
    refine ⟨?_, fun frame => ?_⟩ <;> (repeat' split) <;> simp [decodePop]

/-- A step into the filter: the codec has filled the frame, or the frame is the one that was in it already. -/
theorem filtering_leads {ret : Int} (h : VideoChannel.decode c ret = some c') (hf : c'.decode.filtering = true) :
    c'.frame = c.frame ∧ c.decode.filtering = true ∨ ∃ frame, c'.frame = some frame ∧ frame.filled = true := by
  unfold VideoChannel.decode at h
  split at h
  case h_3 sent hd =>
    split at h
    · cases h
      cases hf
    · split at h <;> cases h
      · cases hf
      · exact Or.inr ⟨_, rfl, rfl⟩
  case h_4 hd =>
    cases h
    exact Or.inl ⟨rfl, by rw [hd]; rfl⟩
  case h_2 =>
    split at h
    · cases h
    · dsimp only at h
      split at h <;> cases h <;> cases hf
  case h_8 =>
    rw [(head_leads h).1] at hf
    cases hf
  case h_1 | h_5 | h_6 | h_7 =>
    cases h
    cases hf

/-- In the filter the decode thread has a filled frame. -/
theorem filtering_filled (h : (Channel.lts kind).Reachable c) (hk : c.kind = .video)
    (hf : c.decode.filtering = true) :
    ∃ frame, c.frame = some frame ∧ frame.filled = true := by
  revert hk hf
  refine Lts.Reachable.invariant ?_ ?_ h
  · rintro c ⟨id, rfl⟩ _ hf
    cases hf
  · intro c b c' _ ih hs hk hf
    have hact := (step_eq_some.mp hs).2
    rw [(act_kind_id hact).1] at hk
    by_cases hb : ∃ ret, b = .decode ret
    · obtain ⟨ret, rfl⟩ := hb
      simp only [act, hk] at hact
      rcases filtering_leads hact hf with ⟨hframe, hf⟩ | hfilled
      · rw [hframe]
        exact ih hk hf
      · exact hfilled
    · rcases others_cases (fun ret hret => hb ⟨ret, hret⟩) hact with hm | ⟨-, rfl⟩
      · rw [hm.frame]
        refine ih hk ?_
        rcases hm.decode with hd | hd
        · rw [← hd]
          exact hf
        · rw [hd, DecodePc.filtering_signalled] at hf
          exact hf
      · cases hf

/-! ## What it pushes -/

/-- `AudioChannel::decode` comes to its push with a frame that was filled. -/
theorem audio_pushes {ret : Int} {frame : AVFrame} (h : AudioChannel.decode c ret = some c') (hd : c'.decode = .push frame) :
    frame.filled = true := by
  unfold AudioChannel.decode at h
  split at h
  case h_3 sent _ =>
    split at h
    · cases h
      cases hd
    · split at h <;> cases h <;> cases hd
      rfl
  case h_2 =>
    split at h
    · cases h
    · dsimp only at h
      split at h <;> cases h <;> cases hd
  case h_6 => exact absurd hd ((head_leads h).2 frame)
  case h_1 | h_4 | h_5 =>
    cases h
    cases hd

/-- `doFilter` comes to its push from `av_buffersink_get_frame`, with the frame that call was to fill. -/
theorem video_pushes {ret : Int} {frame : AVFrame} (h : VideoChannel.decode c ret = some c') (hd : c'.decode = .push frame) :
    c.decode = .getFrame ∧ frame.sentLast = if ret < 0 then none else c.frame.bind AVFrame.sentLast := by
  unfold VideoChannel.decode at h
  split at h
  case h_3 =>
    split at h
    · cases h
      cases hd
    · split at h <;> cases h <;> cases hd
  case h_2 =>
    split at h
    · cases h
    · dsimp only at h
      split at h <;> cases h <;> cases hd
  case h_5 hget =>
    cases h
    cases hd
    exact ⟨hget, rfl⟩
  case h_8 => exact absurd hd ((head_leads h).2 frame)
  case h_1 | h_4 | h_6 | h_7 =>
    cases h
    cases hd

/-- Where the filter delivers, what a step of the decode thread is about to push is filled. -/
theorem pushes_filled {ret : Int} {frame : AVFrame} (hr : (Channel.lts kind).Reachable c)
    (hcond : c.FilterDelivers (.decode ret)) (h : c.act (.decode ret) = some c') (hd : c'.decode = .push frame) :
    frame.filled = true := by
  simp only [act] at h
  cases hk : c.kind with
  | audio =>
    simp only [hk] at h
    exact audio_pushes h hd
  | video =>
    simp only [hk] at h
    obtain ⟨hget, hsource⟩ := video_pushes h hd
    obtain ⟨received, hreceived, hfilled⟩ := filtering_filled hr hk (by rw [hget]; rfl)
    have hret : ¬ ret < 0 := Int.not_lt.mpr (hcond ret rfl hget)
    rw [AVFrame.filled, hsource, if_neg hret, hreceived]
    exact hfilled

/-! ## What the output thread uses -/

/-- `getPcm` has a frame at every statement that uses it, if the `pop` that comes back empty-handed finds the flag clear. -/
theorem getPcm_got {i : OutputInput} (hgot : c.output.gotFrame = true → c.outFrame ≠ none)
    (hmissed : c.output = .pop (.returned false) → c.isPlaying = false) (h : AudioChannel.getPcm c i = some c')
    (hgot' : c'.output.gotFrame = true) : c'.outFrame ≠ none := by
  unfold AudioChannel.getPcm at h
  split at h
  case h_1 => split at h <;> cases h <;> cases hgot'
  case h_2 | h_3 =>
    cases h
    exact outputPop_got hgot'
  case h_4 ret ho =>
    split at h <;> cases h
    · cases hgot'
    · rename_i hp
      cases ret with
      | true => exact hgot (by rw [ho]; rfl)
      | false => simp [hmissed ho] at hp
  case h_5 ho =>
    have hframe : c.outFrame ≠ none := hgot (by rw [ho]; rfl)
    split at h
    · cases h
      exact hframe
    · split at h <;> cases h
      · exact hframe
      · cases hgot'
  case h_6 =>
    cases h
    dsimp only at hgot'
    split at hgot' <;> cases hgot'
  case h_7 =>
    cases h
    cases hgot'
  case h_8 => cases h

/-- An output thread that has taken a frame has one in its hand. -/
theorem outFrame_of_gotFrame (h : (Channel.lts kind).Reachable c) (hgot : c.output.gotFrame = true) : c.outFrame ≠ none := by
  revert hgot
  refine Lts.Reachable.invariant ?_ ?_ h
  · rintro c ⟨id, rfl⟩ hgot
    cases hgot
  · intro c b c' hr ih hs hgot
    have hact := (step_eq_some.mp hs).2
    by_cases hb : ∃ i, b = .output i
    · obtain ⟨i, rfl⟩ := hb
      simp only [act] at hact
      cases hk : c.kind with
      | audio =>
        simp only [hk] at hact
        obtain rfl : kind = .audio := (kind_of_reachable hr).symm.trans hk
        exact getPcm_got ih (framesOwned_of_reachable hr).missed hact hgot
      | video =>
        simp only [hk] at hact
        exact VideoChannel.render_got ih hact hgot
    · have ho := outputOthers_of_act (fun i hi => hb ⟨i, hi⟩) hact
      rw [ho.outFrame]
      refine ih ?_
      rcases ho.output with hout | hout | ⟨-, hout⟩ | ⟨-, hout⟩
      · rw [← hout]
        exact hgot
      · rw [hout, OutputPc.gotFrame_signalled] at hgot
        exact hgot
      · rw [hout] at hgot
        cases hgot
      · rw [hout] at hgot
        cases hgot

/-! ## Every run in which the filter delivers -/

/-- The frames pushed and queued are filled, and so is the one in the output thread's variable. -/
structure Filled (c : Channel) : Prop where
  pushed : ∀ frame, c.decode = .push frame → frame.filled = true
  queued : ∀ frame ∈ c.frames.queue.accepted, frame.filled = true
  inHand : ∀ frame, c.outFrame = some frame → frame.filled = true

/-- A channel as constructed has no frames. -/
theorem filled_new (kind : Kind) (id : Int) : Filled (Channel.new kind id) := by
  refine ⟨?_, ?_, ?_⟩
  · intro frame hd
    cases hd
  · intro frame hmem
    cases hmem
  · intro frame hout
    cases hout

/-- A step keeps it so. -/
theorem Filled.step {b : ChannelAct} (hr : (Channel.lts kind).Reachable c) (hcond : c.FilterDelivers b) (hc : Filled c)
    (h : c.act b = some c') : Filled c' := by
  by_cases hb : ∃ i, b = .output i
  · obtain ⟨i, rfl⟩ := hb
    obtain ⟨hkeeps, -⟩ := output_cases h
    refine ⟨?_, ?_, ?_⟩
    · rw [hkeeps.decode]
      exact hc.pushed
    · rw [hkeeps.framesAccepted]
      exact hc.queued
    · rcases output_outFrame h with hout | hout | rfl
      · rw [hout]
        exact hc.inHand
      · intro frame hframe
        rw [hout] at hframe
        cases hframe
      · -- what `pop` takes off the queue was accepted
        intro frame hframe
        have hin : c.outputPop.outFrame = (c.frames.popSection.2.2 <|> c.outFrame) := rfl
        rcases c.frames.popSection_cases with ⟨hp, -, -⟩ | ⟨hp, -, -⟩ | ⟨front, rest, hp, hitems⟩
        · rw [hin, hp] at hframe
          exact hc.inHand frame hframe
        · rw [hin, hp] at hframe
          exact hc.inHand frame hframe
        · rw [hin, hp] at hframe
          cases hframe
          refine hc.queued frame ?_
          rw [← c.frames.queue.conserved, hitems]
          simp
  · have ho := outputOthers_of_act (fun i hi => hb ⟨i, hi⟩) h
    refine ⟨?_, ?_, ?_⟩
    · intro frame hd
      by_cases hdec : ∃ ret, b = .decode ret
      · obtain ⟨ret, rfl⟩ := hdec
        exact pushes_filled hr hcond h hd
      · rcases others_cases (fun ret hret => hdec ⟨ret, hret⟩) h with hm | ⟨-, rfl⟩
        · refine hc.pushed frame ?_
          rcases hm.decode with hsame | hsame
          · exact hsame.symm.trans hd
          · exact (DecodePc.signalled_eq_iff (by simp)).mp (hsame.symm.trans hd)
        · cases hd
    · rcases ho.queue with hq | ⟨_, frame, -, hd, hq⟩
      · rw [hq]
        exact hc.queued
      · rw [hq]
        unfold MessageQueue.push
        split
        · simp only [Fifo.accepted_push, List.forall_mem_append, List.forall_mem_singleton]
          exact ⟨hc.queued, hc.pushed frame hd⟩
        · exact hc.queued
    · rw [ho.outFrame]
      exact hc.inHand

/-- Where the filter delivers whenever it is asked, only filled frames are pushed, queued and processed. -/
theorem real_frames (h : ((Channel.lts kind).restrict FilterDelivers).Reachable c) : RealFrames c := by
  have hfilled : Filled c := by
    refine Lts.Reachable.restrict_invariant ?_ ?_ h
    · rintro c ⟨id, rfl⟩
      exact filled_new kind id
    · intro c b c' hr hcond hc hs
      exact Filled.step hr hcond hc (step_eq_some.mp hs).2
  refine ⟨hfilled.pushed, hfilled.queued, fun hshow => ?_⟩
  have hgot : c.output.gotFrame = true := by
    cases ho : c.output <;> simp [ho] at hshow ⊢
  obtain ⟨frame, hframe⟩ := Option.ne_none_iff_exists'.mp (outFrame_of_gotFrame h.of_restrict hgot)
  exact ⟨frame, hframe, hfilled.inHand frame hframe⟩

/-! ## A filter that does not deliver -/

/-- A video channel is started and decodes one packet, `av_buffersink_get_frame` returns `ret`, and `render` takes the frame. -/
def oneFrameActs (ret : Int) : List ChannelAct :=
  .setAudioChannel true :: List.replicate 5 .start ++ [.push ⟨0, 0, 0⟩] ++ List.replicate 9 (.decode 0) ++
    [.decode ret, .decode 0] ++ List.replicate 4 (.output ⟨.eq, 0, true⟩)

/-- The filter buffers the first picture, and `render` is about to show a frame with nothing in it. -/
theorem empty_frame_queued : ¬ ∀ kind c, (Channel.lts kind).Reachable c → RealFrames c := by
  intro h
  have hrun : (Lts.replay Channel.step (Channel.new .video 0) (oneFrameActs AVERROR_EAGAIN)).map
      (fun c => (c.output.showing, c.outFrame)) = some (true, some ⟨1, none⟩) := rfl
  obtain ⟨c, hc, hstate⟩ := Option.map_eq_some_iff.mp hrun
  obtain ⟨hshow, hframe⟩ := Prod.mk.inj hstate
  have hr : (Channel.lts .video).Reachable c :=
    Lts.replay_reachable (L := Channel.lts .video) (fun _ _ _ h => h) _ (.init ⟨0, rfl⟩) hc
  obtain ⟨frame, hout, hfilled⟩ := (h .video c hr).processed hshow
  obtain rfl : (⟨1, none⟩ : AVFrame) = frame := Option.some.inj (hframe.symm.trans hout)
  cases hfilled

/-- Wherever the condition is not met, the frame that is pushed next is not filled. -/
theorem empty_frame_pushed {b : ChannelAct} (h : c.act b = some c') (hcond : ¬ c.FilterDelivers b) (hk : c.kind = .video) :
    ¬ RealFrames c' := by
  simp only [FilterDelivers, not_forall, Int.not_le] at hcond
  obtain ⟨ret, rfl, hget, hret⟩ := hcond
  intro hreal
  simp only [act, hk, VideoChannel.decode, hget, if_pos hret] at h
  cases h
  cases hreal.pushed _ rfl

/-- The calls of a decode thread all succeed. -/
def callSucceeds (_ : Channel) : ChannelAct → Bool
  | .decode ret => 0 ≤ ret
  | _ => true

/-- The channel of `oneFrameActs`, with a filter that delivers. -/
theorem real_frames_example : ∃ c, ((Channel.lts .video).restrict FilterDelivers).Reachable c ∧
    c.outFrame = some ⟨1, some ⟨0, 0, 0⟩⟩ ∧ RealFrames c := by
  have hrun : (Lts.replayIf Channel.step callSucceeds (Channel.new .video 0) (oneFrameActs 0)).map (·.outFrame) =
      some (some ⟨1, some ⟨0, 0, 0⟩⟩) := rfl
  obtain ⟨c, hc, hframe⟩ := Option.map_eq_some_iff.mp hrun
  have hr : ((Channel.lts .video).restrict FilterDelivers).Reachable c := by
    refine Lts.replayIf_reachable (L := Channel.lts .video) (fun _ _ _ h => h) ?_ _ (.init ⟨0, rfl⟩) hc
    rintro c b hb ret rfl _
    simpa [callSucceeds] using hb
  exact ⟨c, hr, hframe, real_frames hr⟩

/-! ## In a callback -/

/-- The decode thread of an audio channel has no filter. -/
theorem not_filtering (h : (Channel.lts .audio).Reachable c) : c.decode.filtering = false := by
  refine Lts.Reachable.invariant ?_ ?_ h
  · rintro c ⟨id, rfl⟩
    rfl
  · intro c b c' hr ih hs
    have hact := (step_eq_some.mp hs).2
    have hk : c.kind = .audio := kind_of_reachable hr
    by_cases hb : ∃ ret, b = .decode ret
    · obtain ⟨ret, rfl⟩ := hb
      simp only [act, hk] at hact
      unfold AudioChannel.decode at hact
      split at hact
      case h_2 =>
        split at hact
        · cases hact
        · dsimp only at hact
          split at hact <;> cases hact <;> rfl
      case h_3 =>
        split at hact
        · cases hact
          rfl
        · split at hact <;> cases hact <;> rfl
      case h_6 => exact (head_leads hact).1
      case h_1 | h_4 | h_5 =>
        cases hact
        rfl
    · rcases others_cases (fun ret hret => hb ⟨ret, hret⟩) hact with hm | ⟨-, rfl⟩
      · rcases hm.decode with hd | hd
        · rw [hd]
          exact ih
        · rw [hd, DecodePc.filtering_signalled]
          exact ih
      · rfl

/-- So all its frames are filled. -/
theorem filled_audio (h : (Channel.lts .audio).Reachable c) : Filled c := by
  refine Lts.Reachable.invariant ?_ ?_ h
  · rintro c ⟨id, rfl⟩
    exact filled_new .audio id
  · intro c b c' hr hc hs
    refine Filled.step hr ?_ hc (step_eq_some.mp hs).2
    intro ret _ hget
    have hnot := not_filtering hr
    rw [hget] at hnot
    cases hnot

end Channel

/-- Whatever thread runs it, a callback that uses a frame has a filled one. -/
theorem getPcm_filled {s : AudioOutput} (h : AudioOutput.lts.Reachable s) :
    ∀ cb ∈ s.activations, cb.resampling = true → ∃ frame, cb.frame = some frame ∧ frame.filled = true := by
  obtain ⟨c, hc, hs⟩ := standsFor_of_reachable h
  intro cb hcb hres
  obtain ⟨frame, hcbframe, hframe⟩ := AudioOutput.frame_of_resampling hc hs hcb hres
  exact ⟨frame, hcbframe, (Channel.filled_audio hc).inHand frame hframe⟩

end LibraLive

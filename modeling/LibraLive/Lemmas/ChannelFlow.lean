import LibraLive.Lemmas.PlayerPhase

/-!
# What passes through a channel whose codec calls succeed

From `start` to the first statement of `stop`, with every codec and filter call giving one frame for each packet, nothing
gets lost between the two queues of a channel, nor behind the second one: the frames the frames queue accepted, followed by
what is in the decoder, come from the packets sent, and the frames output or dropped as late, followed by the one in hand,
are the frames taken off the queue (`Flowing`). A channel whose queues are empty and whose threads have nothing in hand stays
so until a packet is pushed (`Drained`).
-/

namespace LibraLive

/-- A step in which no codec or filter call fails. -/
def CodecSucceeds (c : Channel) (b : ChannelAct) : Prop := ∀ ret, b = .decode ret → codecSucceeds c.decode ret = true

/-- The decode thread has taken a packet off the queue and not yet pushed its frame. -/
def DecodePc.holds : DecodePc → Bool
  | .pop (.returned true) | .sendPacket | .receiveFrame _ | .addFrame | .getFrame | .push _ => true
  | _ => false

/-- The output thread has taken a frame off the queue and neither output nor dropped it. -/
def OutputPc.holds : OutputPc → Bool
  | .pop (.returned true) | .audioTime | .show | .convert => true
  | _ => false

attribute [simp] DecodePc.holds OutputPc.holds

/-- The frame the output thread has in hand. -/
def Channel.outHand (c : Channel) : List AVFrame := if c.output.holds then c.outFrame.toList else []

/-- Both threads are in their loops, and what came in came out or is in their hands. -/
structure Flowing (c : Channel) : Prop where
  inLoop : c.decode.left = false
  notMissed : c.output ≠ .pop (.returned false)
  decoded : c.frames.queue.accepted.map AVFrame.sentLast ++ c.inDecoder = c.sent.map some
  output : c.finished ++ c.outHand = c.frames.queue.taken

/-! ## Places with nothing in hand -/

/-- A thread in front of the pop has nothing in the decoder. -/
theorem DecodePc.testing_inDecoder {c : Channel} (h : c.decode.testing = true) : c.inDecoder = [] := by
  cases hd : c.decode <;> simp [hd, Channel.inDecoder] at h ⊢

/-- A decode thread with nothing in hand has nothing in the decoder. -/
theorem DecodePc.inDecoder_of_holds {c : Channel} (h : c.decode.holds = false) : c.inDecoder = [] := by
  cases hd : c.decode <;> simp [hd, Channel.inDecoder] at h ⊢

/-- An output thread between two frames has nothing in hand. -/
theorem OutputPc.holds_of_idle {pc : OutputPc} (h : pc.idle = true) : pc.holds = false := by
  cases pc <;> simp at h ⊢

/-- An output thread that shows a frame has it in hand. -/
theorem OutputPc.holds_of_showing {pc : OutputPc} (h : pc.showing = true) : pc.holds = true := by
  cases pc <;> simp at h ⊢

/-- A signal puts nothing in anybody's hands. -/
@[simp] theorem OutputPc.holds_signalled (pc : OutputPc) : pc.signalled.holds = pc.holds := by
  cases pc with
  | pop p => cases p <;> rfl
  | _ => rfl

/-- Nor does it with the decode thread. -/
@[simp] theorem DecodePc.holds_signalled (pc : DecodePc) : pc.signalled.holds = pc.holds := by
  cases pc with
  | pop p => cases p <;> rfl
  | _ => rfl

/-! ## The phases in which a channel flows -/

/-- From the creation of the decode thread to the end of `start` the flag is set and both queues work. -/
theorem CtlPc.works {ctl : CtlPc} (hs : ctl.starting = true) (hd : ctl.decodes = true) (k : Kind) :
    ctl.isPlaying = true ∧ ctl.packetsWork k = true ∧ ctl.framesWork k = true := by
  cases ctl <;> cases k <;> simp at hs hd ⊢

namespace Flowing

variable {c c' : Channel}

/-- A step that leaves the output thread and the frames taken alone, or signals the thread. -/
theorem of_output (hc : Flowing c) (hleft : c'.decode.left = false)
    (hdecoded : c'.frames.queue.accepted.map AVFrame.sentLast ++ c'.inDecoder = c'.sent.map some)
    (ho : c'.output = c.output ∨ c'.output = c.output.signalled) (hf : c'.outFrame = c.outFrame)
    (hfin : c'.finished = c.finished) (ht : c'.frames.queue.taken = c.frames.queue.taken) : Flowing c' := by
  refine ⟨hleft, ?_, hdecoded, ?_⟩
  · rcases ho with ho | ho <;> rw [ho]
    · exact hc.notMissed
    · rw [Ne, OutputPc.signalled_eq_missed]
      exact hc.notMissed
  · have hhand : c'.outHand = c.outHand := by
      rcases ho with ho | ho
      · rw [Channel.outHand, Channel.outHand, ho, hf]
      · rw [Channel.outHand, Channel.outHand, ho, hf, OutputPc.holds_signalled]
    rw [hfin, hhand, ht]
    exact hc.output

/-- A step that leaves the decode thread, its variables and the frames accepted alone, or signals the thread. -/
theorem of_decode (hc : Flowing c) (hd : c'.decode = c.decode ∨ c'.decode = c.decode.signalled)
    (hf : c'.frame = c.frame) (ha : c'.frames.queue.accepted = c.frames.queue.accepted) (hs : c'.sent = c.sent)
    (hmiss : c'.output ≠ .pop (.returned false)) (ho : c'.finished ++ c'.outHand = c'.frames.queue.taken) :
    Flowing c' := by
  refine ⟨?_, hmiss, ?_, ho⟩
  · have hl := hc.inLoop
    rcases hd with hd | hd <;> rw [hd]
    · exact hl
    · cases hpc : c.decode <;> simp [hpc, DecodePc.signalled] at hl ⊢
  · have hin : c'.inDecoder = c.inDecoder := by
      rcases hd with hd | hd
      · simp [Channel.inDecoder, hd, hf]
      · cases hpc : c.decode <;> simp [Channel.inDecoder, hd, hf, hpc, DecodePc.signalled]
    rw [ha, hin, hs]
    exact hc.decoded

/-- A channel that flows before a step that leaves the frames and the packets sent alone, with nothing in the decoder before
and after. -/
theorem decoded_of_same (hc : Flowing c) (hin : c.inDecoder = []) (hin' : c'.inDecoder = [])
    (hf : c'.frames = c.frames) (hs : c'.sent = c.sent) :
    c'.frames.queue.accepted.map AVFrame.sentLast ++ c'.inDecoder = c'.sent.map some := by
  have hdecoded := hc.decoded
  rw [hin] at hdecoded
  rw [hf, hin', hs]
  exact hdecoded

/-- The decode thread of a channel that plays loses nothing between the two queues. -/
theorem decode_step {ret : Int} (hc : Flowing c) (hph : Phased c) (hst : c.ctl.starting = true)
    (hret : codecSucceeds c.decode ret = true) (h : c.act (.decode ret) = some c') : Flowing c' := by
  obtain ⟨hk, hs⟩ := decode_cases h
  obtain ⟨hplays, -, hworks⟩ := CtlPc.works hst (hph.decode.mp hs.created.1) c.kind
  rw [← hph.playing] at hplays
  rw [← hph.frames] at hworks
  have hsame : c'.decode.left = false →
      c'.frames.queue.accepted.map AVFrame.sentLast ++ c'.inDecoder = c'.sent.map some →
      c'.frames.queue.taken = c.frames.queue.taken → Flowing c' := fun hl hdec ht =>
    hc.of_output hl hdec hs.output hk.outFrame hk.finished ht
  cases hs with
  | test hd hd' _ hf _ hsent =>
    refine hsame ?_ (hc.decoded_of_same (DecodePc.testing_inDecoder hd) (DecodePc.testing_inDecoder hd') hf hsent)
      (by rw [hf])
    cases hpc : c'.decode <;> simp [hpc] at hd' ⊢
  | check hd _ hd' _ hf _ hsent =>
    exact hsame (by simp [hd']) (hc.decoded_of_same (DecodePc.testing_inDecoder hd) (by simp [Channel.inDecoder, hd']) hf
      hsent) (by rw [hf])
  | quit _ hp => exact absurd (hplays.symm.trans hp) (by simp)
  | pop hd hc' =>
    subst hc'
    have hin : c.inDecoder = [] := by rcases hd with hd | hd <;> simp [Channel.inDecoder, hd]
    exact hsame rfl (hc.decoded_of_same hin rfl rfl rfl) rfl
  | miss hd _ hd' _ hf _ hsent =>
    exact hsame (by simp [hd']) (hc.decoded_of_same (by simp [Channel.inDecoder, hd]) (by simp [Channel.inDecoder, hd'])
      hf hsent) (by rw [hf])
  | take hd _ hd' _ _ hf _ hsent =>
    exact hsame (by simp [hd']) (hc.decoded_of_same (by simp [Channel.inDecoder, hd]) (by simp [Channel.inDecoder, hd'])
      hf hsent) (by rw [hf])
  | send packet hd _ _ hd' _ hf _ hsent =>
    refine hsame (by simp [hd']) ?_ (by rw [hf])
    have hdecoded := hc.decoded
    rw [show c.inDecoder = [] by simp [Channel.inDecoder, hd], List.append_nil] at hdecoded
    rw [hf, hsent, hdecoded, List.map_append]
    simp [Channel.inDecoder, hd']
  | sendFailed packet hd _ hz =>
    rw [hd] at hret
    exact absurd (of_decide_eq_true hret) hz
  | noFrame packet hd hz =>
    rw [hd] at hret
    exact absurd (of_decide_eq_true hret) hz
  | decode hd hd' hin _ hf _ hsent =>
    refine hsame ?_ ?_ (by rw [hf])
    · cases hpc : c'.decode <;> simp [hpc] at hd' ⊢
    · rw [hf, hin hret, hsent]
      exact hc.decoded
  | push frame hd hd' _ hf _ hsent =>
    have hpush : c'.frames.queue = c.frames.queue.push frame := by
      rw [hf, Channel.pushFrame, MessageQueue.push_of_working hworks]
    refine hsame (by simp [hd']) ?_ (by rw [hpush]; rfl)
    have hdecoded := hc.decoded
    rw [show c.inDecoder = [frame.sentLast] by simp [Channel.inDecoder, hd]] at hdecoded
    rw [hpush, hsent, ← hdecoded, show c'.inDecoder = [] by simp [Channel.inDecoder, hd']]
    simp
  | leave hd =>
    have hl := hc.inLoop
    simp [hd] at hl

/-- A section of `frames.pop` puts in hand what it takes off a working queue. -/
theorem outputPop (hc : Flowing c) (hworks : c.frames.state = true) (ho : c.output = .pop .call ∨ c.output = .pop .woken) :
    Flowing c.outputPop := by
  have hnil : c.outHand = [] := by rcases ho with ho | ho <;> simp [Channel.outHand, ho]
  have hout := hc.output
  rw [hnil, List.append_nil] at hout
  have hmiss : c.outputPop.output ≠ .pop (.returned false) := by
    rcases c.frames.popSection_cases with ⟨he, -, -⟩ | ⟨-, -, hst⟩ | ⟨v, rest, he, -⟩
    · simp [Channel.outputPop, he]
    · rw [hworks] at hst
      cases hst
    · simp [Channel.outputPop, he]
  have hhand : c.outputPop.outHand = c.frames.popSection.2.2.toList := by
    rcases c.frames.popSection_cases with ⟨he, -, -⟩ | ⟨he, -, -⟩ | ⟨v, rest, he, -⟩ <;>
      simp [Channel.outputPop, Channel.outHand, he]
  refine hc.of_decode (Or.inl rfl) rfl (MessageQueue.accepted_popSection c.frames) rfl hmiss ?_
  rw [hhand, show c.outputPop.finished = c.finished from rfl, hout]
  exact (MessageQueue.taken_popSection c.frames).symm

/-- The output thread of a channel that plays outputs or drops every frame it takes. -/
theorem output_step {i : OutputInput} (hc : Flowing c) (hph : Phased c) (hst : c.ctl.starting = true)
    (h : c.act (.output i) = some c') : Flowing c' := by
  obtain ⟨hk, hs⟩ := output_cases h
  have hdecodes : c.ctl.decodes = true := by
    have hout := hph.output.mp hs.created.1
    cases hctl : c.ctl <;> simp [hctl] at hout ⊢
  obtain ⟨hplays, -, hworks⟩ := CtlPc.works hst hdecodes c.kind
  rw [← hph.playing] at hplays
  rw [← hph.frames] at hworks
  have hsame : c'.output ≠ .pop (.returned false) → c'.finished ++ c'.outHand = c'.frames.queue.taken → Flowing c' :=
    hc.of_decode (Or.inl hk.decode) hk.frame hk.framesAccepted hk.sent
  have hold := hc.output
  cases hs with
  | idle hidle hidle' _ _ _ hf hfin =>
    rw [Channel.outHand, OutputPc.holds_of_idle hidle] at hold
    have hholds : c'.output.holds = false := by
      rcases hidle' with ho | ho
      · exact OutputPc.holds_of_idle ho
      · simp [ho]
    refine hsame ?_ ?_
    · rcases hidle' with ho | ho
      · intro he
        simp [he] at ho
      · simp [ho]
    · rw [Channel.outHand, hholds, hfin, hf]
      exact hold
  | pop ho hc' =>
    subst hc'
    exact hc.outputPop hworks ho
  | quit _ _ hp => exact absurd (hplays.symm.trans hp) (by simp)
  | miss ho => exact absurd ho hc.notMissed
  | take ho _ hshow _ hof hf hfin =>
    refine hsame ?_ ?_
    · intro he
      simp [he] at hshow
    · rw [Channel.outHand, OutputPc.holds_of_showing hshow, hof, hf, hfin]
      rwa [Channel.outHand, ho] at hold
  | onTime ho ho' _ hof hf hfin =>
    refine hsame (by simp [ho']) ?_
    rw [Channel.outHand, ho', hof, hf, hfin]
    rwa [Channel.outHand, ho] at hold
  | finish hshow hidle _ _ _ hf hfin =>
    have hholds : c'.output.holds = false := by
      rcases hidle with ho | ho
      · simp [ho]
      · exact OutputPc.holds_of_idle ho
    refine hsame ?_ ?_
    · intro he
      simp [he] at hidle
    · rw [Channel.outHand, OutputPc.holds_of_showing hshow] at hold
      rw [Channel.outHand, hholds, hf, hfin, ← hold]
      simp
  | sync ho hc' =>
    subst hc'
    refine hsame (by simp) ?_
    rw [Channel.outHand, ho] at hold
    have htaken : c.frames.queue.taken = c.finished := by simpa using hold.symm
    have htake := taken_dropAvFrame c.frames.queue
    rw [htaken] at htake
    simpa [Channel.outHand, Channel.framesSync, MessageQueue.sync] using htake.symm
  | crash reason hshow hc' =>
    subst hc'
    exact hsame hc.notMissed hold

/-- The statements of `start` move nothing. -/
theorem ctl_step (hc : Flowing c) (h : CtlStep c c') (hst : c'.ctl.starting = true) (hph : Phased c) : Flowing c' := by
  cases h with
  | createDecode hctl hc' =>
    subst hc'
    have hd : c.decode = .notCreated := by
      by_contra hne
      have hdec := hph.decode.mp hne
      simp [hctl] at hdec
    exact hc.of_output rfl (hc.decoded_of_same (by simp [Channel.inDecoder, hd]) rfl rfl rfl) (Or.inl rfl) rfl rfl rfl
  | createOutput play hctl hc' =>
    subst hc'
    have ho : c.output = .notCreated := by
      by_contra hne
      have hout := hph.output.mp hne
      simp [hctl] at hout
    have hold := hc.output
    rw [Channel.outHand, ho] at hold
    exact hc.of_decode (Or.inl rfl) rfl rfl rfl (by simp) hold
  | packetsGotoWork _ _ hc' =>
    subst hc'
    exact hc.of_decode (Or.inr rfl) rfl rfl rfl hc.notMissed hc.output
  | framesGotoWork _ _ hc' =>
    subst hc'
    exact hc.of_output hc.inLoop hc.decoded (Or.inr rfl) rfl rfl rfl
  | setFlag _ hc' =>
    subst hc'
    exact hc.of_output hc.inLoop hc.decoded (Or.inl rfl) rfl rfl rfl
  | clearFlag _ hc' | freeSwr _ _ hc' | destroy _ _ hc' =>
    subst hc'
    cases hst
  | packetsBackWork _ hctl hc' | framesBackWork _ hctl hc' =>
    subst hc'
    rcases hctl with ⟨-, -, rfl⟩ | ⟨-, -, rfl⟩ <;> cases hst
  | join _ hctl hc' =>
    subst hc'
    rcases hctl with ⟨-, -, rfl⟩ | ⟨-, -, rfl⟩ | ⟨-, -, rfl⟩ <;> cases hst

/-- Up to the end of `start`, a step in which no call fails loses nothing. -/
theorem step {b : ChannelAct} (hc : Flowing c) (hph : Phased c) (hst : c.ctl.starting = true) (hb : CodecSucceeds c b)
    (hst' : c'.ctl.starting = true) (h : c.act b = some c') : Flowing c' := by
  cases b with
  | decode ret => exact hc.decode_step hph hst (hb ret rfl) h
  | output i => exact hc.output_step hph hst h
  | start => exact hc.ctl_step (start_cases h).1 hst' hph
  | stop => exact hc.ctl_step (stop_cases h) hst' hph
  | wakeDecode =>
    simp only [Channel.act, Option.ite_none_right_eq_some, Option.some.injEq] at h
    obtain ⟨hd, rfl⟩ := h
    refine hc.of_decode (Or.inr ?_) rfl rfl rfl hc.notMissed hc.output
    rw [hd]
    rfl
  | wakeOutput =>
    simp only [Channel.act, Option.ite_none_right_eq_some, Option.some.injEq] at h
    obtain ⟨ho, rfl⟩ := h
    refine hc.of_output hc.inLoop hc.decoded (Or.inr ?_) rfl rfl rfl
    rw [ho]
    rfl
  | playReturn | setAudioChannel channel =>
    simp only [Channel.act, Option.ite_none_right_eq_some, Option.some.injEq] at h
    obtain ⟨-, rfl⟩ := h
    exact hc.of_output hc.inLoop hc.decoded (Or.inl rfl) rfl rfl rfl
  | push packet =>
    simp only [Channel.act, Option.some.injEq] at h
    subst h
    refine hc.of_decode ?_ rfl rfl rfl hc.notMissed hc.output
    dsimp only [Channel.pushPacket]
    split
    · exact Or.inr rfl
    · exact Or.inl rfl

end Flowing

/-- A step that does not begin or go on with `stop` finds the channel in a phase up to the end of `start`, if it leaves it
there. -/
theorem Channel.starting_of_act {c c' : Channel} {b : ChannelAct} (h : c.act b = some c')
    (hst : c'.ctl.starting = true) : c.ctl.starting = true := by
  by_cases hb : b = .start
  · subst hb
    exact (Channel.act_start_ctl h).1
  by_cases hb' : b = .stop
  · subst hb'
    obtain ⟨-, hstop, hflag⟩ := Channel.act_stop_ctl h
    cases hctl : c'.ctl <;> simp [hctl] at hst hstop hflag
  · rwa [← Channel.act_ctl ⟨hb, hb'⟩ h]

/-- In every run of a channel in which no codec or filter call fails, nothing is lost up to the first statement of `stop`. -/
theorem flowing_of_reachable {kind : Kind} {c : Channel} (h : ((Channel.lts kind).restrict CodecSucceeds).Reachable c)
    (hst : c.ctl.starting = true) : Flowing c := by
  refine Lts.Reachable.restrict_invariant (I := fun c => c.ctl.starting = true → Flowing c) ?_ ?_ h hst
  · rintro c ⟨id, rfl⟩ -
    exact ⟨rfl, by simp [Channel.new], rfl, rfl⟩
  · intro c b c' hr hb hc hs hst'
    obtain ⟨-, hact⟩ := Channel.step_eq_some.mp hs
    have hst := Channel.starting_of_act hact hst'
    exact (hc hst).step (phased_of_reachable hr) hst hb hst' hact

/-! ## A channel with nothing in it -/

/-- Both queues are empty and neither thread has anything in hand. -/
structure Drained (c : Channel) : Prop where
  packets : c.packets.queue.items = []
  frames : c.frames.queue.items = []
  decode : c.decode.holds = false
  output : c.output.holds = false

namespace Drained

variable {c c' : Channel}

/-- A section of `pop` on an empty queue takes nothing. -/
theorem popSection_of_empty {α : Type*} {q : MessageQueue α} (h : q.queue.items = []) :
    q.popSection.2.1 = q ∧ q.popSection.1 ≠ .returned true := by
  rcases q.popSection_cases with ⟨he, -, -⟩ | ⟨he, -, -⟩ | ⟨v, rest, -, hi⟩
  · rw [he]
    exact ⟨rfl, by simp⟩
  · rw [he]
    exact ⟨rfl, by simp⟩
  · rw [h] at hi
    cases hi

/-- A decode thread with nothing in hand gets nothing from an empty queue. -/
theorem decode_step {ret : Int} (hc : Drained c) (h : c.act (.decode ret) = some c') : Drained c' := by
  obtain ⟨-, hs⟩ := decode_cases h
  have hnot := hc.decode
  have hsame : c'.packets = c.packets → c'.frames = c.frames → c'.decode.holds = false → c'.output = c.output →
      Drained c' := by
    intro hp hf hd ho
    refine ⟨?_, ?_, hd, ?_⟩
    · rw [hp]
      exact hc.packets
    · rw [hf]
      exact hc.frames
    · rw [ho]
      exact hc.output
  cases hs with
  | test _ hd' hp hf ho =>
    refine hsame hp hf ?_ ho
    cases hpc : c'.decode <;> simp [hpc] at hd' ⊢
  | check _ _ hd' hp hf ho | quit _ _ hd' hp hf ho | miss _ _ hd' hp hf ho | leave _ hd' hp hf ho =>
    exact hsame hp hf (by simp [hd']) ho
  | pop _ hc' =>
    subst hc'
    obtain ⟨hq, hpc⟩ := popSection_of_empty hc.packets
    refine ⟨?_, hc.frames, ?_, hc.output⟩
    · rw [Channel.decodePop, hq]
      exact hc.packets
    · rw [Channel.decodePop]
      cases hsec : c.packets.popSection.1 with
      | returned ret =>
        cases ret with
        | true => exact absurd hsec hpc
        | false => rfl
      | _ => rfl
  | take hd | send _ hd | sendFailed _ hd | noFrame _ hd | push _ hd => simp [hd] at hnot
  | decode hd => cases hpc : c.decode <;> simp [hpc] at hd hnot

/-- An output thread with nothing in hand gets nothing from an empty working queue. -/
theorem output_step {i : OutputInput} (hc : Drained c) (hmiss : c.output ≠ .pop (.returned false))
    (h : c.act (.output i) = some c') : Drained c' := by
  obtain ⟨hk, hs⟩ := output_cases h
  have hnot := hc.output
  have hsame : c'.frames = c.frames → c'.output.holds = false → Drained c' := by
    intro hf ho
    refine ⟨?_, ?_, ?_, ho⟩
    · rw [hk.packets]
      exact hc.packets
    · rw [hf]
      exact hc.frames
    · rw [hk.decode]
      exact hc.decode
  cases hs with
  | idle _ hidle' _ _ _ hf =>
    refine hsame hf ?_
    rcases hidle' with ho | ho
    · exact OutputPc.holds_of_idle ho
    · simp [ho]
  | pop _ hc' =>
    subst hc'
    obtain ⟨hq, hpc⟩ := popSection_of_empty hc.frames
    refine hsame hq ?_
    rw [Channel.outputPop]
    cases hsec : c.frames.popSection.1 with
    | returned ret =>
      cases ret with
      | true => exact absurd hsec hpc
      | false => rfl
    | _ => rfl
  | quit _ _ _ ho' _ hf =>
    refine hsame hf ?_
    rcases ho' with ho' | ⟨-, ho'⟩ <;> simp [ho']
  | miss ho => exact absurd ho hmiss
  | sync _ hc' =>
    subst hc'
    refine ⟨hc.packets, ?_, hc.decode, rfl⟩
    change (dropAvFrame c.frames.queue).1.items = []
    rw [items_dropAvFrame, hc.frames]
    rfl
  | take ho | onTime ho => simp [ho] at hnot
  | finish hshow => rw [OutputPc.holds_of_showing hshow] at hnot; cases hnot
  | crash _ hshow => rw [OutputPc.holds_of_showing hshow] at hnot; cases hnot

/-- A drained channel stays so, whatever its threads do, while no packet is pushed. -/
theorem step {b : ChannelAct} (hc : Drained c) (hmiss : c.output ≠ .pop (.returned false)) (hown : b.own = true)
    (h : c.act b = some c') : Drained c' := by
  cases b with
  | decode ret => exact hc.decode_step h
  | output i => exact hc.output_step hmiss h
  | wakeDecode =>
    simp only [Channel.act, Option.ite_none_right_eq_some, Option.some.injEq] at h
    obtain ⟨-, rfl⟩ := h
    exact ⟨hc.packets, hc.frames, rfl, hc.output⟩
  | wakeOutput =>
    simp only [Channel.act, Option.ite_none_right_eq_some, Option.some.injEq] at h
    obtain ⟨-, rfl⟩ := h
    exact ⟨hc.packets, hc.frames, hc.decode, rfl⟩
  | playReturn =>
    simp only [Channel.act, Option.ite_none_right_eq_some, Option.some.injEq] at h
    obtain ⟨-, rfl⟩ := h
    exact ⟨hc.packets, hc.frames, hc.decode, hc.output⟩
  | start | stop | push packet | setAudioChannel channel => cases hown

end Drained

end LibraLive

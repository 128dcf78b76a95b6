import Mathlib.Data.List.ReduceOption
import LibraLive.Lemmas.ChannelFlow
import LibraLive.Lemmas.OutputHand
import LibraLive.Theorems.Routing
import LibraLive.Theorems.RealFrames

/-!
# What is seen and heard, in the order of the decode thread

The frames that `render` hands to the window and `getPcm` to the resampler, recorded along a run of the player. Whatever the
codec and the filter return and whenever `stop` comes, the record is in the order in which the decode thread pushed the
frames, and each was received after another packet had been sent, in the order in which these were read; the order of the
pictures in the frames is the codec's. Three sequences hang together, each one a subsequence of the next: what was put out and
what was taken off the frames queue (`OutputInOrder`), the packets sent before what the queue accepted and all that were sent
to the codec (`ReceivedInOrder`), what was sent and what was read (`SentInOrder`, `Routed`).
-/

namespace LibraLive

/-- The frames that a step hands to the window or to the resampler. -/
def Channel.putOut (c : Channel) : ChannelAct → List AVFrame
  | .output _ =>
    match c.output with
    | .show => c.outFrame.toList
    | .convert => if c.swrContext then c.outFrame.toList else []
    | _ => []
  | _ => []

/-- The frames that a step of the player hands on for the channel of a kind. -/
def Player.putOut (k : Kind) (s : Player) : PlayerAct → List AVFrame
  | .channel k' b => if k' = k then (s.channel k).elim [] (·.putOut b) else []
  | _ => []

/-! ## From the frames queue to the output -/

/-- What was output or dropped as late, followed by what is in hand, was taken off the queue in this order. -/
def OutputInOrder (c : Channel) : Prop := (c.finished ++ c.outHand).Sublist c.frames.queue.taken

namespace OutputInOrder

variable {c c' : Channel}

/-- A thread that has nothing in hand any more still has put out in order. -/
theorem of_nil (hc : OutputInOrder c) (hfin : c'.finished = c.finished)
    (ht : c'.frames.queue.taken = c.frames.queue.taken) (hhand : c'.outHand = []) : OutputInOrder c' := by
  unfold OutputInOrder
  rw [hfin, hhand, List.append_nil, ht]
  exact (List.sublist_append_left _ _).trans hc

/-- So has one that has in hand what it had. -/
theorem of_same (hc : OutputInOrder c) (hfin : c'.finished = c.finished)
    (ht : c'.frames.queue.taken = c.frames.queue.taken) (hhand : c'.outHand = c.outHand) : OutputInOrder c' := by
  unfold OutputInOrder
  rw [hfin, hhand, ht]
  exact hc

/-- A section of `frames.pop` puts in hand what it takes off the queue. -/
theorem outputPop (hc : OutputInOrder c) : OutputInOrder c.outputPop := by
  have hhand : c.outputPop.outHand.Sublist c.frames.popSection.2.2.toList := by
    rcases c.frames.popSection_cases with ⟨hp, -, -⟩ | ⟨hp, -, -⟩ | ⟨v, rest, hp, -⟩ <;>
      simp [Channel.outputPop, Channel.outHand, hp]
  have hfin : c.finished.Sublist c.frames.queue.taken := (List.sublist_append_left _ _).trans hc
  change (c.finished ++ c.outputPop.outHand).Sublist c.frames.popSection.2.1.queue.taken
  rw [MessageQueue.taken_popSection]
  exact hfin.append hhand

/-- The output thread puts out what it takes, in order; an audio channel that goes on without a frame has none. -/
theorem output_step {i : OutputInput} (hc : OutputInOrder c) (hmiss : c.output = .pop (.returned false) →
    c'.output = .convert → c.outFrame = none) (h : c.act (.output i) = some c') : OutputInOrder c' := by
  obtain ⟨-, hs⟩ := output_cases h
  cases hs with
  | idle _ hidle _ _ _ hf hfin =>
    refine hc.of_nil hfin (by rw [hf]) ?_
    rcases hidle with ho | ho
    · rw [Channel.outHand, OutputPc.holds_of_idle ho]
      rfl
    · rw [Channel.outHand, ho]
      rfl
  | pop _ hc' =>
    subst hc'
    exact hc.outputPop
  | quit r _ _ hq _ hf hfin =>
    refine hc.of_nil hfin (by rw [hf]) ?_
    rcases hq with ho | ⟨-, ho⟩ <;> simp [Channel.outHand, ho]
  | miss ho _ hq _ hof hf hfin =>
    refine hc.of_nil hfin (by rw [hf]) ?_
    rcases hq with ho' | ho'
    · simp [Channel.outHand, ho']
    · simp [Channel.outHand, hof, hmiss ho ho']
  | take ho _ hshow _ hof hf hfin =>
    refine hc.of_same hfin (by rw [hf]) ?_
    rw [Channel.outHand, Channel.outHand, OutputPc.holds_of_showing hshow, ho, hof]
    rfl
  | onTime ho ho' _ hof hf hfin =>
    refine hc.of_same hfin (by rw [hf]) ?_
    rw [Channel.outHand, Channel.outHand, ho, ho', hof]
    rfl
  | finish hshow hidle _ _ _ hf hfin =>
    have hholds : c'.output.holds = false := by
      rcases hidle with ho | ho
      · simp [ho]
      · exact OutputPc.holds_of_idle ho
    have hhand : c.outHand = c.outFrame.toList := by rw [Channel.outHand, OutputPc.holds_of_showing hshow, if_pos rfl]
    unfold OutputInOrder
    rw [hfin, Channel.outHand, hholds, hf, ← hhand]
    simpa [OutputInOrder] using hc
  | sync ho hc' =>
    subst hc'
    have hfin : c.finished.Sublist c.frames.queue.taken := (List.sublist_append_left _ _).trans hc
    have htake := taken_dropAvFrame c.frames.queue
    change ((c.finished ++ (dropAvFrame c.frames.queue).2) ++ []).Sublist (dropAvFrame c.frames.queue).1.taken
    rw [List.append_nil, htake]
    exact hfin.append (List.Sublist.refl _)
  | crash reason hshow hc' =>
    subst hc'
    exact hc

end OutputInOrder

/-- A statement of `start` or `stop` finishes nothing. -/
theorem CtlStep.finished {c c' : Channel} (h : CtlStep c c') : c'.finished = c.finished := by
  cases h <;> rename_i hc <;> subst hc <;> rfl

/-- A step that is not the output thread's finishes nothing. -/
theorem Channel.act_finished {c c' : Channel} {b : ChannelAct} (hb : ∀ i, b ≠ .output i) (h : c.act b = some c') :
    c'.finished = c.finished := by
  cases b with
  | output i => exact absurd rfl (hb i)
  | decode ret => exact (decode_cases h).1.finished
  | start => exact (start_cases h).1.finished
  | stop => exact (stop_cases h).finished
  | wakeDecode | wakeOutput | playReturn | setAudioChannel channel =>
    simp only [Channel.act, Option.ite_none_right_eq_some, Option.some.injEq] at h
    obtain ⟨-, rfl⟩ := h
    rfl
  | push packet =>
    simp only [Channel.act, Option.some.injEq] at h
    subst h
    rfl

/-- A step of another thread takes no frame off the queue and leaves the hand of the output thread alone, or empties it. -/
theorem OutputInOrder.others {c c' : Channel} {b : ChannelAct} (hc : OutputInOrder c) (hb : ∀ i, b ≠ .output i)
    (h : c.act b = some c') : OutputInOrder c' := by
  have ho := outputOthers_of_act hb h
  have hfin := Channel.act_finished hb h
  have ht : c'.frames.queue.taken = c.frames.queue.taken := by
    rcases ho.queue with hq | ⟨ret, frame, -, -, hf⟩
    · rw [hq]
    · rw [hf, MessageQueue.push]
      split <;> rfl
  rcases ho.output with hout | hout | ⟨-, hout⟩ | ⟨-, hout⟩
  · exact hc.of_same hfin ht (by rw [Channel.outHand, Channel.outHand, hout, ho.outFrame])
  · exact hc.of_same hfin ht (by rw [Channel.outHand, Channel.outHand, hout, ho.outFrame, OutputPc.holds_signalled])
  · exact hc.of_nil hfin ht (by rw [Channel.outHand, hout]; rfl)
  · exact hc.of_nil hfin ht (by rw [Channel.outHand, hout]; rfl)

/-- The packets sent right before the frames the queue accepted, followed by the one behind the frame in the decode thread's
hands, were sent in this order. -/
def ReceivedInOrder (c : Channel) : Prop :=
  (c.frames.queue.accepted.filterMap AVFrame.sentLast ++ c.inDecoder.reduceOption).Sublist c.sent

/-- What is in the decoder stays in it, or is lost, until it is pushed. -/
theorem Channel.inDecoder_step {c c' : Channel} {ret : Int} (h : c.act (.decode ret) = some c')
    (hd : c.decode.decoding = true) (hd' : c'.decode.decoding = true) :
    (c'.inDecoder.reduceOption).Sublist (c.inDecoder.reduceOption) := by
  have hhead : c.decodeHead = none := by
    unfold Channel.decodeHead
    cases hpc : c.decode <;> simp [hpc] at hd ⊢
  simp only [Channel.act] at h
  cases hk : c.kind with
  | audio =>
    simp only [hk] at h
    unfold AudioChannel.decode at h
    split at h
    case h_3 sent hpc =>
      split at h
      · cases h
        simp at hd'
      · split at h <;> cases h
        · simp at hd'
        · simp [Channel.inDecoder, hpc]
    case h_6 => rw [hhead] at h; cases h
    case h_1 hpc | h_2 hpc | h_5 hpc => simp [hpc] at hd
    case h_4 hpc =>
      cases h
      simp at hd'
  | video =>
    simp only [hk] at h
    unfold VideoChannel.decode at h
    split at h
    case h_3 sent hpc =>
      split at h
      · cases h
        simp at hd'
      · split at h <;> cases h
        · simp at hd'
        · simp [Channel.inDecoder, hpc]
    case h_4 hpc =>
      cases h
      simp [Channel.inDecoder, hpc]
    case h_5 hpc =>
      cases h
      by_cases hr : ret < 0 <;> simp [Channel.inDecoder, hpc, hr]
    case h_8 => rw [hhead] at h; cases h
    case h_1 hpc | h_2 hpc | h_7 hpc => simp [hpc] at hd
    case h_6 hpc =>
      cases h
      simp at hd'

namespace ReceivedInOrder

variable {c c' : Channel}

/-- A step that accepts nothing and sends nothing, and adds nothing to the decoder. -/
theorem of_same (hc : ReceivedInOrder c) (ha : c'.frames.queue.accepted = c.frames.queue.accepted)
    (hs : c'.sent = c.sent) (hin : (c'.inDecoder.reduceOption).Sublist (c.inDecoder.reduceOption)) :
    ReceivedInOrder c' := by
  unfold ReceivedInOrder
  rw [ha, hs]
  exact ((List.Sublist.refl _).append hin).trans hc

/-- Every frame a decode thread pushes was received after the packet it sent last. -/
theorem decode_step {ret : Int} (hc : ReceivedInOrder c) (h : c.act (.decode ret) = some c') :
    ReceivedInOrder c' := by
  obtain ⟨-, hs⟩ := decode_cases h
  have hnil : c'.inDecoder = [] → (c'.inDecoder.reduceOption).Sublist (c.inDecoder.reduceOption) := by
    intro hin
    rw [hin]
    exact List.nil_sublist _
  cases hs with
  | test _ hd' _ hf _ hsent => exact hc.of_same (by rw [hf]) hsent (hnil (DecodePc.testing_inDecoder hd'))
  | check _ _ hd' _ hf _ hsent | quit _ _ hd' _ hf _ hsent | miss _ _ hd' _ hf _ hsent | take _ _ hd' _ _ hf _ hsent
  | leave _ hd' _ hf _ hsent => exact hc.of_same (by rw [hf]) hsent (hnil (by simp [Channel.inDecoder, hd']))
  | pop _ hc' =>
    subst hc'
    exact hc.of_same rfl rfl (hnil rfl)
  | send packet hd _ _ hd' _ hf _ hsent =>
    have hold : c.inDecoder = [] := by simp [Channel.inDecoder, hd]
    unfold ReceivedInOrder at hc ⊢
    rw [hold] at hc
    rw [hf, hsent, Channel.inDecoder, hd']
    simpa using hc.append (List.Sublist.refl [packet])
  | sendFailed packet _ _ _ hd' _ hf _ hsent =>
    have hle : c.sent.Sublist c'.sent := by
      rw [hsent]
      exact List.sublist_append_left _ _
    unfold ReceivedInOrder at hc ⊢
    rw [hf, Channel.inDecoder, hd']
    simpa using ((List.sublist_append_left _ _).trans hc).trans hle
  | noFrame packet _ _ hd' _ hf _ hsent =>
    refine hc.of_same (by rw [hf]) hsent (hnil ?_)
    split at hd' <;> simp [Channel.inDecoder, hd']
  | decode hd hd' _ _ hf _ hsent => exact hc.of_same (by rw [hf]) hsent (Channel.inDecoder_step h hd hd')
  | push frame hd hd' _ hf _ hsent =>
    unfold ReceivedInOrder at hc ⊢
    rw [Channel.inDecoder, hd] at hc
    rw [hsent, Channel.inDecoder, hd', hf, Channel.pushFrame, MessageQueue.push]
    split
    · cases hlast : frame.sentLast <;> simpa [hlast, List.filterMap_append] using hc
    · simpa using (List.sublist_append_left _ _).trans hc

/-- A signal adds nothing to the decoder. -/
theorem signalled (hc : ReceivedInOrder c) (ha : c'.frames.queue.accepted = c.frames.queue.accepted)
    (hs : c'.sent = c.sent) (hf : c'.frame = c.frame) (hd : c'.decode = c.decode ∨ c'.decode = c.decode.signalled) :
    ReceivedInOrder c' := by
  refine hc.of_same ha hs ?_
  have hin : c'.inDecoder = c.inDecoder := by
    rcases hd with hd | hd
    · simp [Channel.inDecoder, hd, hf]
    · cases hpc : c.decode <;> simp [Channel.inDecoder, hd, hf, hpc, DecodePc.signalled]
  rw [hin]

/-- The statements of `start` and `stop` send and accept nothing. -/
theorem ctl_step (hc : ReceivedInOrder c) (h : CtlStep c c') : ReceivedInOrder c' := by
  cases h with
  | createDecode _ hc' =>
    subst hc'
    exact hc.of_same rfl rfl (List.nil_sublist _)
  | packetsGotoWork _ _ hc' | packetsBackWork _ _ hc' =>
    subst hc'
    exact hc.signalled rfl rfl rfl (Or.inr rfl)
  | setFlag _ hc' | framesGotoWork _ _ hc' | framesBackWork _ _ hc' | createOutput _ _ hc' | clearFlag _ hc'
  | join _ _ hc' | freeSwr _ _ hc' | destroy _ _ hc' =>
    subst hc'
    exact hc.signalled rfl rfl rfl (Or.inl rfl)

/-- Every step of a channel keeps it. -/
theorem step {b : ChannelAct} (hc : ReceivedInOrder c) (h : c.act b = some c') : ReceivedInOrder c' := by
  cases b with
  | decode ret => exact hc.decode_step h
  | output i =>
    obtain ⟨hk, -⟩ := output_cases h
    exact hc.signalled hk.framesAccepted hk.sent hk.frame (Or.inl hk.decode)
  | start => exact hc.ctl_step (start_cases h).1
  | stop => exact hc.ctl_step (stop_cases h)
  | wakeDecode =>
    simp only [Channel.act, Option.ite_none_right_eq_some, Option.some.injEq] at h
    obtain ⟨hd, rfl⟩ := h
    exact hc.signalled rfl rfl rfl (Or.inr (by rw [hd]; rfl))
  | wakeOutput | playReturn | setAudioChannel channel =>
    simp only [Channel.act, Option.ite_none_right_eq_some, Option.some.injEq] at h
    obtain ⟨-, rfl⟩ := h
    exact hc.signalled rfl rfl rfl (Or.inl rfl)
  | push packet =>
    simp only [Channel.act, Option.some.injEq] at h
    subst h
    refine hc.signalled rfl rfl rfl ?_
    dsimp only [Channel.pushPacket]
    split
    · exact Or.inr rfl
    · exact Or.inl rfl

end ReceivedInOrder

/-- A thread that stays where it is has handed nothing on: `getPcm` crashes at the conversion only if it has no frame or no
resampler. -/
theorem Channel.putOut_of_crash {c c' : Channel} {i : OutputInput} (ho' : c'.output = c.output)
    (h : c.act (.output i) = some c') : c.putOut (.output i) = [] := by
  by_cases hshow : c.output = .show
  · cases hk : c.kind with
    | audio => simp [Channel.act, hk, AudioChannel.getPcm, hshow] at h
    | video =>
      simp only [Channel.act, hk, VideoChannel.render, hshow, Option.some.injEq] at h
      rw [← h, hshow] at ho'
      cases ho'
  by_cases hconvert : c.output = .convert
  · cases hf : c.outFrame with
    | none => simp [Channel.putOut, hconvert, hf]
    | some frame =>
      cases hk : c.kind with
      | audio =>
        simp only [Channel.act, hk, AudioChannel.getPcm, hconvert, hf] at h
        split at h
        · rename_i hswr
          simp [Channel.putOut, hconvert, (by simpa using hswr : c.swrContext = false)]
        · simp only [Option.some.injEq] at h
          rw [← h, hconvert] at ho'
          cases ho'
      | video => simp [Channel.act, hk, VideoChannel.render, hconvert] at h
  · simp only [Channel.putOut]

/-- What a step hands on it finishes. -/
theorem Channel.putOut_finished {c c' : Channel} {b : ChannelAct} (h : c.act b = some c') :
    (c.finished ++ c.putOut b).Sublist c'.finished := by
  by_cases hb : ∃ i, b = .output i
  · obtain ⟨i, rfl⟩ := hb
    have hs := (output_cases h).2
    by_cases hshow : c.output = .show ∨ c.output = .convert
    · cases hs with
      | finish _ _ _ _ _ _ hfin =>
        rw [hfin]
        refine (List.Sublist.refl _).append ?_
        rcases hshow with ho | ho
        · simp [Channel.putOut, ho]
        · simp only [Channel.putOut, ho]
          split <;> simp
      | crash reason _ hc' =>
        have hnil := Channel.putOut_of_crash (by rw [hc']) h
        subst hc'
        rw [hnil, List.append_nil]
      | idle ho => rcases hshow with h | h <;> simp [h] at ho
      | pop ho => rcases hshow with h | h <;> simp [h] at ho
      | quit _ ho | miss ho | take ho | onTime ho | sync ho => rcases hshow with h | h <;> simp [h] at ho
    · have hnil : c.putOut (.output i) = [] := by
        simp only [Channel.putOut]
        split <;> first | rfl | simp_all
      rw [hnil, List.append_nil]
      cases hs with
      | pop _ hc' =>
        subst hc'
        exact List.Sublist.refl _
      | sync _ hc' =>
        subst hc'
        exact List.sublist_append_left _ _
      | crash _ _ hc' =>
        subst hc'
        exact List.Sublist.refl _
      | finish _ _ _ _ _ _ hfin =>
        rw [hfin]
        exact List.sublist_append_left _ _
      | idle _ _ _ _ _ _ hfin | quit _ _ _ _ _ _ hfin | miss _ _ _ _ _ _ hfin | take _ _ _ _ _ _ hfin
      | onTime _ _ _ _ _ hfin => rw [hfin]
  · have hfin := Channel.act_finished (fun i hi => hb ⟨i, hi⟩) h
    have hnil : c.putOut b = [] := by
      cases b with
      | output i => exact absurd ⟨i, rfl⟩ hb
      | _ => rfl
    rw [hfin, hnil, List.append_nil]

/-- The scan of the streams is not come back to. -/
theorem Player.scans_of_step {s s' : Player} {a : PlayerAct} (h : s.PlayerStep a s') (hs' : s'.prepare.scans = true) :
    s.prepare.scans = true := by
  cases h with
  | prepare h =>
    cases h with
    | scan _ hs => exact hs
    | scanned i hs | skip i hs | makeChannel i k hs | accept k hs => rw [hs]; rfl
    | report code next _ hpc => rcases hpc with ⟨hpc, -⟩ | ⟨-, rfl⟩ <;> first | (rw [hpc]; rfl) | cases hs'
    | startChannel k c c' hpc => rwa [Player.prepare_setChannel] at hs'
    | nullHelper | deletedHelper => exact hs'
    | _ => simp at hs'
  | demux h => cases h <;> simpa using hs'
  | stopper h => cases h <;> simpa using hs'
  | ui h => cases h <;> simpa using hs'
  | channel => simpa using hs'

/-- While the streams are scanned nothing is handed on. -/
theorem Player.putOut_of_scans {streams : List AVMediaType} {s : Player} (h : (Player.lts streams).Reachable s)
    (hscan : s.prepare.scans = true) (k : Kind) (a : PlayerAct) : s.putOut k a = [] := by
  have hs := playerPhased_of_reachable h
  unfold Player.putOut
  cases a with
  | channel k' b =>
    dsimp only
    split
    · rename_i hk
      cases hc : s.channel k with
      | none => rfl
      | some c =>
        have hctl := hs.constructed (by cases hp : s.prepare <;> simp [hp] at hscan ⊢)
          (by cases hp : s.prepare <;> simp [hp] at hscan ⊢) hc
        have hout : c.output = .notCreated := by
          by_contra hne
          have := (channel_phased h hc).output.mp hne
          simp [hctl] at this
        cases b with
        | output i => simp [Channel.putOut, hout]
        | _ => rfl
    · rfl
  | _ => rfl

/-- What was handed on for a channel of the kind, the channel has finished, in this order; before there is one that runs,
nothing was. -/
structure PutOut (k : Kind) (s : Player) (log : List AVFrame) : Prop where
  finished : ∀ c, s.channel k = some c → log.Sublist c.finished
  scanned : s.prepare.scans = true → log = []

/-- Every recorded step of the player keeps it. -/
theorem PutOut.step {streams : List AVMediaType} {k : Kind} {s s' : Player} {log : List AVFrame} {a : PlayerAct}
    (hp : PutOut k s log) (hr : (Player.lts streams).Reachable s) (h : s.step a = some s') :
    PutOut k s' (log ++ s.putOut k a) := by
  obtain ⟨-, -, hstep⟩ := Player.step_cases h
  refine ⟨?_, ?_⟩
  · intro c' hc'
    by_cases ha : ∃ b, a = .channel k b
    · obtain ⟨b, rfl⟩ := ha
      cases hstep with
      | ui h => cases h
      | @channel _ _ c c₁ hown hc hact =>
        rw [Player.channel_setChannel] at hc'
        obtain rfl := Option.some.inj hc'
        have hput : s.putOut k (.channel k b) = c.putOut b := by simp [Player.putOut, hc]
        rw [hput]
        exact ((hp.finished c hc).append (List.Sublist.refl _)).trans (Channel.putOut_finished hact)
    have hnil : s.putOut k a = [] := by
      unfold Player.putOut
      split
      · rename_i k' b
        by_cases hk : k' = k
        · exact absurd ⟨b, by rw [hk]⟩ ha
        · exact if_neg hk
      · rfl
    rw [hnil, List.append_nil]
    rcases Player.channel_change hstep hc' with hc | ⟨i, hpc, -, rfl⟩ | ⟨c, b, hc, hact, -⟩
    · exact hp.finished c' hc
    · rw [hp.scanned (by rw [hpc]; rfl)]
      exact List.nil_sublist _
    · exact (hp.finished c hc).trans ((List.sublist_append_left _ _).trans (Channel.putOut_finished hact))
  · intro hscan
    have hscan := Player.scans_of_step hstep hscan
    rw [hp.scanned hscan, Player.putOut_of_scans hr hscan]
    rfl

end LibraLive

import LibraLive.Lemmas.CtlStep
import LibraLive.Lemmas.DecodeStep
import LibraLive.Lemmas.OutputStep

/-!
# The frame in the output thread's hand

What the steps of a channel do to it. Those of the other threads leave it alone, and only the decode thread's push makes the
frames queue longer; the output thread fills its variable from the queue, uses the frame and gives it up.
-/

namespace LibraLive

/-! ## Steps of other threads -/

/-- A step of another thread: it signals the output thread or leaves it alone, it may push the frame `decode` has, and only
`start` and `stop` give the output thread another place. -/
structure OutputOthers (c : Channel) (b : ChannelAct) (c' : Channel) : Prop where
  kind : c'.kind = c.kind
  outFrame : c'.outFrame = c.outFrame
  output : c'.output = c.output ∨ c'.output = c.output.signalled ∨ (c.ctl = .decodeCreated ∧ c'.output = .enter) ∨
    (c.ctl = .swrFreed ∧ c'.output = .ended)
  queue : c'.frames.queue = c.frames.queue ∨
    ∃ ret frame, b = .decode ret ∧ c.decode = .push frame ∧ c'.frames = (c.frames.push frame).1

/-- So does a step of the decode thread. -/
theorem DecodeKeeps.others {c c' : Channel} {ret : Int} (hk : DecodeKeeps c c') (h : DecodeStep c ret c') :
    OutputOthers c (.decode ret) c' := by
  refine ⟨hk.kind, hk.outFrame, ?_, ?_⟩
  · cases h with
    | pop _ hc =>
      subst hc
      exact Or.inl rfl
    | push frame _ _ _ _ ho _ =>
      rw [ho, Channel.pushFrame]
      dsimp only
      split
      · exact Or.inr (Or.inl rfl)
      · exact Or.inl rfl
    | test _ _ _ _ ho | check _ _ _ _ _ ho | quit _ _ _ _ _ ho | miss _ _ _ _ _ ho | take _ _ _ _ _ _ ho
    | send _ _ _ _ _ _ _ ho | sendFailed _ _ _ _ _ _ _ ho | noFrame _ _ _ _ _ _ ho | decode _ _ _ _ _ ho
    | leave _ _ _ _ ho => exact Or.inl ho
  · cases h with
    | pop _ hc =>
      subst hc
      exact Or.inl rfl
    | push frame hd _ _ hf => exact Or.inr ⟨ret, frame, rfl, hd, hf⟩
    | test _ _ _ hf | check _ _ _ _ hf | quit _ _ _ _ hf | miss _ _ _ _ hf | take _ _ _ _ _ hf
    | send _ _ _ _ _ _ hf | sendFailed _ _ _ _ _ _ hf | noFrame _ _ _ _ _ hf | decode _ _ _ _ hf
    | leave _ _ _ hf => exact Or.inl (by rw [hf])

/-- So does a statement of `start` or `stop`. -/
theorem CtlStep.others {c c' : Channel} (h : CtlStep c c') (b : ChannelAct) : OutputOthers c b c' := by
  cases h with
  | createOutput play hctl hc =>
    subst hc
    exact ⟨rfl, rfl, Or.inr (Or.inr (Or.inl ⟨hctl, rfl⟩)), Or.inl rfl⟩
  | destroy hctl _ hc =>
    subst hc
    exact ⟨rfl, rfl, Or.inr (Or.inr (Or.inr ⟨hctl, rfl⟩)), Or.inl rfl⟩
  | framesGotoWork _ _ hc | framesBackWork _ _ hc =>
    subst hc
    exact ⟨rfl, rfl, Or.inr (Or.inl rfl), Or.inl rfl⟩
  | setFlag _ hc | packetsGotoWork _ _ hc | createDecode _ hc | clearFlag _ hc | packetsBackWork _ _ hc | join _ _ hc
  | freeSwr _ _ hc =>
    subst hc
    exact ⟨rfl, rfl, Or.inl rfl, Or.inl rfl⟩

/-- Whatever the step is, unless it is the output thread's. -/
theorem outputOthers_of_act {c c' : Channel} {b : ChannelAct} (hb : ∀ i, b ≠ .output i) (h : c.act b = some c') :
    OutputOthers c b c' := by
  cases b with
  | output i => exact absurd rfl (hb i)
  | decode ret =>
    obtain ⟨hk, hs⟩ := decode_cases h
    exact hk.others hs
  | start => exact (start_cases h).1.others _
  | stop => exact (stop_cases h).others _
  | wakeOutput =>
    simp only [Channel.act, Option.ite_none_right_eq_some, Option.some.injEq] at h
    obtain ⟨ho, rfl⟩ := h
    exact ⟨rfl, rfl, Or.inr (Or.inl (by rw [ho]; rfl)), Or.inl rfl⟩
  | wakeDecode | playReturn | setAudioChannel channel =>
    simp only [Channel.act, Option.ite_none_right_eq_some, Option.some.injEq] at h
    obtain ⟨-, rfl⟩ := h
    exact ⟨rfl, rfl, Or.inl rfl, Or.inl rfl⟩
  | push packet =>
    simp only [Channel.act, Option.some.injEq] at h
    subst h
    exact ⟨rfl, rfl, Or.inl rfl, Or.inl rfl⟩

/-! ## The output thread's own steps -/

/-- The output thread has taken a frame and has not finished it. -/
def OutputPc.gotFrame : OutputPc → Bool
  | .pop (.returned true) | .audioTime | .show | .convert => true
  | _ => false

attribute [simp] OutputPc.gotFrame

@[simp] theorem OutputPc.gotFrame_signalled (pc : OutputPc) : pc.signalled.gotFrame = pc.gotFrame := by
  cases pc with
  | pop p => cases p <;> rfl
  | _ => rfl

/-- What a step of the output thread makes of the frame in its hand: it keeps it, it gives it up, or `pop` fills the
variable. -/
theorem Channel.output_outFrame {c c' : Channel} {i : OutputInput} (h : c.act (.output i) = some c') :
    c'.outFrame = c.outFrame ∨ c'.outFrame = none ∨ c' = c.outputPop := by
  simp only [Channel.act] at h
  cases hk : c.kind with
  | audio =>
    simp only [hk] at h
    unfold AudioChannel.getPcm at h
    split at h
    case h_1 =>
      split at h <;> cases h
      · exact Or.inr (Or.inl rfl)
      · exact Or.inl rfl
    case h_2 | h_3 =>
      cases h
      exact Or.inr (Or.inr rfl)
    case h_4 ret ho =>
      split at h <;> cases h
      · cases ret with
        | true => exact Or.inr (Or.inl rfl)
        | false => exact Or.inl rfl
      · exact Or.inl rfl
    case h_5 =>
      split at h
      · cases h
        exact Or.inl rfl
      · split at h <;> cases h
        · exact Or.inl rfl
        · exact Or.inr (Or.inl rfl)
    case h_6 =>
      cases h
      exact Or.inl rfl
    case h_7 =>
      cases h
      exact Or.inr (Or.inl rfl)
    case h_8 => cases h
  | video =>
    simp only [hk] at h
    unfold VideoChannel.render at h
    split at h
    case h_1 | h_8 | h_9 =>
      cases h
      exact Or.inr (Or.inl rfl)
    case h_2 | h_5 | h_7 =>
      cases h
      exact Or.inl rfl
    case h_3 | h_4 =>
      cases h
      exact Or.inr (Or.inr rfl)
    case h_6 =>
      split at h
      · cases h
        exact Or.inl rfl
      · split at h <;> cases h <;> exact Or.inl rfl
    case h_10 => cases h

/-- A section of `pop` that returns 1 has filled the variable. -/
theorem Channel.outputPop_got {c : Channel} (h : c.outputPop.output.gotFrame = true) : c.outputPop.outFrame ≠ none := by
  rcases c.frames.popSection_cases with ⟨hp, -, -⟩ | ⟨hp, -, -⟩ | ⟨frame, rest, hp, -⟩
  · simp [Channel.outputPop, hp] at h
  · simp [Channel.outputPop, hp] at h
  · simp [Channel.outputPop, hp]

/-- `render` has a frame at every statement that uses it. -/
theorem VideoChannel.render_got {c c' : Channel} {i : OutputInput} (hgot : c.output.gotFrame = true → c.outFrame ≠ none)
    (h : VideoChannel.render c i = some c') (hgot' : c'.output.gotFrame = true) : c'.outFrame ≠ none := by
  unfold VideoChannel.render at h
  split at h
  case h_2 =>
    cases h
    dsimp only at hgot'
    split at hgot' <;> cases hgot'
  case h_3 | h_4 =>
    cases h
    exact Channel.outputPop_got hgot'
  case h_5 ret ho =>
    cases h
    dsimp only at hgot' ⊢
    split at hgot'
    · cases hgot'
    · split at hgot'
      · rename_i hret
        exact hgot (by rw [ho, hret]; rfl)
      · cases hgot'
  case h_6 ho =>
    have hframe : c.outFrame ≠ none := hgot (by rw [ho]; rfl)
    split at h
    · cases h
      exact hframe
    · split at h <;> cases h <;> exact hframe
  case h_1 | h_7 | h_8 | h_9 =>
    cases h
    cases hgot'
  case h_10 => cases h

end LibraLive

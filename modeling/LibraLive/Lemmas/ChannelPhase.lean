import LibraLive.Lemmas.CtlStep
import LibraLive.Lemmas.DecodeStep
import LibraLive.Lemmas.OutputStep

/-!
# How far `start` and `stop` are, and what follows from it

The calls of `start` and `stop` are the only ones that write the flag (but for the end of `render`, which writes what is
already there), that switch the queues on and off and that create threads. `Phased` says so: flag, queue states and the
existence of the two threads are functions of `ctl`.
-/

namespace LibraLive

/-- The flag `isPlaying` of the channel. -/
def CtlPc.isPlaying : CtlPc → Bool
  | .playing | .working1 | .working2 | .decodeCreated | .running => true
  | _ => false

/-- The state of the queue that `start` and `stop` switch first. -/
def CtlPc.firstWorks : CtlPc → Bool
  | .working1 | .working2 | .decodeCreated | .running | .cleared => true
  | _ => false

/-- The state of the queue that `start` and `stop` switch second. -/
def CtlPc.secondWorks : CtlPc → Bool
  | .working2 | .decodeCreated | .running | .cleared | .back1 => true
  | _ => false

/-- The state of the packets queue of a channel. -/
def CtlPc.packetsWork : Kind → CtlPc → Bool
  | .audio => firstWorks
  | .video => secondWorks

/-- The state of the frames queue of a channel. -/
def CtlPc.framesWork : Kind → CtlPc → Bool
  | .audio => secondWorks
  | .video => firstWorks

/-- `start` has created the decode thread. -/
def CtlPc.decodes : CtlPc → Bool
  | .constructed | .playing | .working1 | .working2 => false
  | _ => true

/-- `start` has created the output thread. -/
def CtlPc.outputs : CtlPc → Bool
  | .constructed | .playing | .working1 | .working2 | .decodeCreated => false
  | _ => true

/-- `stop` has executed `isPlaying = 0` and both `backWork` calls. -/
def CtlPc.stopDone : CtlPc → Bool
  | .back2 | .decodeJoined | .outputJoined | .swrFreed | .stopped => true
  | _ => false

attribute [simp] CtlPc.isPlaying CtlPc.firstWorks CtlPc.secondWorks CtlPc.packetsWork CtlPc.framesWork CtlPc.decodes
  CtlPc.outputs CtlPc.stopDone

/-- What of a channel is a function of how far `start` and `stop` are. -/
structure Phased (c : Channel) : Prop where
  playing : c.isPlaying = c.ctl.isPlaying
  packets : c.packets.state = c.ctl.packetsWork c.kind
  frames : c.frames.state = c.ctl.framesWork c.kind
  decode : c.decode ≠ .notCreated ↔ c.ctl.decodes = true
  output : c.output ≠ .notCreated ↔ c.ctl.outputs = true
  rendered : c.kind = .video → c.output = .leave ∨ c.output = .ended → c.isPlaying = false

/-! ## Signals -/

/-- A signal moves a thread within `pop` only. -/
@[simp] theorem DecodePc.signalled_eq_iff {pc place : DecodePc} (h : ∀ p, place ≠ .pop p) : pc.signalled = place ↔ pc = place := by
  cases pc with
  | pop p => exact iff_of_false (h _).symm (h _).symm
  | _ => exact Iff.rfl

@[simp] theorem OutputPc.signalled_eq_iff {pc place : OutputPc} (h : ∀ p, place ≠ .pop p) : pc.signalled = place ↔ pc = place := by
  cases pc with
  | pop p => exact iff_of_false (h _).symm (h _).symm
  | _ => exact Iff.rfl

/-- A signal does not make `pop` return. -/
@[simp] theorem OutputPc.signalled_eq_missed (pc : OutputPc) :
    pc.signalled = .pop (.returned false) ↔ pc = .pop (.returned false) := by
  cases pc with
  | pop p => cases p <;> simp [OutputPc.signalled, PopPc.signalled]
  | _ => simp [OutputPc.signalled]

/-! ## Steps of the two threads -/

/-- No step of the decode thread switches a queue on or off. -/
theorem DecodeStep.states {c c' : Channel} {ret : Int} (h : DecodeStep c ret c') :
    c'.packets.state = c.packets.state ∧ c'.frames.state = c.frames.state := by
  cases h with
  | pop _ hc =>
    subst hc
    exact ⟨by simp [Channel.decodePop], rfl⟩
  | push frame _ _ hp hf _ _ => exact ⟨by rw [hp], by rw [hf]; simp [Channel.pushFrame]⟩
  | _ => exact ⟨by simp only [*], by simp only [*]⟩

/-- A step of the decode thread leaves the output thread where it is, or signals it. -/
theorem DecodeStep.output {c c' : Channel} {ret : Int} (h : DecodeStep c ret c') :
    c'.output = c.output ∨ c'.output = c.output.signalled := by
  cases h with
  | pop _ hc =>
    subst hc
    exact Or.inl rfl
  | push frame _ _ _ _ ho _ =>
    rw [ho]
    unfold Channel.pushFrame
    dsimp only
    split
    · exact Or.inr rfl
    · exact Or.inl rfl
  | _ => exact Or.inl (by assumption)

/-- Only a thread that exists takes steps, and it goes on existing. -/
theorem DecodeStep.created {c c' : Channel} {ret : Int} (h : DecodeStep c ret c') :
    c.decode ≠ .notCreated ∧ c'.decode ≠ .notCreated := by
  cases h with
  | test h h' =>
    constructor
    · intro he
      simp [he] at h
    · intro he
      simp [he] at h'
  | check h _ h' => exact ⟨by rintro he; simp [he] at h, by simp [h']⟩
  | quit h _ h' =>
    refine ⟨?_, by simp [h']⟩
    rintro he
    simp [he] at h
  | pop h h' =>
    subst h'
    refine ⟨?_, by simp [Channel.decodePop]⟩
    rcases h with h | h <;> simp [h]
  | noFrame packet h _ h' =>
    refine ⟨by simp [h], ?_⟩
    rw [h']
    split <;> simp
  | decode h h' =>
    constructor
    · intro he
      simp [he] at h
    · intro he
      simp [he] at h'
  | _ => simp [*]

/-- Only a thread that exists takes steps, and it goes on existing. -/
theorem OutputStep.created {c c' : Channel} (h : OutputStep c c') :
    c.output ≠ .notCreated ∧ c'.output ≠ .notCreated := by
  cases h with
  | idle h h' =>
    constructor
    · intro he
      simp [he] at h
    · intro he
      simp [he] at h'
  | pop h h' =>
    subst h'
    refine ⟨?_, by simp [Channel.outputPop]⟩
    rcases h with h | h <;> simp [h]
  | quit r h _ h' =>
    refine ⟨by simp [h], ?_⟩
    rcases h' with h' | ⟨-, h'⟩ <;> simp [h']
  | miss h _ h' =>
    refine ⟨by simp [h], ?_⟩
    rcases h' with h' | h' <;> simp [h']
  | take h _ h' =>
    refine ⟨by simp [h], ?_⟩
    intro he
    simp [he] at h'
  | onTime h h' => simp [h, h']
  | finish h h' =>
    constructor
    · intro he
      simp [he] at h
    · intro he
      simp [he] at h'
  | sync h h' =>
    subst h'
    simp [h]
  | crash reason h h' =>
    subst h'
    have hne : c.output ≠ .notCreated := by
      intro he
      simp [he] at h
    exact ⟨hne, hne⟩

/-- The end of `render` is the only step of an output thread that writes the flag, and it clears it. -/
theorem OutputStep.isPlaying {c c' : Channel} (h : OutputStep c c') :
    c'.isPlaying = c.isPlaying ∨ (c.output = .leave ∧ c'.isPlaying = false) := by
  cases h with
  | idle _ _ _ _ hp => exact hp
  | pop _ h' =>
    subst h'
    exact Or.inl rfl
  | sync _ h' =>
    subst h'
    exact Or.inl rfl
  | crash _ _ h' =>
    subst h'
    exact Or.inl rfl
  | _ => exact Or.inl (by assumption)

/-- `render` is at its end only if it was there before, or found the flag clear. -/
theorem OutputStep.left {c c' : Channel} (h : OutputStep c c') (hk : c.kind = .video)
    (hl : c'.output = .leave ∨ c'.output = .ended) :
    c.output = .leave ∨ c.output = .ended ∨ c.isPlaying = false := by
  cases h with
  | idle _ _ h1 h2 =>
    rcases hl with hl | hl
    · exact Or.inr (Or.inr (h1 hl))
    · exact Or.inl (h2 hk hl)
  | pop _ h' =>
    subst h'
    simp [Channel.outputPop] at hl
  | quit _ _ hp => exact Or.inr (Or.inr hp)
  | miss _ _ h' => rcases h' with h' | h' <;> simp [h'] at hl
  | take _ _ h' => rcases hl with hl | hl <;> simp [hl] at h'
  | onTime _ h' => simp [h'] at hl
  | finish _ _ h1 h2 =>
    rcases hl with hl | hl
    · exact absurd hl h1
    · exact absurd hl h2
  | sync _ h' =>
    subst h'
    simp at hl
  | crash _ h h' =>
    subst h'
    rcases hl with hl | hl
    · exact Or.inl hl
    · exact Or.inr (Or.inl hl)

/-! ## What a step of a channel leaves alone -/

/-- No step of a channel changes its class or its stream. -/
theorem Channel.act_kind_id {c c' : Channel} {b : ChannelAct} (h : c.act b = some c') :
    c'.kind = c.kind ∧ c'.id = c.id := by
  cases b with
  | decode ret =>
    obtain ⟨hk, -⟩ := decode_cases h
    exact ⟨hk.kind, hk.id⟩
  | output i =>
    obtain ⟨hk, -⟩ := output_cases h
    exact ⟨hk.kind, hk.id⟩
  | start =>
    obtain ⟨hs, -⟩ := start_cases h
    cases hs <;> subst_vars <;> exact ⟨rfl, rfl⟩
  | stop =>
    have hs := stop_cases h
    cases hs <;> subst_vars <;> exact ⟨rfl, rfl⟩
  | push packet =>
    cases h
    exact ⟨rfl, rfl⟩
  | wakeDecode | wakeOutput | playReturn | setAudioChannel channel =>
    simp only [Channel.act, Option.ite_none_right_eq_some, Option.some.injEq] at h
    obtain ⟨-, rfl⟩ := h
    exact ⟨rfl, rfl⟩

/-- Only a push and a `pop` change what is on the packets queue. -/
theorem Channel.act_packets {c c' : Channel} {b : ChannelAct} (hb : ∀ packet, b ≠ .push packet)
    (h : c.act b = some c') :
    c'.packets.queue = c.packets.queue ∨ c'.packets.queue = c.packets.popSection.2.1.queue := by
  cases b with
  | decode ret =>
    obtain ⟨-, hs⟩ := decode_cases h
    cases hs with
    | pop _ hc' =>
      subst hc'
      exact Or.inr rfl
    | test _ _ hp | check _ _ _ hp | quit _ _ _ hp | miss _ _ _ hp | take _ _ _ _ hp | send _ _ _ _ _ hp
    | sendFailed _ _ _ _ _ hp | noFrame _ _ _ _ hp | decode _ _ _ hp | push _ _ _ hp | leave _ _ hp =>
      exact Or.inl (by rw [hp])
  | output i =>
    obtain ⟨hk, -⟩ := output_cases h
    exact Or.inl (by rw [hk.packets])
  | start =>
    obtain ⟨hs, -⟩ := start_cases h
    cases hs <;> subst_vars <;> exact Or.inl rfl
  | stop =>
    have hs := stop_cases h
    cases hs <;> subst_vars <;> exact Or.inl rfl
  | wakeDecode | wakeOutput | playReturn | setAudioChannel channel =>
    simp only [Channel.act, Option.ite_none_right_eq_some, Option.some.injEq] at h
    obtain ⟨-, rfl⟩ := h
    exact Or.inl rfl
  | push packet => exact absurd rfl (hb packet)

/-- Only statements of `start` and `stop` change how far these calls are. -/
theorem Channel.act_ctl {c c' : Channel} {b : ChannelAct} (hb : b ≠ .start ∧ b ≠ .stop) (h : c.act b = some c') :
    c'.ctl = c.ctl := by
  cases b with
  | decode ret => exact (decode_cases h).1.ctl
  | output i => exact (output_cases h).1.ctl
  | start => exact absurd rfl hb.1
  | stop => exact absurd rfl hb.2
  | push packet =>
    cases h
    rfl
  | wakeDecode | wakeOutput | playReturn | setAudioChannel channel =>
    simp only [Channel.act, Option.ite_none_right_eq_some, Option.some.injEq] at h
    obtain ⟨-, rfl⟩ := h
    rfl

/-! ## `Phased` is an invariant -/

theorem phased_new (kind : Kind) (id : Int) : Phased (Channel.new kind id) := by
  constructor <;> cases kind <;> simp [Channel.new]

theorem Phased.decode_step {c c' : Channel} {ret : Int} (hc : Phased c) (h : c.act (.decode ret) = some c') :
    Phased c' := by
  obtain ⟨hk, hs⟩ := decode_cases h
  obtain ⟨hps, hfs⟩ := hs.states
  obtain ⟨hd, hd'⟩ := hs.created
  have ho : ∀ pc, (pc = .notCreated ∨ pc = .leave ∨ pc = .ended) → (c'.output = pc ↔ c.output = pc) := by
    intro pc hpc
    rcases hs.output with h | h <;> rw [h]
    rcases hpc with rfl | rfl | rfl <;> simp
  constructor
  case playing => rw [hk.isPlaying, hk.ctl, hc.playing]
  case packets => rw [hps, hk.ctl, hk.kind, hc.packets]
  case frames => rw [hfs, hk.ctl, hk.kind, hc.frames]
  case decode => rw [hk.ctl, ← hc.decode]; exact ⟨fun _ => hd, fun _ => hd'⟩
  case output => rw [hk.ctl, ← hc.output, Ne, ho _ (by simp)]
  case rendered => rw [hk.kind, hk.isPlaying, ho _ (by simp), ho _ (by simp)]; exact hc.rendered

theorem Phased.output_step {c c' : Channel} {i : OutputInput} (hc : Phased c) (h : c.act (.output i) = some c') :
    Phased c' := by
  obtain ⟨hk, hs⟩ := output_cases h
  obtain ⟨ho, ho'⟩ := hs.created
  -- the end of `render` writes a flag that is clear already
  have hp : c'.isPlaying = c.isPlaying := by
    rcases hs.isPlaying with hp | ⟨hl, hp⟩
    · exact hp
    · rw [hp]
      cases hkind : c.kind with
      | video => exact (hc.rendered hkind (Or.inl hl)).symm
      | audio =>
        simp only [Channel.act, hkind, AudioChannel.getPcm, hl] at h
        cases h
  constructor
  case playing => rw [hp, hk.ctl, hc.playing]
  case packets => rw [hk.packets, hk.ctl, hk.kind, hc.packets]
  case frames => rw [hk.framesState, hk.ctl, hk.kind, hc.frames]
  case decode => rw [hk.ctl, hk.decode, hc.decode]
  case output => rw [hk.ctl, ← hc.output]; exact ⟨fun _ => ho, fun _ => ho'⟩
  case rendered =>
    rw [hk.kind, hp]
    intro hv hl
    rcases hs.left hv hl with h | h | h
    · exact hc.rendered hv (Or.inl h)
    · exact hc.rendered hv (Or.inr h)
    · exact h

/-- A statement of `start` or `stop` brings the channel to the next phase. -/
theorem Phased.ctl_step {c c' : Channel} (hc : Phased c) (h : CtlStep c c') : Phased c' := by
  obtain ⟨h1, h2, h3, h4, h5, h6⟩ := hc
  cases h with
  | setFlag hctl hc' =>
    subst hc'
    rw [hctl] at h1 h2 h3 h4 h5
    refine ⟨rfl, h2.trans ?_, h3.trans ?_, h4, h5, ?_⟩
    · cases c.kind <;> rfl
    · cases c.kind <;> rfl
    · intro _ hl
      simp only [ne_eq, CtlPc.outputs, Bool.false_eq_true, iff_false, not_not] at h5
      rcases hl with hl | hl <;> rw [h5] at hl <;> cases hl
  | packetsGotoWork next hctl hc' =>
    subst hc'
    rcases hctl with ⟨hk, hctl, rfl⟩ | ⟨hk, hctl, rfl⟩ <;> rw [hctl] at h1 h2 h3 h4 h5 <;>
      constructor <;> simp_all [Channel.packetsGotoWork]
  | framesGotoWork next hctl hc' =>
    subst hc'
    rcases hctl with ⟨hk, hctl, rfl⟩ | ⟨hk, hctl, rfl⟩ <;> rw [hctl] at h1 h2 h3 h4 h5 <;>
      constructor <;> simp_all [Channel.framesGotoWork]
  | createDecode hctl hc' =>
    subst hc'
    rw [hctl] at h1 h2 h3 h4 h5
    refine ⟨h1, h2.trans ?_, h3.trans ?_, by simp, h5, h6⟩
    · cases c.kind <;> rfl
    · cases c.kind <;> rfl
  | createOutput play hctl hc' =>
    subst hc'
    rw [hctl] at h1 h2 h3 h4 h5
    refine ⟨h1, h2.trans ?_, h3.trans ?_, h4, by simp, by simp⟩
    · cases c.kind <;> rfl
    · cases c.kind <;> rfl
  | clearFlag hctl hc' =>
    subst hc'
    rw [hctl] at h1 h2 h3 h4 h5
    refine ⟨rfl, h2.trans ?_, h3.trans ?_, h4, h5, fun _ _ => rfl⟩
    · cases c.kind <;> rfl
    · cases c.kind <;> rfl
  | packetsBackWork next hctl hc' =>
    subst hc'
    rcases hctl with ⟨hk, hctl, rfl⟩ | ⟨hk, hctl, rfl⟩ <;> rw [hctl] at h1 h2 h3 h4 h5 <;>
      constructor <;> simp_all [Channel.packetsBackWork]
  | framesBackWork next hctl hc' =>
    subst hc'
    rcases hctl with ⟨hk, hctl, rfl⟩ | ⟨hk, hctl, rfl⟩ <;> rw [hctl] at h1 h2 h3 h4 h5 <;>
      constructor <;> simp_all [Channel.framesBackWork]
  | join next hctl hc' =>
    subst hc'
    rcases hctl with ⟨hctl, -, rfl⟩ | ⟨hctl, -, rfl⟩ | ⟨hctl, -, rfl⟩ <;> rw [hctl] at h1 h2 h3 h4 h5 <;>
      exact ⟨h1, h2.trans (by cases c.kind <;> rfl), h3.trans (by cases c.kind <;> rfl), h4, h5, h6⟩
  | freeSwr hctl _ hc' =>
    subst hc'
    rw [hctl] at h1 h2 h3 h4 h5
    exact ⟨h1, h2.trans (by cases c.kind <;> rfl), h3.trans (by cases c.kind <;> rfl), h4, h5, h6⟩
  | destroy hctl _ hc' =>
    subst hc'
    rw [hctl] at h1 h2 h3 h4 h5
    exact ⟨h1, h2.trans (by cases c.kind <;> rfl), h3.trans (by cases c.kind <;> rfl), h4, by simp, fun _ _ => h1⟩

/-- Every step of a channel keeps the phase. -/
theorem Phased.step {c c' : Channel} {a : ChannelAct} (hc : Phased c) (h : c.act a = some c') : Phased c' := by
  cases a with
  | decode ret => exact hc.decode_step h
  | output i => exact hc.output_step h
  | start => exact hc.ctl_step (start_cases h).1
  | stop => exact hc.ctl_step (stop_cases h)
  | wakeDecode =>
    simp only [Channel.act, Option.ite_none_right_eq_some, Option.some.injEq] at h
    obtain ⟨hd, rfl⟩ := h
    refine ⟨hc.playing, hc.packets, hc.frames, ?_, hc.output, hc.rendered⟩
    rw [← hc.decode, hd]
    simp
  | wakeOutput =>
    simp only [Channel.act, Option.ite_none_right_eq_some, Option.some.injEq] at h
    obtain ⟨ho, rfl⟩ := h
    refine ⟨hc.playing, hc.packets, hc.frames, hc.decode, ?_, by simp⟩
    rw [← hc.output, ho]
    simp
  | playReturn =>
    simp only [Channel.act, Option.ite_none_right_eq_some, Option.some.injEq] at h
    obtain ⟨-, rfl⟩ := h
    exact ⟨hc.playing, hc.packets, hc.frames, hc.decode, hc.output, hc.rendered⟩
  | push packet =>
    simp only [Channel.act, Option.some.injEq] at h
    subst h
    refine ⟨hc.playing, ?_, hc.frames, ?_, hc.output, hc.rendered⟩
    · simpa [Channel.pushPacket] using hc.packets
    · rw [Channel.pushPacket]
      dsimp only
      rw [← hc.decode]
      split <;> simp
  | setAudioChannel channel =>
    simp only [Channel.act, Option.ite_none_right_eq_some, Option.some.injEq] at h
    obtain ⟨-, rfl⟩ := h
    exact ⟨hc.playing, hc.packets, hc.frames, hc.decode, hc.output, hc.rendered⟩

/-- A step of the channel as a system is a step of one of its threads, in a channel that has not crashed. -/
theorem Channel.step_eq_some {c c' : Channel} {a : ChannelAct} :
    c.step a = some c' ↔ c.crash = none ∧ c.act a = some c' := by
  unfold Channel.step
  cases c.crash <;> simp

/-- A channel that a run reaches is of the class it was constructed as. -/
theorem Channel.kind_of_reachable {kind : Kind} {c : Channel} (h : (Channel.lts kind).Reachable c) : c.kind = kind := by
  refine Lts.Reachable.invariant ?_ ?_ h
  · rintro c ⟨id, rfl⟩
    rfl
  · intro c a c' _ hk hs
    rw [(Channel.act_kind_id (Channel.step_eq_some.mp hs).2).1, hk]

/-- Every channel a run reaches is phased. -/
theorem phased_of_reachable {kind : Kind} {c : Channel} (h : (Channel.lts kind).Reachable c) : Phased c := by
  refine Lts.Reachable.invariant ?_ ?_ h
  · rintro c ⟨id, rfl⟩
    exact phased_new kind id
  · intro c a c' _ hc hs
    exact hc.step (Channel.step_eq_some.mp hs).2

end LibraLive

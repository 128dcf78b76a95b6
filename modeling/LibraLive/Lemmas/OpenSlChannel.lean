import LibraLive.OpenSl
import LibraLive.Lemmas.ChannelPhase

/-!
# The threads of the audio output behind one place

The one output place of an audio `Channel` is what the threads of `AudioOutput` come to: the token that is first with
`audio_play`, then with a callback that has not passed its `Enqueue`, then with the buffer left with OpenSL. `StandsFor` says
so, and every run of `AudioOutput` is answered by a run of `Channel` (`standsFor_of_reachable`).
-/

namespace LibraLive

/-- The channel without what `AudioOutput` keeps elsewhere. -/
def Channel.withoutOutput (c : Channel) : Channel :=
  { c with output := .notCreated, outFrame := none, play := .notCreated }

/-- The place of the channel's output that stands for a place of a callback: a callback in `pop` may be on either side of the
wait, and the two uses of the resampler are one step there. -/
def CallbackPc.standsAt : CallbackPc → OutputPc → Prop
  | .pop, o => o = .pop .call ∨ o = .pop .asleep ∨ o = .pop .woken
  | .popped ret, o => o = .pop (.returned ret)
  | .getDelay, o => o = .convert
  | .convert, o => o = .convert
  | .enqueue dataSize, o => o = .enqueue dataSize
  | .returned, _ => False

/-- `audio_play` is in `init_start`, before its call of the callback. -/
def AudioPlayPc.opening : AudioPlayPc → Bool
  | .tested _ | .createPlayer => true
  | _ => false

/-- What of `audio_play` the channel knows. -/
def AudioPlayPc.play : AudioPlayPc → PlayPc
  | .notCreated => .notCreated
  | .tested _ | .createPlayer => .running
  | .callback cb => if cb.beforeEnqueue then .running else .returning
  | .ended => .ended

/-- `audio_play` has got past `init_start`'s calls, or has failed at one. -/
def AudioPlayPc.opened : AudioPlayPc → Bool
  | .callback _ | .ended => true
  | _ => false

/-- `stop` has joined the output thread. -/
def CtlPc.joined : CtlPc → Bool
  | .outputJoined | .swrFreed | .stopped => true
  | _ => false

attribute [simp] AudioPlayPc.opening AudioPlayPc.opened CtlPc.joined

/-- Where the one token of the audio output is. -/
inductive Token (s : AudioOutput) (c : Channel) : Prop where
  | notCreated : c.output = .notCreated → s.audioPlay = .notCreated → s.callbacks = [] → s.queued = 0 →
      s.activated = false → Token s c
  | opening : c.output = .enter → s.audioPlay.opening = true → s.callbacks = [] → s.queued = 0 →
      s.activated = false → Token s c
  | callback (cb : BqCallback) : s.audioPlay.opened = true → s.active = [cb] → cb.pc.standsAt c.output →
      c.outFrame = cb.frame → s.queued = 0 → Token s c
  | buffer : s.audioPlay.opened = true → c.output = .outstanding → s.active = [] → s.queued = 1 → Token s c
  | gone : s.audioPlay.opened = true → c.output = .ended → s.active = [] → s.queued = 0 → Token s c

/-- The channel `c` stands for the audio output `s`. -/
structure StandsFor (c : Channel) (s : AudioOutput) : Prop where
  channel : s.channel = c.withoutOutput
  play : c.play = s.audioPlay.play
  token : Token s c
  joined : c.ctl.joined = true → s.audioPlay = .ended

/-! ## Steps that leave the output alone -/

/-- A push signals no thread where no output thread exists. -/
theorem Channel.pushFrame_withoutOutput (c : Channel) (frame : AVFrame) :
    c.withoutOutput.pushFrame frame = (c.pushFrame frame).withoutOutput := by
  have ho : (if c.withoutOutput.frames.state then c.withoutOutput.output.signalled else c.withoutOutput.output) =
      .notCreated := by split <;> rfl
  unfold Channel.pushFrame
  rw [ho]
  rfl

/-- The decode thread takes no notice of the output. -/
theorem AudioChannel.decode_withoutOutput (c : Channel) (ret : Int) :
    AudioChannel.decode c.withoutOutput ret = (AudioChannel.decode c ret).map Channel.withoutOutput := by
  obtain ⟨kind, id, packets, frames, isPlaying, audioChannel, swrContext, ctl, decode, packet, frame, output, outFrame,
    play, crash, frameAllocs, sent, finished, freedPackets, freedFrames⟩ := c
  cases decode with
  | pop pc => cases pc <;> rfl
  | sendPacket =>
    cases packet with
    | none => rfl
    | some packet =>
      simp only [AudioChannel.decode, Channel.withoutOutput]
      split <;> rfl
  | receiveFrame sent =>
    simp only [AudioChannel.decode, Channel.withoutOutput]
    split
    · rfl
    · split <;> rfl
  | push frame => exact congrArg (fun c => some { c with decode := .whileTest }) (Channel.pushFrame_withoutOutput _ frame)
  | _ => rfl

/-- Up to the creation of the output thread, `start` takes no notice of the output. -/
theorem Channel.start_withoutOutput {c : Channel} (h : c.ctl ≠ .decodeCreated) :
    c.withoutOutput.start = c.start.map Channel.withoutOutput := by
  obtain ⟨kind, id, packets, frames, isPlaying, audioChannel, swrContext, ctl, decode, packet, frame, output, outFrame,
    play, crash, frameAllocs, sent, finished, freedPackets, freedFrames⟩ := c
  cases ctl <;> cases kind <;> first | rfl | exact absurd rfl h

/-- Of `stop` only the join of the output thread and `Destroy` take notice of it. -/
theorem Channel.stop_withoutOutput {c : Channel} (h1 : c.ctl ≠ .decodeJoined) (h2 : c.ctl ≠ .swrFreed) :
    c.withoutOutput.stop = c.stop.map Channel.withoutOutput := by
  obtain ⟨kind, id, packets, frames, isPlaying, audioChannel, swrContext, ctl, decode, packet, frame, output, outFrame,
    play, crash, frameAllocs, sent, finished, freedPackets, freedFrames⟩ := c
  cases ctl with
  | back2 => by_cases hd : decode = .ended <;> simp [Channel.stop, Channel.withoutOutput, hd]
  | decodeJoined => exact absurd rfl h1
  | swrFreed => exact absurd rfl h2
  | _ => cases kind <;> rfl

/-- Apart from the creation of the output thread, its join and `Destroy`, a statement of `start` or `stop` at most signals
the output thread. -/
theorem CtlStep.outputKept {c c' : Channel} (h : CtlStep c c') (h1 : c.ctl ≠ .decodeCreated) (h2 : c.ctl ≠ .decodeJoined)
    (h3 : c.ctl ≠ .swrFreed) : (c'.output = c.output ∨ c'.output = c.output.signalled) ∧ c'.outFrame = c.outFrame ∧
      c'.play = c.play ∧ (c'.ctl.joined = true → c.ctl.joined = true) := by
  cases h with
  | createOutput _ hctl => exact absurd hctl h1
  | destroy hctl => exact absurd hctl h3
  | join next hctl hc' =>
    subst hc'
    rcases hctl with ⟨hctl, -, rfl⟩ | ⟨hctl, -, -⟩ | ⟨hctl, -, -⟩
    · exact ⟨Or.inl rfl, rfl, rfl, by simp⟩
    · exact absurd hctl h2
    · exact ⟨Or.inl rfl, rfl, rfl, by simp [hctl]⟩
  | framesGotoWork next hctl hc' =>
    subst hc'
    exact ⟨Or.inr rfl, rfl, rfl, by rcases hctl with ⟨-, -, rfl⟩ | ⟨-, -, rfl⟩ <;> simp⟩
  | framesBackWork next hctl hc' =>
    subst hc'
    exact ⟨Or.inr rfl, rfl, rfl, by rcases hctl with ⟨-, -, rfl⟩ | ⟨-, -, rfl⟩ <;> simp⟩
  | packetsGotoWork next hctl hc' =>
    subst hc'
    exact ⟨Or.inl rfl, rfl, rfl, by rcases hctl with ⟨-, -, rfl⟩ | ⟨-, -, rfl⟩ <;> simp⟩
  | packetsBackWork next hctl hc' =>
    subst hc'
    exact ⟨Or.inl rfl, rfl, rfl, by rcases hctl with ⟨-, -, rfl⟩ | ⟨-, -, rfl⟩ <;> simp⟩
  | freeSwr hctl _ hc' =>
    subst hc'
    exact ⟨Or.inl rfl, rfl, rfl, by simp [hctl]⟩
  | _ =>
    subst_vars
    exact ⟨Or.inl rfl, rfl, rfl, by simp⟩

/-- A signal does not move the output to another place of the callback. -/
theorem CallbackPc.standsAt_signalled {pc : CallbackPc} {o : OutputPc} (h : pc.standsAt o) : pc.standsAt o.signalled := by
  cases pc with
  | pop =>
    rcases h with rfl | rfl | rfl
    · exact Or.inl rfl
    · exact Or.inr (Or.inr rfl)
    · exact Or.inr (Or.inr rfl)
  | returned => exact h
  | _ =>
    simp only [CallbackPc.standsAt] at h
    subst h
    rfl

/-- A callback that the channel's output stands for has not passed its `Enqueue`. -/
theorem CallbackPc.standsAt_ne_returned {pc : CallbackPc} {o : OutputPc} (h : pc.standsAt o) : pc ≠ .returned := by
  rintro rfl
  exact h

/-- The token stays where it is in a step that leaves the output alone or signals it. -/
theorem Token.same {s : AudioOutput} {c c' : Channel} (x : Channel) (h : Token s c)
    (ho : c'.output = c.output ∨ c'.output = c.output.signalled) (hf : c'.outFrame = c.outFrame) :
    Token { s with channel := x } c' := by
  cases h with
  | notCreated h1 h2 h3 h4 h5 =>
    refine .notCreated ?_ h2 h3 h4 h5
    rcases ho with ho | ho <;> simp [ho, h1]
  | opening h1 h2 h3 h4 h5 =>
    refine .opening ?_ h2 h3 h4 h5
    rcases ho with ho | ho <;> simp [ho, h1, OutputPc.signalled]
  | callback cb h1 h2 h3 h4 h5 =>
    refine .callback cb h1 h2 ?_ (hf.trans h4) h5
    rcases ho with ho | ho <;> rw [ho]
    · exact h3
    · exact CallbackPc.standsAt_signalled h3
  | buffer h1 h2 h3 h4 =>
    refine .buffer h1 ?_ h3 h4
    rcases ho with ho | ho <;> simp [ho, h2, OutputPc.signalled]
  | gone h1 h2 h3 h4 =>
    refine .gone h1 ?_ h3 h4
    rcases ho with ho | ho <;> simp [ho, h2]

/-! ## Callbacks and their threads -/

/-- The callback a thread is in is one of those under way; the others are not touched when it goes on or returns. -/
theorem AudioOutput.activation_split {s : AudioOutput} {t : AudioOutput.Thread} {cb : BqCallback}
    (h : s.activation t = some cb) : ∃ l r, s.activations = l ++ cb :: r ∧
      (∀ cb', (s.setActivation t cb').activations = l ++ cb' :: r) ∧ (s.returnFrom t).activations = l ++ r := by
  cases t with
  | audioPlay =>
    refine ⟨[], s.callbacks, ?_, fun cb' => rfl, rfl⟩
    have hcb : s.audioPlay.activation = some cb := h
    simp [AudioOutput.activations, hcb]
  | openSl i =>
    have hi : s.callbacks[i]? = some cb := h
    obtain ⟨hlt, hget⟩ := List.getElem?_eq_some_iff.mp hi
    refine ⟨s.audioPlay.activation.toList ++ s.callbacks.take i, s.callbacks.drop (i + 1), ?_, fun cb' => ?_, ?_⟩
    · rw [AudioOutput.activations, List.append_assoc, ← hget, List.getElem_cons_drop, List.take_append_drop]
    · simp [AudioOutput.activations, AudioOutput.setActivation, List.set_eq_take_append_cons_drop, hlt]
    · simp [AudioOutput.activations, AudioOutput.returnFrom, List.eraseIdx_eq_take_drop_succ]

/-- The callback a thread is in is under way. -/
theorem AudioOutput.mem_activations {s : AudioOutput} {t : AudioOutput.Thread} {cb : BqCallback} (hcb : s.activation t = some cb) :
    cb ∈ s.activations := by
  obtain ⟨l, r, hs, -⟩ := AudioOutput.activation_split hcb
  simp [hs]

/-- Where only one callback has not passed its `Enqueue`, it is the one of the thread that goes on. -/
theorem AudioOutput.active_setActivation {s : AudioOutput} {t : AudioOutput.Thread} {b cb : BqCallback}
    (hb : s.active = [b]) (h : s.activation t = some cb) (hcb : cb.beforeEnqueue = true) :
    cb = b ∧ ∀ cb', (s.setActivation t cb').active = [cb'].filter BqCallback.beforeEnqueue := by
  obtain ⟨l, r, hs, hset, -⟩ := AudioOutput.activation_split h
  rw [AudioOutput.active, hs, List.filter_append, List.filter_cons_of_pos hcb, List.append_eq_singleton_iff] at hb
  rcases hb with ⟨hl, hr⟩ | ⟨-, hr⟩
  · obtain ⟨rfl, hr⟩ := List.cons_eq_cons.mp hr
    refine ⟨rfl, fun cb' => ?_⟩
    rw [AudioOutput.active, hset, List.filter_append, hl, List.nil_append, List.filter_cons, List.filter_cons,
      List.cons.inj hr |>.2, List.filter_nil]
  · cases hr

/-- A callback that has passed its `Enqueue` does not count when it returns. -/
theorem AudioOutput.active_returnFrom {s : AudioOutput} {t : AudioOutput.Thread} {cb : BqCallback}
    (h : s.activation t = some cb) (hcb : cb.beforeEnqueue = false) : (s.returnFrom t).active = s.active := by
  obtain ⟨l, r, hs, -, hret⟩ := AudioOutput.activation_split h
  rw [AudioOutput.active, AudioOutput.active, hs, hret, List.filter_append, List.filter_append, List.filter_cons_of_neg]
  simp [hcb]

/-! ## One step of a callback -/

/-- The size of the data is one that some number of samples has without an overflow. -/
theorem pcmDataSize_eq (samples : Int) : ∃ n : Int, n * 2 * 2 = pcmDataSize samples := by
  refine ⟨pcmDataSize samples / 4, ?_⟩
  unfold pcmDataSize Int.bmod
  dsimp only
  split <;> omega

/-- A step of an audio channel that has not crashed. -/
theorem Channel.reachable_act {c c' : Channel} {kind : Kind} {a : ChannelAct} (hr : (Channel.lts kind).Reachable c)
    (hcrash : c.crash = none) (h : c.act a = some c') : (Channel.lts kind).Reachable c' :=
  Lts.Reachable.step hr (a := a) (Channel.step_eq_some.mpr ⟨hcrash, h⟩)

/-- An output thread in the wait may get out of it. -/
theorem Channel.reachable_awake {c : Channel} {kind : Kind} (hr : (Channel.lts kind).Reachable c) (hcrash : c.crash = none)
    (ho : CallbackPc.standsAt .pop c.output) : ∃ c₁, (Channel.lts kind).Reachable c₁ ∧
      (c₁.output = .pop .call ∨ c₁.output = .pop .woken) ∧ c₁ = { c with output := c₁.output } := by
  rcases ho with ho | ho | ho
  · exact ⟨c, hr, Or.inl ho, rfl⟩
  · exact ⟨{ c with output := .pop .woken }, Channel.reachable_act (a := .wakeOutput) hr hcrash (by simp [Channel.act, ho]),
      Or.inr rfl, rfl⟩
  · exact ⟨c, hr, Or.inr ho, rfl⟩

/-- The steps of a callback inside `getPcm`, by what they do to the channel and to the callback. -/
inductive GetPcmStep (c : Channel) (cb : BqCallback) (samples : Int) (r : Channel × BqCallback) : Prop where
  | pop (pc : CallbackPc) : cb.pc = .pop → (c.frames.popSection.1 = .asleep ∧ pc = .pop) ∨
      (∃ ret, c.frames.popSection.1 = .returned ret ∧ pc = .popped ret) →
      r = ({ c with frames := c.frames.popSection.2.1 }, ⟨pc, c.frames.popSection.2.2 <|> cb.frame⟩) →
      GetPcmStep c cb samples r
  | plays (ret : Bool) : cb.pc = .popped ret → c.isPlaying = true → r = (c, { cb with pc := .getDelay }) →
      GetPcmStep c cb samples r
  | quits : cb.pc = .popped true → c.isPlaying = false →
      r = ({ c with freedFrames := c.freedFrames ++ cb.frame.toList }, ⟨.enqueue 0, none⟩) → GetPcmStep c cb samples r
  | missed : cb.pc = .popped false → c.isPlaying = false → r = (c, { cb with pc := .enqueue 0 }) →
      GetPcmStep c cb samples r
  | nullFrame : cb.resampling = true → cb.frame = none → r = ({ c with crash := some .nullFrame }, cb) →
      GetPcmStep c cb samples r
  | freedSwr (frame : AVFrame) : cb.resampling = true → cb.frame = some frame → c.swrContext = false →
      r = ({ c with crash := some .freedSwrContext }, cb) → GetPcmStep c cb samples r
  | getDelay (frame : AVFrame) : cb.pc = .getDelay → cb.frame = some frame → c.swrContext = true →
      r = (c, { cb with pc := .convert }) → GetPcmStep c cb samples r
  | convert (frame : AVFrame) : cb.pc = .convert → cb.frame = some frame → c.swrContext = true →
      r = ({ c with finished := c.finished ++ [frame], freedFrames := c.freedFrames ++ [frame] },
        ⟨.enqueue (pcmDataSize samples), none⟩) → GetPcmStep c cb samples r

/-- `getPcm` takes only the listed steps. -/
theorem BqCallback.getPcm_cases (c : Channel) {cb : BqCallback} (samples : Int) (hin : cb.inGetPcm = true) :
    GetPcmStep c cb samples (cb.getPcm c samples) := by
  cases hpc : cb.pc with
  | pop =>
    rcases c.frames.popSection_cases with ⟨h, -, -⟩ | ⟨h, -, -⟩ | ⟨v, rest, h, -⟩
    · exact .pop .pop hpc (Or.inl ⟨by rw [h], rfl⟩) (by simp [BqCallback.getPcm, hpc, h])
    · exact .pop (.popped false) hpc (Or.inr ⟨false, by rw [h], rfl⟩) (by simp [BqCallback.getPcm, hpc, h])
    · exact .pop (.popped true) hpc (Or.inr ⟨true, by rw [h], rfl⟩) (by simp [BqCallback.getPcm, hpc, h])
  | popped ret =>
    rcases Bool.eq_false_or_eq_true c.isPlaying with hp | hp
    · exact .plays ret hpc hp (by simp [BqCallback.getPcm, hpc, hp])
    · cases ret with
      | true => exact .quits hpc hp (by simp [BqCallback.getPcm, hpc, hp])
      | false => exact .missed hpc hp (by simp [BqCallback.getPcm, hpc, hp])
  | getDelay =>
    have hres : cb.resampling = true := by simp [BqCallback.resampling, hpc]
    cases hf : cb.frame with
    | none => exact .nullFrame hres hf (by simp [BqCallback.getPcm, hpc, BqCallback.use, hf])
    | some frame =>
      rcases Bool.eq_false_or_eq_true c.swrContext with hs | hs
      · exact .getDelay frame hpc hf hs (by simp [BqCallback.getPcm, hpc, BqCallback.use, hf, hs])
      · exact .freedSwr frame hres hf hs (by simp [BqCallback.getPcm, hpc, BqCallback.use, hf, hs])
  | convert =>
    have hres : cb.resampling = true := by simp [BqCallback.resampling, hpc]
    cases hf : cb.frame with
    | none => exact .nullFrame hres hf (by simp [BqCallback.getPcm, hpc, BqCallback.use, hf])
    | some frame =>
      rcases Bool.eq_false_or_eq_true c.swrContext with hs | hs
      · exact .convert frame hpc hf hs (by simp [BqCallback.getPcm, hpc, BqCallback.use, hf, hs])
      · exact .freedSwr frame hres hf hs (by simp [BqCallback.getPcm, hpc, BqCallback.use, hf, hs])
  | enqueue _ => simp [BqCallback.inGetPcm, hpc] at hin
  | returned => simp [BqCallback.inGetPcm, hpc] at hin

/-- A callback about to use its frame stands where the channel converts. -/
theorem BqCallback.standsAt_resampling {cb : BqCallback} {o : OutputPc} (h : cb.resampling = true)
    (ho : cb.pc.standsAt o) : o = .convert := by
  unfold BqCallback.resampling at h
  cases hpc : cb.pc <;> simp [hpc] at h <;> rw [hpc] at ho <;> exact ho

/-- What a step of `getPcm` does to channel and callback, the channel's output does. -/
theorem BqCallback.getPcm_standsAt {c : Channel} {cb : BqCallback} (samples : Int) (hk : c.kind = .audio)
    (hr : (Channel.lts .audio).Reachable c) (hcrash : c.crash = none) (hin : cb.inGetPcm = true)
    (ho : cb.pc.standsAt c.output) (hf : c.outFrame = cb.frame) : ∃ c', (Channel.lts .audio).Reachable c' ∧
      (cb.getPcm c.withoutOutput samples).1 = c'.withoutOutput ∧
      (cb.getPcm c.withoutOutput samples).2.pc.standsAt c'.output ∧
      c'.outFrame = (cb.getPcm c.withoutOutput samples).2.frame ∧ c'.play = c.play ∧ c'.ctl = c.ctl := by
  have hact : ∀ {c₁ c' : Channel} (n : Int), (Channel.lts .audio).Reachable c₁ → c₁.crash = none → c₁.kind = .audio →
      AudioChannel.getPcm c₁ ⟨.eq, n, true⟩ = some c' → (Channel.lts .audio).Reachable c' := by
    intro c₁ c' n hr₁ hcrash₁ hk₁ h
    exact Channel.reachable_act (a := .output ⟨.eq, n, true⟩) hr₁ hcrash₁ (by simpa [Channel.act, hk₁] using h)
  have hstep := BqCallback.getPcm_cases c.withoutOutput samples hin
  revert hstep
  generalize cb.getPcm c.withoutOutput samples = r
  intro hstep
  cases hstep with
  | pop pc hpc hret hstep =>
    subst hstep
    rw [hpc] at ho
    obtain ⟨c₁, hr₁, ho₁, hc₁⟩ := Channel.reachable_awake hr hcrash ho
    generalize c₁.output = o at ho₁ hc₁
    subst hc₁
    refine ⟨Channel.outputPop { c with output := o }, hact 0 hr₁ hcrash hk ?_, rfl, ?_,
      congrArg (c.frames.popSection.2.2 <|> ·) hf, rfl, rfl⟩
    · rcases ho₁ with rfl | rfl <;> rfl
    · rcases hret with ⟨hret, rfl⟩ | ⟨ret, hret, rfl⟩
      · exact Or.inr (Or.inl (congrArg OutputPc.pop hret))
      · exact congrArg OutputPc.pop hret
  | plays ret hpc hp hstep =>
    subst hstep
    have ho : c.output = .pop (.returned ret) := by rw [hpc] at ho; exact ho
    refine ⟨{ c with output := .convert }, hact 0 hr hcrash hk ?_, rfl, rfl, hf, rfl, rfl⟩
    simp [AudioChannel.getPcm, ho, show c.isPlaying = true from hp]
  | quits hpc hp hstep =>
    subst hstep
    have ho : c.output = .pop (.returned true) := by rw [hpc] at ho; exact ho
    refine ⟨{ c.releaseOutFrame with output := .enqueue 0 }, hact 0 hr hcrash hk ?_, ?_, rfl, rfl, rfl, rfl⟩
    · simp [AudioChannel.getPcm, ho, show c.isPlaying = false from hp]
    · rw [← hf]
      rfl
  | missed hpc hp hstep =>
    subst hstep
    have ho : c.output = .pop (.returned false) := by rw [hpc] at ho; exact ho
    refine ⟨{ c with output := .enqueue 0 }, hact 0 hr hcrash hk ?_, rfl, rfl, hf, rfl, rfl⟩
    simp [AudioChannel.getPcm, ho, show c.isPlaying = false from hp]
  | nullFrame hres hframe hstep =>
    subst hstep
    have hconvert := BqCallback.standsAt_resampling hres ho
    refine ⟨{ c with crash := some .nullFrame }, hact 0 hr hcrash hk ?_, rfl, ho, hf, rfl, rfl⟩
    simp [AudioChannel.getPcm, hconvert, hf, hframe]
  | freedSwr frame hres hframe hswr hstep =>
    subst hstep
    have hconvert := BqCallback.standsAt_resampling hres ho
    refine ⟨{ c with crash := some .freedSwrContext }, hact 0 hr hcrash hk ?_, rfl, ho, hf, rfl, rfl⟩
    simp [AudioChannel.getPcm, hconvert, hf, hframe, show c.swrContext = false from hswr]
  | getDelay frame hpc hframe hswr hstep =>
    -- the two uses of the resampler are one step of the channel, the second one
    subst hstep
    rw [hpc] at ho
    exact ⟨c, hr, rfl, ho, hf, rfl, rfl⟩
  | convert frame hpc hframe hswr hstep =>
    obtain ⟨n, hn⟩ := pcmDataSize_eq samples
    subst hstep
    have ho : c.output = .convert := by rw [hpc] at ho; exact ho
    let c₁ : Channel := { c with finished := c.finished ++ [frame] }
    refine ⟨{ c₁.releaseOutFrame with output := .enqueue (n * 2 * 2) }, hact n hr hcrash hk ?_, ?_,
      congrArg OutputPc.enqueue hn, rfl, rfl, rfl⟩
    · simp [AudioChannel.getPcm, ho, hf, hframe, show c.swrContext = true from hswr, c₁]
    · simp [Channel.releaseOutFrame, Channel.withoutOutput, hf, hframe, c₁]

/-! ## One step of a thread in the callback -/

/-- A thread in the callback goes on in `getPcm`, passes its `Enqueue`, or returns. -/
theorem AudioOutput.callback_cases {s s' : AudioOutput} {t : AudioOutput.Thread} {samples : Int}
    (h : s.bqPlayerCallback t samples = some s') : ∃ cb, s.activation t = some cb ∧
      ((cb.inGetPcm = true ∧ s' = { s.setActivation t (cb.getPcm s.channel samples).2 with
          channel := (cb.getPcm s.channel samples).1 }) ∨
        (∃ dataSize, cb.pc = .enqueue dataSize ∧ s' = { s.setActivation t { cb with pc := .returned } with
          queued := if 0 < dataSize ∧ s.queued < bufferQueueCapacity then s.queued + 1 else s.queued }) ∨
        (cb.pc = .returned ∧ s' = s.returnFrom t)) := by
  unfold AudioOutput.bqPlayerCallback at h
  cases hcb : s.activation t with
  | none => simp [hcb] at h
  | some cb =>
    refine ⟨cb, rfl, ?_⟩
    rw [hcb] at h
    dsimp only at h
    split at h <;> cases h
    case h_1 dataSize hpc => exact Or.inr (Or.inl ⟨dataSize, hpc, rfl⟩)
    case h_2 hpc => exact Or.inr (Or.inr ⟨hpc, rfl⟩)
    case h_3 h1 h2 =>
      refine Or.inl ⟨?_, rfl⟩
      cases hpc : cb.pc <;> simp [BqCallback.inGetPcm, hpc]
      · exact h1 _ hpc
      · exact h2 hpc

/-- A callback inside `getPcm` has not passed its `Enqueue`. -/
theorem BqCallback.beforeEnqueue_of_inGetPcm {cb : BqCallback} (h : cb.inGetPcm = true) : cb.beforeEnqueue = true := by
  cases hpc : cb.pc <;> simp [BqCallback.inGetPcm, BqCallback.beforeEnqueue, hpc] at h ⊢

namespace Token

variable {s : AudioOutput} {c : Channel} {t : AudioOutput.Thread} {cb : BqCallback}

/-- A thread is in the callback only after `init_start` got that far. -/
theorem opened (h : Token s c) (hcb : s.activation t = some cb) : s.audioPlay.opened = true := by
  cases h with
  | notCreated _ h2 h3 _ _ =>
    cases t with
    | audioPlay => simp [AudioOutput.activation, h2, AudioPlayPc.activation] at hcb
    | openSl i => simp [AudioOutput.activation, h3] at hcb
  | opening _ h2 h3 _ _ =>
    cases t with
    | audioPlay =>
      have hcb : s.audioPlay.activation = some cb := hcb
      cases hp : s.audioPlay <;> simp [hp, AudioPlayPc.activation] at h2 hcb
    | openSl i => simp [AudioOutput.activation, h3] at hcb
  | callback _ h1 => exact h1
  | buffer h1 => exact h1
  | gone h1 => exact h1

/-- The token is with a callback, or it is not. -/
theorem active_eq (h : Token s c) : (∃ cb, s.active = [cb] ∧ cb.pc.standsAt c.output ∧ c.outFrame = cb.frame ∧ s.queued = 0) ∨
    (s.active = [] ∧ (c.output = .notCreated ∨ c.output = .enter ∨ c.output = .outstanding ∨ c.output = .ended)) := by
  cases h with
  | notCreated h1 h2 h3 =>
    exact Or.inr ⟨by simp [AudioOutput.active, AudioOutput.activations, h2, h3, AudioPlayPc.activation], by simp [h1]⟩
  | opening h1 h2 h3 =>
    refine Or.inr ⟨?_, by simp [h1]⟩
    cases hp : s.audioPlay <;> simp [hp] at h2 <;>
      simp [AudioOutput.active, AudioOutput.activations, h3, hp, AudioPlayPc.activation]
  | callback b _ h2 h3 h4 h5 => exact Or.inl ⟨b, h2, h3, h4, h5⟩
  | buffer _ h2 h3 => exact Or.inr ⟨h3, by simp [h2]⟩
  | gone _ h2 h3 => exact Or.inr ⟨h3, by simp [h2]⟩

/-- A callback that has not passed its `Enqueue` has the token. -/
theorem of_mem (h : Token s c) (hcb : cb ∈ s.activations) (hb : cb.beforeEnqueue = true) :
    s.active = [cb] ∧ cb.pc.standsAt c.output ∧ c.outFrame = cb.frame ∧ s.queued = 0 := by
  have hmem : cb ∈ s.active := List.mem_filter.mpr ⟨hcb, hb⟩
  rcases h.active_eq with ⟨b, h2, h3, h4, h5⟩ | ⟨h2, -⟩
  · obtain rfl : cb = b := by simpa [h2] using hmem
    exact ⟨h2, h3, h4, h5⟩
  · simp [h2] at hmem

/-- Before its callback `audio_play` has the token. -/
theorem of_opening (h : Token s c) (ho : s.audioPlay.opening = true) :
    c.output = .enter ∧ s.callbacks = [] ∧ s.queued = 0 ∧ s.activated = false := by
  have hne : s.audioPlay.opened ≠ true := by cases hp : s.audioPlay <;> simp [hp] at ho ⊢
  cases h with
  | notCreated _ h2 => simp [h2] at ho
  | opening h1 _ h3 h4 h5 => exact ⟨h1, h3, h4, h5⟩
  | callback _ h1 => exact absurd h1 hne
  | buffer h1 => exact absurd h1 hne
  | gone h1 => exact absurd h1 hne

/-- An outstanding buffer has the token. -/
theorem of_queued (h : Token s c) (hq : 0 < s.queued) :
    s.audioPlay.opened = true ∧ c.output = .outstanding ∧ s.active = [] ∧ s.queued = 1 := by
  cases h with
  | notCreated _ _ _ h4 => omega
  | opening _ _ _ h4 => omega
  | callback _ _ _ _ _ h5 => omega
  | buffer h1 h2 h3 h4 => exact ⟨h1, h2, h3, h4⟩
  | gone _ _ _ h4 => omega

end Token

namespace AudioOutput

variable {s : AudioOutput} {t : Thread} {cb : BqCallback}

/-- A thread that goes on in its callback leaves `audio_play` past `init_start`'s calls. -/
theorem opened_setActivation (h : s.audioPlay.opened = true) (cb' : BqCallback) :
    (s.setActivation t cb').audioPlay.opened = true := by
  cases t with
  | audioPlay => rfl
  | openSl i => exact h

/-- A joined `audio_play` is in no callback. -/
theorem ended_setActivation (hcb : s.activation t = some cb) (h : s.audioPlay = .ended) (cb' : BqCallback) :
    (s.setActivation t cb').audioPlay = .ended := by
  cases t with
  | audioPlay => simp [activation, h, AudioPlayPc.activation] at hcb
  | openSl i => exact h

/-- The callback that `audio_play` is in. -/
theorem audioPlay_eq (hcb : s.activation .audioPlay = some cb) : s.audioPlay = .callback cb := by
  have hcb : s.audioPlay.activation = some cb := hcb
  cases hp : s.audioPlay <;> simp [hp, AudioPlayPc.activation] at hcb
  exact congrArg AudioPlayPc.callback hcb

/-- As long as the callback has not passed its `Enqueue`, `audio_play` stays where the channel sees it. -/
theorem play_setActivation (hcb : s.activation t = some cb) (hb : cb.beforeEnqueue = true) {cb' : BqCallback}
    (hb' : cb'.beforeEnqueue = true) : (s.setActivation t cb').audioPlay.play = s.audioPlay.play := by
  cases t with
  | audioPlay => simp [setActivation, audioPlay_eq hcb, AudioPlayPc.play, hb, hb']
  | openSl i => rfl

/-- With its `Enqueue` the callback of `audio_play` is as good as returned. -/
theorem play_enqueued (hop : s.audioPlay.opened = true) (hact : s.active = [cb]) (hcb : s.activation t = some cb)
    (hb : cb.beforeEnqueue = true) : (s.setActivation t { cb with pc := .returned }).audioPlay.play =
      if s.audioPlay.play = .running then .returning else s.audioPlay.play := by
  cases t with
  | audioPlay => simp [setActivation, audioPlay_eq hcb, AudioPlayPc.play, BqCallback.beforeEnqueue]
  | openSl i =>
    have hne : s.audioPlay.play ≠ .running := by
      intro hrun
      cases hp : s.audioPlay with
      | callback b =>
        have hbb : b.beforeEnqueue = true := by
          cases hbb : b.beforeEnqueue with
          | true => rfl
          | false => simp [hp, AudioPlayPc.play, hbb] at hrun
        -- the callback of `audio_play` and this one would both have the token
        have hmem : cb ∈ s.callbacks.filter BqCallback.beforeEnqueue :=
          List.mem_filter.mpr ⟨List.mem_of_getElem? hcb, hb⟩
        simp only [active, activations, hp, AudioPlayPc.activation, Option.toList_some, List.singleton_append,
          List.filter_cons_of_pos hbb, List.cons.injEq] at hact
        rw [hact.2] at hmem
        cases hmem
      | _ => simp [hp, AudioPlayPc.play] at hop hrun
    rw [if_neg hne]
    rfl

end AudioOutput

/-! ## The simulation -/

/-- A step of the audio output is a step of one of its threads, in a process that has not crashed. -/
theorem AudioOutput.step_eq_some {s s' : AudioOutput} {a : AudioOutput.Act} :
    s.step a = some s' ↔ s.channel.crash = none ∧ s.act a = some s' := by
  unfold AudioOutput.step
  cases s.channel.crash <;> simp

/-- But for the creation of `audio_play`, the statements of `start` are those of the channel. -/
theorem AudioOutput.start_eq {s : AudioOutput} (h : s.channel.ctl ≠ .decodeCreated) :
    s.start = s.channel.start.map fun c => { s with channel := c } := by
  unfold AudioOutput.start
  split
  · contradiction
  · rfl

/-- But for the join of `audio_play` and `Destroy`, the statements of `stop` are those of the channel. -/
theorem AudioOutput.stop_eq {s : AudioOutput} (h1 : s.channel.ctl ≠ .decodeJoined) (h2 : s.channel.ctl ≠ .swrFreed) :
    s.stop = s.channel.stop.map fun c => { s with channel := c } := by
  unfold AudioOutput.stop
  split
  · contradiction
  · contradiction
  · rfl

namespace StandsFor

variable {c : Channel} {s s' : AudioOutput}

/-- A step of the channel in which the output is left alone or signalled. -/
theorem same (c' : Channel) {a : ChannelAct} (h : StandsFor c s) (hr : (Channel.lts .audio).Reachable c)
    (hcrash : c.crash = none) (hact : c.act a = some c') (ho : c'.output = c.output ∨ c'.output = c.output.signalled)
    (hf : c'.outFrame = c.outFrame) (hp : c'.play = c.play)
    (hj : c'.ctl.joined = true → c.ctl.joined = true) :
    (Channel.lts .audio).Reachable c' ∧ StandsFor c' { s with channel := c'.withoutOutput } :=
  ⟨Channel.reachable_act hr hcrash hact, rfl, hp.trans h.play, h.token.same _ ho hf, fun hc => h.joined (hj hc)⟩

/-- A step of a thread in the callback. -/
theorem callback_step {t : AudioOutput.Thread} {samples : Int} (h : StandsFor c s)
    (hr : (Channel.lts .audio).Reachable c) (hcrash : c.crash = none) (hs : s.bqPlayerCallback t samples = some s') :
    ∃ c', (Channel.lts .audio).Reachable c' ∧ StandsFor c' s' := by
  have hk := Channel.kind_of_reachable hr
  obtain ⟨cb, hcb, hcases⟩ := AudioOutput.callback_cases hs
  have hop := h.token.opened hcb
  rcases hcases with ⟨hin, rfl⟩ | ⟨dataSize, hpc, rfl⟩ | ⟨hpc, rfl⟩
  · -- inside `getPcm`
    have hb := BqCallback.beforeEnqueue_of_inGetPcm hin
    obtain ⟨hact, hat, hf, hq⟩ := h.token.of_mem (AudioOutput.mem_activations hcb) hb
    obtain ⟨c', hr', hc', hat', hf', hp', hctl'⟩ := BqCallback.getPcm_standsAt samples hk hr hcrash hin hat hf
    rw [← h.channel] at hc' hat' hf'
    have hb' : (cb.getPcm s.channel samples).2.beforeEnqueue = true := by
      simpa [BqCallback.beforeEnqueue] using CallbackPc.standsAt_ne_returned hat'
    refine ⟨c', hr', hc', ?_, ?_, ?_⟩
    · rw [hp', h.play]
      exact (AudioOutput.play_setActivation hcb hb hb').symm
    · refine .callback (cb.getPcm s.channel samples).2 (AudioOutput.opened_setActivation hop _) ?_ hat' hf' ?_
      · have hset := (AudioOutput.active_setActivation hact hcb hb).2 (cb.getPcm s.channel samples).2
        rw [List.filter_cons_of_pos hb'] at hset
        exact hset
      · cases t <;> exact hq
    · rw [hctl']
      exact fun hc => AudioOutput.ended_setActivation hcb (h.joined hc) _
  · -- at its `Enqueue`
    have hb : cb.beforeEnqueue = true := by simp [BqCallback.beforeEnqueue, hpc]
    obtain ⟨hact, hat, hf, hq⟩ := h.token.of_mem (AudioOutput.mem_activations hcb) hb
    rw [hpc] at hat
    have hat : c.output = .enqueue dataSize := hat
    have hset := (AudioOutput.active_setActivation hact hcb hb).2 { cb with pc := .returned }
    refine ⟨{ c with
        output := if 0 < dataSize then .outstanding else .ended
        play := if c.play = .running then .returning else c.play },
      Channel.reachable_act (a := .output ⟨.eq, 0, true⟩) hr hcrash ?_, ?_, ?_, ?_, ?_⟩
    · simp [Channel.act, hk, AudioChannel.getPcm, hat]
    · cases t <;> exact h.channel
    · have hplay := AudioOutput.play_enqueued hop hact hcb hb
      rw [← h.play] at hplay
      exact hplay.symm
    · rw [hq]
      by_cases hd : 0 < dataSize
      · exact .buffer (AudioOutput.opened_setActivation hop _) (by simp [hd]) hset (by simp [hd, bufferQueueCapacity])
      · exact .gone (AudioOutput.opened_setActivation hop _) (by simp [hd]) hset (by simp [hd])
    · exact fun hc => AudioOutput.ended_setActivation hcb (h.joined hc) _
  · -- returning
    have hb : cb.beforeEnqueue = false := by simp [BqCallback.beforeEnqueue, hpc]
    have hactive := AudioOutput.active_returnFrom hcb hb
    have htoken : ∀ {c' : Channel}, c'.output = c.output → c'.outFrame = c.outFrame → Token (s.returnFrom t) c' := by
      intro c' ho hf
      have hop' : (s.returnFrom t).audioPlay.opened = true := by
        cases t with
        | audioPlay => rfl
        | openSl i => exact hop
      have hq' : (s.returnFrom t).queued = s.queued := by cases t <;> rfl
      cases h.token with
      | notCreated _ h2 => simp [h2] at hop
      | opening _ h2 => cases hp : s.audioPlay <;> simp [hp] at h2 hop
      | callback b _ h2 h3 h4 h5 => exact .callback b hop' (hactive.trans h2) (ho ▸ h3) (hf.trans h4) (hq'.trans h5)
      | buffer _ h2 h3 h4 => exact .buffer hop' (ho.trans h2) (hactive.trans h3) (hq'.trans h4)
      | gone _ h2 h3 h4 => exact .gone hop' (ho.trans h2) (hactive.trans h3) (hq'.trans h4)
    cases t with
    | openSl i => exact ⟨c, hr, h.channel, h.play, htoken rfl rfl, h.joined⟩
    | audioPlay =>
      have hplay : c.play = .returning := by
        rw [h.play, AudioOutput.audioPlay_eq hcb, AudioPlayPc.play, hb]
        rfl
      refine ⟨{ c with play := .ended }, Channel.reachable_act (a := .playReturn) hr hcrash ?_, h.channel, rfl,
        htoken rfl rfl, fun _ => rfl⟩
      simp [Channel.act, hplay]

/-- A step of the decode thread. -/
theorem decode_step {ret : Int} {x : Channel} (h : StandsFor c s) (hr : (Channel.lts .audio).Reachable c)
    (hcrash : c.crash = none) (hs : s.channel.act (.decode ret) = some x) :
    ∃ c', (Channel.lts .audio).Reachable c' ∧ StandsFor c' { s with channel := x } := by
  have hk := Channel.kind_of_reachable hr
  have hkw : c.withoutOutput.kind = .audio := hk
  rw [h.channel] at hs
  simp only [Channel.act, hkw, AudioChannel.decode_withoutOutput, Option.map_eq_some_iff] at hs
  obtain ⟨c', hc', rfl⟩ := hs
  have hact : c.act (.decode ret) = some c' := by simp only [Channel.act, hk, hc']
  obtain ⟨hkeeps, hstep⟩ := decode_cases hact
  exact ⟨c', StandsFor.same c' h hr hcrash hact hstep.output hkeeps.outFrame hkeeps.play (by rw [hkeeps.ctl]; exact id)⟩

/-- Before the last statement of `start` there is no output thread. -/
theorem notCreated (h : StandsFor c s) (hr : (Channel.lts .audio).Reachable c) (hctl : s.channel.ctl.outputs = false) :
    s.audioPlay = .notCreated ∧ s.callbacks = [] ∧ s.queued = 0 ∧ s.activated = false := by
  have hctl : c.ctl.outputs = false := by rw [h.channel] at hctl; exact hctl
  have hout : c.output = .notCreated := by
    by_contra ho
    rw [(phased_of_reachable hr).output.mp ho] at hctl
    cases hctl
  cases h.token with
  | notCreated _ h2 h3 h4 h5 => exact ⟨h2, h3, h4, h5⟩
  | opening h1 => rw [hout] at h1; cases h1
  | callback b _ _ h3 => rw [hout] at h3; cases hpc : b.pc <;> simp [hpc, CallbackPc.standsAt] at h3
  | buffer _ h2 => rw [hout] at h2; cases h2
  | gone _ h2 => rw [hout] at h2; cases h2

/-- A statement of `start`. -/
theorem start_step (h : StandsFor c s) (hr : (Channel.lts .audio).Reachable c) (hcrash : c.crash = none)
    (hs : s.start = some s') : ∃ c', (Channel.lts .audio).Reachable c' ∧ StandsFor c' s' := by
  have hk := Channel.kind_of_reachable hr
  have hctl : s.channel.ctl = c.ctl := by rw [h.channel, Channel.withoutOutput]
  by_cases hd : c.ctl = .decodeCreated
  · simp only [AudioOutput.start, hctl, hd, Option.some.injEq] at hs
    subst hs
    -- the channel's output and `audio_play` are created
    obtain ⟨-, h3, h4, h5⟩ := h.notCreated hr (by simp [hctl, hd])
    refine ⟨{ c with output := .enter, play := .running, ctl := .running }, Channel.reachable_act (a := .start) hr hcrash ?_,
      ?_, rfl, ?_, by simp⟩
    · simp [Channel.act, Channel.start, hd, hk]
    · rw [h.channel]
      rfl
    · exact .opening rfl rfl h3 h4 h5
  · rw [AudioOutput.start_eq (by rw [hctl]; exact hd), h.channel, Channel.start_withoutOutput hd] at hs
    simp only [Option.map_map, Option.map_eq_some_iff, Function.comp_apply] at hs
    obtain ⟨c', hc', rfl⟩ := hs
    obtain ⟨hstep, -⟩ := start_cases (c := c) hc'
    obtain ⟨h1, h2⟩ : c.ctl ≠ .decodeJoined ∧ c.ctl ≠ .swrFreed := by
      constructor <;> intro hc <;> simp [Channel.start, hc] at hc'
    obtain ⟨ho, hf, hp, hj⟩ := hstep.outputKept hd h1 h2
    exact ⟨c', StandsFor.same c' (a := .start) h hr hcrash hc' ho hf hp hj⟩

/-- A statement of `stop`. -/
theorem stop_step (h : StandsFor c s) (hr : (Channel.lts .audio).Reachable c) (hcrash : c.crash = none)
    (hs : s.stop = some s') : ∃ c', (Channel.lts .audio).Reachable c' ∧ StandsFor c' s' := by
  have hk := Channel.kind_of_reachable hr
  have hctl : s.channel.ctl = c.ctl := by rw [h.channel, Channel.withoutOutput]
  by_cases hdj : c.ctl = .decodeJoined
  · -- the join of `audio_play`
    simp only [AudioOutput.stop, hctl, hdj, Option.ite_none_right_eq_some, Option.some.injEq] at hs
    obtain ⟨hended, rfl⟩ := hs
    have hplay : c.play = .ended := by rw [h.play, hended, AudioPlayPc.play]
    refine ⟨{ c with ctl := .outputJoined }, Channel.reachable_act (a := .stop) hr hcrash ?_, ?_, h.play,
      h.token.same _ (Or.inl rfl) rfl, fun _ => hended⟩
    · simp [Channel.act, Channel.stop, hdj, Channel.outputReturned, hk, hplay]
    · rw [h.channel]
      rfl
  · by_cases hsf : c.ctl = .swrFreed
    · -- `Destroy`
      simp only [AudioOutput.stop, hctl, hsf, Option.ite_none_right_eq_some, Option.some.injEq] at hs
      obtain ⟨hcbs, rfl⟩ := hs
      have hended : s.audioPlay = .ended := h.joined (by simp [hsf])
      have hactive : s.active = [] := by
        simp [AudioOutput.active, AudioOutput.activations, hcbs, hended, AudioPlayPc.activation]
      have hidle : c.callbackIdle = true := by
        cases h.token with
        | notCreated _ h2 => simp [hended] at h2
        | opening _ h2 => simp [hended] at h2
        | callback b _ h2 => simp [hactive] at h2
        | buffer _ h2 => simp [Channel.callbackIdle, h2]
        | gone _ h2 => simp [Channel.callbackIdle, h2]
      refine ⟨{ c with output := .ended, ctl := .stopped }, Channel.reachable_act (a := .stop) hr hcrash ?_, ?_, h.play,
        ?_, fun _ => hended⟩
      · simp [Channel.act, Channel.stop, hsf, hidle]
      · rw [h.channel]
        rfl
      · exact .gone (by simp [hended]) rfl hactive rfl
    · rw [AudioOutput.stop_eq (by rw [hctl]; exact hdj) (by rw [hctl]; exact hsf), h.channel,
        Channel.stop_withoutOutput hdj hsf] at hs
      simp only [Option.map_map, Option.map_eq_some_iff, Function.comp_apply] at hs
      obtain ⟨c', hc', rfl⟩ := hs
      have hdc : c.ctl ≠ .decodeCreated := by
        intro hc
        simp [Channel.stop, hc] at hc'
      obtain ⟨ho, hf, hp, hj⟩ := (stop_cases hc').outputKept hdc hdj hsf
      exact ⟨c', StandsFor.same c' (a := .stop) h hr hcrash hc' ho hf hp hj⟩

/-- A step of `audio_play` before its callback. -/
theorem initStart_step {slResult : Bool} (h : StandsFor c s) (hr : (Channel.lts .audio).Reachable c)
    (hcrash : c.crash = none) (hs : s.initStart slResult = some s') :
    ∃ c', (Channel.lts .audio).Reachable c' ∧ StandsFor c' s' := by
  have hk := Channel.kind_of_reachable hr
  have hopening : s.audioPlay.opening = true := by
    cases hp : s.audioPlay <;> simp [AudioOutput.initStart, hp] at hs ⊢
  obtain ⟨hout, hcbs, hq, ha⟩ := h.token.of_opening hopening
  have hplay : c.play = .running := by
    rw [h.play]
    cases hp : s.audioPlay <;> simp [hp] at hopening <;> rfl
  have hjoined : c.ctl.joined = true → False := by
    intro hj
    simp [h.joined hj] at hopening
  unfold AudioOutput.initStart at hs
  split at hs
  case h_1 call hp =>
    cases hs
    cases slResult with
    | true =>
      refine ⟨c, hr, h.channel, ?_, .opening hout ?_ hcbs hq ha, fun hj => (hjoined hj).elim⟩
      · rw [hplay]
        cases call <;> rfl
      · cases call <;> rfl
    | false =>
      -- `init_start` returns, and the thread with it
      have hr' : (Channel.lts .audio).Reachable { c with output := .ended, play := .returning } :=
        Channel.reachable_act (a := .output ⟨.eq, 0, false⟩) hr hcrash (by
          simp [Channel.act, hk, AudioChannel.getPcm, hout])
      refine ⟨{ c with output := .ended, play := .ended }, Channel.reachable_act (a := .playReturn) hr' hcrash rfl,
        h.channel, rfl, .gone rfl rfl ?_ hq, fun _ => rfl⟩
      simp [AudioOutput.active, AudioOutput.activations, hcbs, AudioPlayPc.activation]
  case h_2 hp =>
    cases hs
    refine ⟨{ c with output := .pop .call, outFrame := none },
      Channel.reachable_act (a := .output ⟨.eq, 0, true⟩) hr hcrash ?_, h.channel, hplay, ?_,
      fun hj => (hjoined hj).elim⟩
    · simp [Channel.act, hk, AudioChannel.getPcm, hout]
    · refine .callback BqCallback.called rfl ?_ (Or.inl rfl) rfl hq
      simp [AudioOutput.active, AudioOutput.activations, hcbs, AudioPlayPc.activation, BqCallback.called,
        BqCallback.beforeEnqueue]
  all_goals cases hs

/-- OpenSL runs the callback for a buffer it has played. -/
theorem bufferFinished_step (h : StandsFor c s) (hr : (Channel.lts .audio).Reachable c) (hcrash : c.crash = none)
    (hs : s.bufferFinished = some s') : ∃ c', (Channel.lts .audio).Reachable c' ∧ StandsFor c' s' := by
  have hk := Channel.kind_of_reachable hr
  simp only [AudioOutput.bufferFinished, Option.ite_none_right_eq_some, Option.some.injEq] at hs
  obtain ⟨hq, rfl⟩ := hs
  obtain ⟨hop, hout, hactive, hq1⟩ := h.token.of_queued hq
  refine ⟨{ c with output := .pop .call, outFrame := none },
    Channel.reachable_act (a := .output ⟨.eq, 0, true⟩) hr hcrash ?_, h.channel, h.play, ?_, h.joined⟩
  · simp [Channel.act, hk, AudioChannel.getPcm, hout]
  · refine .callback BqCallback.called hop ?_ (Or.inl rfl) rfl (by simp [hq1])
    simp only [AudioOutput.active, AudioOutput.activations] at hactive ⊢
    rw [← List.append_assoc, List.filter_append, hactive]
    rfl

/-- Every step of the audio output is answered. -/
theorem step {a : AudioOutput.Act} (h : StandsFor c s) (hr : (Channel.lts .audio).Reachable c)
    (hs : s.step a = some s') : ∃ c', (Channel.lts .audio).Reachable c' ∧ StandsFor c' s' := by
  obtain ⟨hcrash, hs⟩ := AudioOutput.step_eq_some.mp hs
  rw [h.channel] at hcrash
  have hcrash : c.crash = none := hcrash
  cases a with
  | decode ret =>
    obtain ⟨x, hx, rfl⟩ := Option.map_eq_some_iff.mp hs
    exact h.decode_step hr hcrash hx
  | wakeDecode =>
    simp only [AudioOutput.act, h.channel, Channel.act, Option.map_eq_some_iff, Option.ite_none_right_eq_some,
      Option.some.injEq] at hs
    obtain ⟨x, ⟨hd, rfl⟩, rfl⟩ := hs
    exact ⟨_, StandsFor.same { c with decode := .pop .woken } (a := .wakeDecode) h hr hcrash (if_pos hd) (Or.inl rfl) rfl
      rfl id⟩
  | push packet =>
    simp only [AudioOutput.act, h.channel, Channel.act, Option.map_some, Option.some.injEq] at hs
    subst hs
    exact ⟨_, StandsFor.same (c.pushPacket packet) (a := .push packet) h hr hcrash rfl (Or.inl rfl) rfl rfl id⟩
  | initStart slResult => exact h.initStart_step hr hcrash hs
  | callback t samples => exact h.callback_step hr hcrash hs
  | bufferFinished => exact h.bufferFinished_step hr hcrash hs
  | start => exact h.start_step hr hcrash hs
  | stop => exact h.stop_step hr hcrash hs

end StandsFor

/-- Every run of the audio output is answered by a run of the channel. -/
theorem standsFor_of_reachable {s : AudioOutput} (h : AudioOutput.lts.Reachable s) :
    ∃ c, (Channel.lts .audio).Reachable c ∧ StandsFor c s := by
  refine Lts.Reachable.simulated (R := fun s c => StandsFor c s) ?_ ?_ h
  · rintro s ⟨id, rfl⟩
    exact ⟨Channel.new .audio id, Lts.Reachable.init ⟨id, rfl⟩, rfl, rfl, .notCreated rfl rfl rfl rfl rfl,
      by simp [Channel.new]⟩
  · intro s a s' c _ hs hr h
    exact h.step hr hs

end LibraLive

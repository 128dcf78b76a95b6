import LibraLive.Lemmas.ChannelPhase
import LibraLive.Lemmas.OutputHand
import LibraLive.RenderThread

/-!
# `render` releases the frames it takes

A frame that is shown, or that `pop` delivers when the channel is stopping, is released before the next one is taken. A late
frame stays in the variable: it is released if `render` ends with it, and lost if `pop` delivers another.
-/

namespace LibraLive

/-- `render` between two frames, in the loop. -/
def OutputPc.between : OutputPc → Bool
  | .sync | .whileTest | .pop .call | .pop .asleep | .pop .woken | .pop (.returned false) => true
  | _ => false

attribute [simp] OutputPc.between

@[simp] theorem OutputPc.between_signalled (pc : OutputPc) : pc.signalled.between = pc.between := by
  cases pc with
  | pop p => cases p <;> rfl
  | _ => rfl

/-- Between two frames there is none in use. -/
theorem OutputPc.apart_of_between {pc : OutputPc} (h : pc.between = true) :
    pc.gotFrame = false ∧ pc ≠ .enter ∧ pc ≠ .leave ∧ pc ≠ .ended := by
  revert h
  cases pc with
  | pop p =>
    cases p with
    | returned ret => cases ret <;> simp
    | _ => simp
  | _ => simp

/-- While one is in use the thread is in the loop. -/
theorem OutputPc.apart_of_gotFrame {pc : OutputPc} (h : pc.gotFrame = true) :
    pc.between = false ∧ pc ≠ .enter ∧ pc ≠ .leave ∧ pc ≠ .ended := by
  revert h
  cases pc with
  | pop p =>
    cases p with
    | returned ret => cases ret <;> simp
    | _ => simp
  | _ => simp

namespace Channel

variable {c c' : Channel} {t t' : Channel × List RenderEvent} {a : RenderAct}

/-- Every frame that was popped is released, once and nothing else with it, before the next one is popped or `render` ends. -/
def ReleasesPopped (t : Channel × List RenderEvent) : Prop :=
  ∀ before frame between after, t.2 = before ++ .popped frame :: between ++ after → (∀ next, .popped next ∉ between) →
    (after = [] ∧ t.1.output = .ended ∨ ∃ next rest, after = .popped next :: rest) →
      between.count (.released frame) = 1 ∧ ∀ other, other ≠ frame → .released other ∉ between

/-- No frame is delivered after one that was late. -/
def TakesNoneAfterLate (t : Channel × List RenderEvent) (a : RenderAct) : Prop :=
  ∀ frame late, frame ∈ t.1.delivered a → .late late ∉ t.2

/-! ## Events of frames as events of ownership -/

/-- The ownership of a record. -/
def ownership (log : List RenderEvent) : List (OwnEvent AVFrame) := log.map RenderEvent.own

theorem acquire_mem_ownership {log : List RenderEvent} {frame : AVFrame} :
    .acquire frame ∈ ownership log ↔ .popped frame ∈ log := by
  unfold ownership
  rw [List.mem_map]
  constructor
  · rintro ⟨e, he, heq⟩
    cases e <;> cases heq
    exact he
  · exact fun h => ⟨_, h, rfl⟩

theorem count_free_ownership (log : List RenderEvent) (frame : AVFrame) :
    (ownership log).count (.free frame) = log.count (.released frame) := by
  unfold ownership
  induction log with
  | nil => rfl
  | cons e log ih =>
    rw [List.map_cons, List.count_cons, List.count_cons, ih]
    cases e <;> simp [RenderEvent.own]

theorem count_pass_ownership (log : List RenderEvent) (frame : AVFrame) : (ownership log).count (.pass frame) = 0 := by
  rw [List.count_eq_zero]
  unfold ownership
  rw [List.mem_map]
  rintro ⟨e, -, heq⟩
  cases e <;> cases heq

/-! ## One step -/

/-- A step that leaves the queue and what was freed alone. -/
theorem renderEvents_of_same (hfreed : c'.freedFrames = c.freedFrames) (hframes : c'.frames = c.frames) :
    VideoChannel.renderEvents c c' = (if c.output = .audioTime then c.outFrame.toList.map .used else []) ++
      if c'.output = .sync then c.outFrame.toList.map .late else [] := by
  simp [VideoChannel.renderEvents, hfreed, hframes]

/-- `releaseAvFrame` on the variable, with nothing else. -/
theorem renderEvents_of_release (ho : c.output ≠ .audioTime) (ho' : c'.output ≠ .sync)
    (hfreed : c'.freedFrames = c.freedFrames ++ c.outFrame.toList) (hframes : c'.frames = c.frames) :
    VideoChannel.renderEvents c c' = c.outFrame.toList.map .released := by
  simp [VideoChannel.renderEvents, ho, ho', hfreed, hframes]

/-- `frames.pop` takes the front off, if there is one. -/
theorem renderEvents_of_pop (ho : c.output = .pop .call ∨ c.output = .pop .woken) :
    (c.frames.queue.items = [] ∧ VideoChannel.renderEvents c c.outputPop = [] ∧ c.outputPop.outFrame = c.outFrame ∧
      c.outputPop.output.between = true) ∨
    ∃ frame, c.frames.queue.items.head? = some frame ∧ VideoChannel.renderEvents c c.outputPop = [.popped frame] ∧
      c.outputPop.outFrame = some frame ∧ c.outputPop.output = .pop (.returned true) := by
  have hne : c.output ≠ .audioTime := by rcases ho with ho | ho <;> rw [ho] <;> simp
  rcases c.frames.popSection_cases with ⟨hp, hitems, -⟩ | ⟨hp, hitems, -⟩ | ⟨frame, rest, hp, hitems⟩
  · exact Or.inl ⟨hitems, by simp [VideoChannel.renderEvents, outputPop, hne, hp]⟩
  · exact Or.inl ⟨hitems, by simp [VideoChannel.renderEvents, outputPop, hne, hp]⟩
  · have hleft : Change.left c.frames.queue.items c.outputPop.frames.queue.items = [frame] :=
      Change.left_of_eq (by simp [outputPop, hp, hitems])
    refine Or.inr ⟨frame, by rw [hitems]; rfl, ?_, by simp [outputPop, hp], by simp [outputPop, hp]⟩
    unfold VideoChannel.renderEvents
    rw [hleft, if_neg hne]
    simp [outputPop, hp]

/-- `frames.sync()` frees what it takes off the queue. -/
theorem renderEvents_of_sync (ho : c.output = .sync) :
    VideoChannel.renderEvents c { c.framesSync with output := .whileTest } = [] := by
  have hleft : Change.left c.frames.queue.items c.framesSync.frames.queue.items = (c.frames.sync dropAvFrame).2 :=
    Change.left_of_eq (dropAvFrame_freesWhatItTakes c.frames.queue)
  have hjoined : Change.joined c.freedFrames c.framesSync.freedFrames = (c.frames.sync dropAvFrame).2 :=
    Change.joined_append _ _
  have hdiff : (c.frames.sync dropAvFrame).2.diff (c.frames.sync dropAvFrame).2 = [] := by
    unfold MessageQueue.sync dropAvFrame
    cases c.frames.queue.items <;> simp
  simp only [VideoChannel.renderEvents, ho, hleft, hjoined, hdiff]
  rfl

/-- What a step of `render` does to the place of the thread and to the variable, and what it does with frames: it enters the
loop, finds a late frame, goes on between two frames, takes one, uses it, shows it, or leaves. -/
inductive RenderMove (c c' : Channel) (events : List RenderEvent) : Prop where
  | enters : c.output = .enter → c'.output = .whileTest → events = [] → c'.outFrame = none → RenderMove c c' events
  | late : c.output = .audioTime → c'.output = .sync → events = c.outFrame.toList.map .used ++ c.outFrame.toList.map .late →
      c'.outFrame = c.outFrame → RenderMove c c' events
  | waits : c.output.between = true → c'.output.between = true ∨ c'.output = .leave → events = [] →
      c'.outFrame = c.outFrame → RenderMove c c' events
  | takes (frame : AVFrame) : c.output = .pop .call ∨ c.output = .pop .woken → c'.output = .pop (.returned true) →
      c.frames.queue.items.head? = some frame → events = [.popped frame] → c'.outFrame = some frame → RenderMove c c' events
  | uses : c.output.gotFrame = true → c'.output.gotFrame = true ∨ c'.output = .leave →
      events = [] ∨ events = c.outFrame.toList.map .used → c'.outFrame = c.outFrame → RenderMove c c' events
  | shows : c.output.gotFrame = true → c'.output = .whileTest → events = c.outFrame.toList.map .released →
      c'.outFrame = none → RenderMove c c' events
  | leaves : c.output = .leave → c'.output = .ended → events = c.outFrame.toList.map .released → c'.outFrame = none →
      RenderMove c c' events

theorem render_moves {i : OutputInput} (h : VideoChannel.render c i = some c') :
    RenderMove c c' (VideoChannel.renderEvents c c') := by
  unfold VideoChannel.render at h
  split at h
  case h_1 ho =>
    have hev : VideoChannel.renderEvents c c' = _ := renderEvents_of_same (by cases h; rfl) (by cases h; rfl)
    cases h
    exact .enters ho rfl (by rw [hev, ho]; rfl) rfl
  case h_2 ho =>
    have hev : VideoChannel.renderEvents c c' = _ := renderEvents_of_same (by cases h; rfl) (by cases h; rfl)
    cases h
    rw [ho] at hev
    refine .waits (by simp [ho]) ?_ ?_ rfl
    · cases c.isPlaying
      · exact Or.inr rfl
      · exact Or.inl rfl
    · rw [hev]
      cases c.isPlaying <;> rfl
  case h_3 ho | h_4 ho =>
    cases h
    rcases renderEvents_of_pop (c := c) (by rw [ho]; simp) with ⟨-, hev, hframe, ho'⟩ | ⟨frame, hfront, hev, hframe, ho'⟩
    · exact .waits (by simp [ho]) (Or.inl ho') hev hframe
    · exact .takes frame (by simp [ho]) ho' hfront hev hframe
  case h_5 ret ho =>
    have hev : VideoChannel.renderEvents c c' = _ := renderEvents_of_same (by cases h; rfl) (by cases h; rfl)
    cases h
    rw [ho] at hev
    replace hev := hev.trans (by cases c.isPlaying <;> cases ret <;> rfl : _ = [])
    cases ret with
    | true =>
      refine .uses (by simp [ho]) ?_ (Or.inl hev) rfl
      cases c.isPlaying
      · exact Or.inr rfl
      · exact Or.inl rfl
    | false =>
      refine .waits (by simp [ho]) ?_ hev rfl
      cases c.isPlaying
      · exact Or.inr rfl
      · exact Or.inl rfl
  case h_6 ho =>
    split at h
    · have hev : VideoChannel.renderEvents c c' = _ := renderEvents_of_same (by cases h; rfl) (by cases h; rfl)
      cases h
      rw [if_pos ho, if_neg (by simp [ho]), List.append_nil] at hev
      exact .uses (by rw [ho]; rfl) (Or.inl (by simp [ho])) (Or.inr hev) rfl
    · split at h
      · have hev : VideoChannel.renderEvents c c' = _ := renderEvents_of_same (by cases h; rfl) (by cases h; rfl)
        cases h
        rw [ho] at hev
        exact .late ho rfl hev rfl
      · have hev : VideoChannel.renderEvents c c' = _ := renderEvents_of_same (by cases h; rfl) (by cases h; rfl)
        cases h
        rw [ho] at hev
        exact .uses (by rw [ho]; rfl) (Or.inl rfl) (Or.inr (hev.trans (List.append_nil _))) rfl
  case h_7 ho =>
    cases h
    exact .waits (by simp [ho]) (Or.inl rfl) (renderEvents_of_sync ho) rfl
  case h_8 ho =>
    have hev : VideoChannel.renderEvents c c' = _ :=
      renderEvents_of_release (by simp [ho]) (by cases h; simp) (by cases h; rfl) (by cases h; rfl)
    cases h
    exact .shows (by simp [ho]) rfl hev rfl
  case h_9 ho =>
    have hev : VideoChannel.renderEvents c c' = _ :=
      renderEvents_of_release (by simp [ho]) (by cases h; simp) (by cases h; rfl) (by cases h; rfl)
    cases h
    exact .leaves ho rfl hev rfl
  case h_10 => cases h

/-- What `pop` is about to deliver is the front of the queue. -/
theorem mem_delivered {frame : AVFrame} {i : OutputInput} : frame ∈ c.delivered (.render i) ↔
    (c.output = .pop .call ∨ c.output = .pop .woken) ∧ c.frames.queue.items.head? = some frame := by
  unfold delivered
  split
  case h_1 ho | h_2 ho => simp [ho]
  case h_3 hcall hwoken =>
    simp only [List.not_mem_nil, false_iff, not_and]
    rintro (ho | ho)
    · exact absurd ho (hcall i rfl)
    · exact absurd ho (hwoken i rfl)

/-- A frame is taken between two frames, it is the one that was to be delivered, and nothing else is done in that step. -/
theorem RenderMove.of_popped {events : List RenderEvent} {frame : AVFrame} (h : RenderMove c c' events)
    (hmem : .popped frame ∈ events) :
    c.output.between = true ∧ (∀ i, frame ∈ c.delivered (.render i)) ∧ events = [.popped frame] := by
  cases h with
  | takes _ ho _ hfront hev =>
    refine ⟨by rcases ho with ho | ho <;> simp [ho], ?_⟩
    rw [hev] at hmem
    obtain rfl := RenderEvent.popped.inj (List.mem_singleton.mp hmem)
    exact ⟨fun i => mem_delivered.mpr ⟨ho, hfront⟩, hev⟩
  | enters _ _ hev | late _ _ hev | waits _ _ hev | shows _ _ hev | leaves _ _ hev => simp [hev] at hmem
  | uses _ _ hev => rcases hev with hev | hev <;> simp [hev] at hmem

/-- A frame is late when the thread goes on to `frames.sync()`, and in no other step. -/
theorem RenderMove.of_late {events : List RenderEvent} {frame : AVFrame} (h : RenderMove c c' events)
    (hmem : .late frame ∈ events) : c'.output = .sync := by
  cases h with
  | late _ ho' => exact ho'
  | enters _ _ hev | waits _ _ hev | takes _ _ _ _ hev | shows _ _ hev | leaves _ _ hev => simp [hev] at hmem
  | uses _ _ hev => rcases hev with hev | hev <;> simp [hev] at hmem

/-- Read as ownership, a step of `render` that takes no frame while it has one leads from what is in the variable to what is in
it then. -/
theorem RenderMove.owns {events : List RenderEvent} (h : RenderMove c c' events) (henter : c.output = .enter → c.outFrame = none)
    (hpop : ∀ frame, .popped frame ∈ events → c.outFrame = none) :
    Ownership.run c.outFrame.toList (ownership events) = some c'.outFrame.toList := by
  cases h with
  | enters ho _ hev hframe =>
    rw [hev, hframe, henter ho]
    rfl
  | late _ _ hev hframe =>
    rw [hev, hframe]
    cases c.outFrame <;> simp [ownership, RenderEvent.own, Ownership.step]
  | waits _ _ hev hframe =>
    rw [hev, hframe]
    rfl
  | takes frame _ _ _ hev hframe =>
    have hnone : c.outFrame = none := hpop frame (by simp [hev])
    rw [hev, hframe, hnone]
    simp [ownership, RenderEvent.own, Ownership.step]
  | uses _ _ hev hframe =>
    rw [hframe]
    rcases hev with hev | hev
    · rw [hev]
      rfl
    · rw [hev]
      cases c.outFrame <;> simp [ownership, RenderEvent.own, Ownership.step]
  | shows _ _ hev hframe | leaves _ _ hev hframe =>
    rw [hev, hframe]
    cases c.outFrame <;> simp [ownership, RenderEvent.own, Ownership.step]

/-- An entry of two lists put together is in the first or in the second. -/
theorem split_append {α : Type*} {x : α} {l more before after : List α} (h : l ++ more = before ++ x :: after) :
    (∃ after', l = before ++ x :: after') ∨ ∃ first rest, more = first ++ x :: rest ∧ before = l ++ first := by
  rcases List.append_eq_append_iff.mp h with ⟨first, hbefore, hmore⟩ | ⟨common, hl, hcons⟩
  · exact Or.inr ⟨first, after, hmore, hbefore⟩
  · cases common with
    | nil => exact Or.inr ⟨[], after, hcons.symm, by rw [hl]; simp⟩
    | cons y common =>
      cases hcons
      exact Or.inl ⟨common, hl⟩

/-! ## A run -/

/-- What `render` owes so far: what is in its variable. Between two frames that is a late one at most, and once there is a late
frame it stays there. -/
structure Owing (t : Channel × List RenderEvent) : Prop where
  kind : t.1.kind = .video
  run : Ownership.run [] (ownership t.2) = some t.1.outFrame.toList
  alone : ∀ before frame after, t.2 = before ++ .popped frame :: after → Ownership.run [] (ownership before) = some []
  got : t.1.output.gotFrame = true → t.1.outFrame ≠ none
  enter : t.1.output = .enter → t.1.outFrame = none ∧ t.2 = []
  ended : t.1.output = .ended → t.1.outFrame = none
  held : t.1.output.between = true → t.1.outFrame ≠ none → ∃ frame, .late frame ∈ t.2
  afterLate : ∀ frame, .late frame ∈ t.2 →
    (t.1.output.between = true ∨ t.1.output = .leave) ∧ t.1.outFrame ≠ none ∨ t.1.output = .ended

theorem Owing.others (ht : Owing t) (hm : t.1.OutputMeddled c') : Owing (c', t.2) := by
  obtain ⟨hkind, hframe, ho⟩ := hm
  have hgot : c'.output.gotFrame = t.1.output.gotFrame := by
    rcases ho with ho | ho
    · rw [ho]
    · rw [ho, OutputPc.gotFrame_signalled]
  have hbetween : c'.output.between = t.1.output.between := by
    rcases ho with ho | ho
    · rw [ho]
    · rw [ho, OutputPc.between_signalled]
  have henter : c'.output = .enter ↔ t.1.output = .enter := by
    rcases ho with ho | ho <;> simp [ho]
  have hended : c'.output = .ended ↔ t.1.output = .ended := by
    rcases ho with ho | ho <;> simp [ho]
  have hleave : c'.output = .leave ↔ t.1.output = .leave := by
    rcases ho with ho | ho <;> simp [ho]
  constructor
  case kind => exact hkind.trans ht.kind
  case run => simpa only [hframe] using ht.run
  case alone => exact ht.alone
  case got => simpa only [hframe, hgot] using ht.got
  case enter => simpa only [hframe, henter] using ht.enter
  case ended => simpa only [hframe, hended] using ht.ended
  case held => simpa only [hframe, hbetween] using ht.held
  case afterLate => simpa only [hframe, hbetween, hended, hleave] using ht.afterLate

/-- While `render` uses a frame there has been no late one. -/
theorem Owing.no_late (ht : Owing t) (ho : t.1.output.gotFrame = true) (frame : AVFrame) : .late frame ∉ t.2 := by
  intro hmem
  obtain ⟨hbetween, -, hleave, hended⟩ := OutputPc.apart_of_gotFrame ho
  rcases ht.afterLate frame hmem with ⟨hplace | hplace, -⟩ | hplace
  · rw [hbetween] at hplace
    cases hplace
  · exact hleave hplace
  · exact hended hplace

/-- Nor is there one after a step that finds none. -/
theorem Owing.still_no_late {events : List RenderEvent} (ht : Owing t) (ho : t.1.output.gotFrame = true)
    (hevents : ∀ frame, .late frame ∉ events) (frame : AVFrame) : .late frame ∉ t.2 ++ events := by
  intro hmem
  rcases List.mem_append.mp hmem with hmem | hmem
  · exact ht.no_late ho frame hmem
  · exact hevents frame hmem

/-- When a frame is delivered, and none was late, nothing is owed. -/
theorem Owing.nothing {i : OutputInput} {frame : AVFrame} (ht : Owing t) (hcond : TakesNoneAfterLate t (.render i))
    (hmem : frame ∈ t.1.delivered (.render i)) : t.1.outFrame = none := by
  have hbetween : t.1.output.between = true := by
    rcases (mem_delivered.mp hmem).1 with ho | ho <;> rw [ho] <;> rfl
  by_contra hframe
  obtain ⟨late, hlate⟩ := ht.held hbetween hframe
  exact hcond frame late hmem hlate

/-- After one more step what is owed is what is in the variable then. -/
theorem Owing.run_move {i : OutputInput} {events : List RenderEvent} (ht : Owing t) (hcond : TakesNoneAfterLate t (.render i))
    (hmove : RenderMove t.1 c' events) : Ownership.run [] (ownership (t.2 ++ events)) = some c'.outFrame.toList := by
  unfold ownership
  rw [List.map_append, Ownership.run_append]
  refine Option.bind_eq_some_iff.mpr ⟨_, ht.run, ?_⟩
  exact hmove.owns (fun ho => (ht.enter ho).1) (fun frame hmem => ht.nothing hcond ((hmove.of_popped hmem).2.1 i))

/-- A frame that the step takes is taken when nothing is owed. -/
theorem Owing.alone_move {i : OutputInput} {events before after : List RenderEvent} {frame : AVFrame} (ht : Owing t)
    (hcond : TakesNoneAfterLate t (.render i)) (hmove : RenderMove t.1 c' events)
    (heq : t.2 ++ events = before ++ .popped frame :: after) : Ownership.run [] (ownership before) = some [] := by
  rcases split_append heq with ⟨after', hold⟩ | ⟨first, rest, hnew, rfl⟩
  · exact ht.alone before frame after' hold
  · have hmem : .popped frame ∈ events := by
      rw [hnew]
      simp
    have hfirst : first = [] := by
      have hone := (hmove.of_popped hmem).2.2
      rw [hnew, List.append_eq_singleton_iff] at hone
      rcases hone with ⟨hfirst, -⟩ | ⟨-, hcons⟩
      · exact hfirst
      · cases hcons
    rw [hfirst, List.append_nil, ht.run, ht.nothing hcond ((hmove.of_popped hmem).2.1 i)]
    rfl

/-- A step of `render` that takes no frame after a late one. -/
theorem Owing.render {i : OutputInput} (ht : Owing t) (hcond : TakesNoneAfterLate t (.render i))
    (h : t.1.act (.output i) = some c') : Owing (c', t.2 ++ VideoChannel.renderEvents t.1 c') := by
  have hkind : c'.kind = .video := (act_kind_id h).1.trans ht.kind
  simp only [act, ht.kind] at h
  have hmove : RenderMove t.1 c' (VideoChannel.renderEvents t.1 c') := render_moves h
  have hrun := ht.run_move hcond hmove
  have halone : ∀ before frame after, t.2 ++ VideoChannel.renderEvents t.1 c' = before ++ .popped frame :: after →
      Ownership.run [] (ownership before) = some [] := fun _ _ _ => ht.alone_move hcond hmove
  have hlate : c'.output ≠ .sync → ∀ frame, .late frame ∉ VideoChannel.renderEvents t.1 c' :=
    fun hne frame hmem => hne (hmove.of_late hmem)
  cases hmove with
  | enters ho ho' hev hframe =>
    rw [hev, List.append_nil] at hrun halone ⊢
    have hempty := (ht.enter ho).2
    exact ⟨hkind, hrun, halone, by simp [ho'], by simp [ho'], by simp [ho'], fun _ hne => absurd hframe hne,
      fun frame hmem => by simp [hempty] at hmem⟩
  | late ho ho' hev hframe =>
    obtain ⟨frame, hin⟩ := Option.ne_none_iff_exists'.mp (ht.got (by simp [ho]))
    refine ⟨hkind, hrun, halone, by simp [ho'], by simp [ho'], by simp [ho'], fun _ _ => ⟨frame, ?_⟩, fun _ _ => Or.inl ?_⟩
    · exact List.mem_append_right _ (by simp [hev, hin])
    · exact ⟨Or.inl (by simp [ho']), by simp [hframe, hin]⟩
  | waits ho ho' hev hframe =>
    rw [hev, List.append_nil] at hrun halone ⊢
    have hplace : c'.output.gotFrame = false ∧ c'.output ≠ .enter ∧ c'.output ≠ .ended := by
      rcases ho' with ho' | ho'
      · obtain ⟨hgot, henter, -, hended⟩ := OutputPc.apart_of_between ho'
        exact ⟨hgot, henter, hended⟩
      · simp [ho']
    refine ⟨hkind, hrun, halone, by simp only [hplace.1]; simp, fun he => absurd he hplace.2.1,
      fun he => absurd he hplace.2.2, fun _ hframe' => ht.held ho (hframe ▸ hframe'), fun frame hmem => ?_⟩
    rcases ht.afterLate frame hmem with ⟨-, hframe'⟩ | hended
    · exact Or.inl ⟨ho', hframe ▸ hframe'⟩
    · exact absurd hended (OutputPc.apart_of_between ho).2.2.2
  | takes frame ho ho' hfront hev hframe =>
    rw [hev] at hrun halone ⊢
    refine ⟨hkind, hrun, halone, by simp [hframe], by simp [ho'], by simp [ho'], by simp [ho'], fun late hmem => ?_⟩
    have hmem : .late late ∈ t.2 := by simpa using hmem
    exact absurd hmem (hcond frame late (mem_delivered.mpr ⟨ho, hfront⟩))
  | uses ho ho' hev hframe =>
    have hsync : c'.output ≠ .sync := by
      rintro hsync
      rcases ho' with ho' | ho' <;> simp [hsync] at ho'
    refine ⟨hkind, hrun, halone, fun _ => hframe ▸ ht.got ho, ?_, ?_, ?_,
      fun frame hmem => absurd hmem (ht.still_no_late ho (hlate hsync) frame)⟩
    · rcases ho' with ho' | ho'
      · exact fun he => absurd he (OutputPc.apart_of_gotFrame ho').2.1
      · simp [ho']
    · rcases ho' with ho' | ho'
      · exact fun he => absurd he (OutputPc.apart_of_gotFrame ho').2.2.2
      · simp [ho']
    · rcases ho' with ho' | ho'
      · simp only [(OutputPc.apart_of_gotFrame ho').1]
        simp
      · simp [ho']
  | shows ho ho' hev hframe =>
    exact ⟨hkind, hrun, halone, by simp [ho'], by simp [ho'], by simp [ho'], fun _ hne => absurd hframe hne,
      fun frame hmem => absurd hmem (ht.still_no_late ho (hlate (by simp [ho'])) frame)⟩
  | leaves ho ho' hev hframe =>
    exact ⟨hkind, hrun, halone, by simp [ho'], by simp [ho'], fun _ => hframe, fun _ hne => absurd hframe hne,
      fun _ _ => Or.inr ho'⟩

/-- The record of a run keeps what is owed. -/
theorem owing (h : ((renderLts.observe renderEvents).restrict TakesNoneAfterLate).Reachable t) : Owing t := by
  refine Lts.Reachable.restrict_invariant ?_ ?_ h
  · rintro ⟨c, log⟩ ⟨⟨hk, ho, hframe⟩, rfl⟩
    dsimp only at hk ho hframe
    refine ⟨hk, by simp [ownership, hframe], ?_, by simp [ho], fun _ => ⟨hframe, rfl⟩, fun _ => hframe,
      fun _ hne => absurd hframe hne, fun _ hmem => by cases hmem⟩
    intro before frame after heq
    simp at heq
  · rintro t a ⟨c', log'⟩ _ hcond ht ⟨hstep, hlog⟩
    dsimp only at hlog
    subst hlog
    cases a with
    | render i => exact ht.render hcond hstep
    | others =>
      have ho := ht.others hstep
      rw [← List.append_nil t.2] at ho
      exact ho

/-- Where nothing is owed in the end, the frame popped was released once, and no other. -/
theorem released_once {before between after : List RenderEvent} {frame : AVFrame} (ht : Owing t)
    (heq : t.2 = before ++ .popped frame :: between ++ after) (hnone : ∀ next, .popped next ∉ between)
    (hend : Ownership.run [] (ownership (before ++ .popped frame :: between)) = some []) :
    between.count (.released frame) = 1 ∧ ∀ other, other ≠ frame → .released other ∉ between := by
  have hbefore := ht.alone before frame (between ++ after) (by rw [heq, List.append_assoc, List.cons_append])
  have hrun : Ownership.run [] (.acquire frame :: ownership between) = some [] := by
    unfold ownership at hend hbefore ⊢
    rw [List.map_append, Ownership.run_append, hbefore] at hend
    exact hend
  have honce := Ownership.given_once hrun (fun other hmem => hnone other (acquire_mem_ownership.mp hmem))
  simp only [count_pass_ownership, count_free_ownership, Nat.zero_add] at honce
  refine ⟨by simp [honce], fun other hne => ?_⟩
  rw [← List.count_eq_zero, honce, if_neg (Ne.symm hne)]

/-- In every run in which `render` takes no frame after a late one, it releases each frame it takes. -/
theorem render_releases (h : ((renderLts.observe renderEvents).restrict TakesNoneAfterLate).Reachable t) : ReleasesPopped t := by
  have ht := owing h
  intro before frame between after heq hnone hafter
  refine released_once ht heq hnone ?_
  rcases hafter with ⟨rfl, hended⟩ | ⟨next, rest, rfl⟩
  · rw [List.append_nil] at heq
    rw [← heq, ht.run, ht.ended hended]
    rfl
  · exact ht.alone _ next rest heq

/-! ## A late frame, and another -/

/-- A render thread that is about to begin, with two frames in the queue of its channel. -/
def twoFrames : Channel := { Channel.new .video 0 with
  frames := ((MessageQueue.new.gotoWork.push ⟨1, some ⟨0, 0, 0⟩⟩).1.push ⟨2, some ⟨1, 0, 0⟩⟩).1
  isPlaying := true
  audioChannel := true
  output := .enter }

/-- The render thread, and other threads that do one thing. -/
def stepAmong (others : Channel → Channel) (c : Channel) : RenderAct → Option Channel
  | .render i => c.act (.output i)
  | .others => some (others c)

theorem stepAmong_step {others : Channel → Channel} (hothers : ∀ c : Channel, c.OutputMeddled (others c)) (c : Channel)
    (a : RenderAct) (c' : Channel) (h : stepAmong others c a = some c') : renderLts.step c a c' := by
  cases a with
  | render i => exact h
  | others =>
    cases h
    exact hothers c

theorem pushFrame_meddled (c : Channel) (frame : AVFrame) : c.OutputMeddled (c.pushFrame frame) := by
  refine ⟨rfl, rfl, ?_⟩
  unfold pushFrame
  dsimp only
  split
  · exact Or.inr rfl
  · exact Or.inl rfl

/-- Both frames of the queue are late: the first is lost in the variable, the second dropped by `sync`, and `pop` delivers the
third. -/
theorem late_frame_not_released : ¬ ∀ t, (renderLts.observe renderEvents).Reachable t → ReleasesPopped t := by
  intro h
  have hrun : (Lts.replay (Lts.observeStep (stepAmong (pushFrame · ⟨3, some ⟨2, 0, 0⟩⟩)) renderEvents) (twoFrames, [])
      (List.replicate 7 (.render ⟨.lt, 0, true⟩) ++ [.others, .render ⟨.lt, 0, true⟩])).map (·.2) =
      some [.popped ⟨1, some ⟨0, 0, 0⟩⟩, .used ⟨1, some ⟨0, 0, 0⟩⟩, .late ⟨1, some ⟨0, 0, 0⟩⟩,
        .popped ⟨3, some ⟨2, 0, 0⟩⟩] := rfl
  obtain ⟨t, ht, hlog⟩ := Option.map_eq_some_iff.mp hrun
  have hr : (renderLts.observe renderEvents).Reachable t :=
    Lts.replay_reachable (Lts.observeStep_step (stepAmong_step fun c => pushFrame_meddled c _)) _ (.init ⟨⟨rfl, rfl, rfl⟩, rfl⟩) ht
  have hreleased := h t hr [] _ [.used ⟨1, some ⟨0, 0, 0⟩⟩, .late ⟨1, some ⟨0, 0, 0⟩⟩] [.popped ⟨3, some ⟨2, 0, 0⟩⟩] hlog
    (by simp) (Or.inr ⟨_, [], rfl⟩)
  simp at hreleased

/-- Before the end of a list that ends with a pop there is a first one. -/
theorem first_popped (log : List RenderEvent) (last : AVFrame) : ∃ first next rest,
    log ++ [.popped last] = first ++ .popped next :: rest ∧ ∀ other, .popped other ∉ first := by
  induction log with
  | nil => exact ⟨[], last, [], rfl, fun _ => List.not_mem_nil⟩
  | cons e log ih =>
    obtain ⟨first, next, rest, heq, hnone⟩ := ih
    by_cases he : ∃ frame, e = .popped frame
    · obtain ⟨frame, rfl⟩ := he
      exact ⟨[], frame, log ++ [.popped last], rfl, fun _ => List.not_mem_nil⟩
    · refine ⟨e :: first, next, rest, by rw [List.cons_append, heq, List.cons_append], fun other hmem => ?_⟩
      rcases List.mem_cons.mp hmem with hmem | hmem
      · exact he ⟨other, hmem.symm⟩
      · exact hnone other hmem

/-- What is in the variable was popped some time, and not released since. -/
theorem popped_since (ht : Owing t) {frame : AVFrame} (hframe : t.1.outFrame = some frame) :
    ∃ before between, t.2 = before ++ .popped frame :: between ∧ .released frame ∉ between := by
  have hrun := ht.run
  rw [hframe] at hrun
  obtain ⟨before, between, heq, -, hfree⟩ := Ownership.held_since hrun List.mem_cons_self
  obtain ⟨first, rest, heq', rfl, hrest⟩ := List.map_eq_append_iff.mp heq
  obtain ⟨e, between', rfl, hown, rfl⟩ := List.map_eq_cons_iff.mp hrest
  refine ⟨first, between', ?_, fun hmem => hfree ?_⟩
  · cases e <;> cases hown
    exact heq'
  · exact List.mem_map.mpr ⟨_, hmem, rfl⟩

/-- Wherever the condition is not met, a frame is lost. -/
theorem late_frame_lost (h : ((renderLts.observe renderEvents).restrict TakesNoneAfterLate).Reachable t)
    (hcond : ¬ TakesNoneAfterLate t a) (hstep : (renderLts.observe renderEvents).step t a t') : ¬ ReleasesPopped t' := by
  have ht := owing h
  simp only [TakesNoneAfterLate, not_forall, not_not] at hcond
  obtain ⟨next, late, hnext, hlate⟩ := hcond
  cases a with
  | others => cases hnext
  | render i =>
    obtain ⟨hact, hlog⟩ := hstep
    have hrender : VideoChannel.render t.1 i = some t'.1 := by
      simpa only [renderLts, act, ht.kind] using hact
    obtain ⟨ho, hfront⟩ := mem_delivered.mp hnext
    have hpop : t'.1 = t.1.outputPop := by
      unfold VideoChannel.render at hrender
      rcases ho with ho | ho <;> rw [ho] at hrender <;> exact (Option.some.inj hrender).symm
    have hev : t'.2 = t.2 ++ [.popped next] := by
      rcases renderEvents_of_pop ho with ⟨hempty, -⟩ | ⟨taken, htaken, hev, -⟩
      · rw [hempty] at hfront
        cases hfront
      · rw [hfront] at htaken
        cases htaken
        exact hlog.trans (by rw [hpop]; exact congrArg (t.2 ++ ·) hev)
    -- the late frame is still in the variable when `pop` fills it again
    have hout : t.1.outFrame ≠ none := by
      rcases ht.afterLate late hlate with ⟨-, hout⟩ | hended
      · exact hout
      · rcases ho with ho | ho <;> simp [ho] at hended
    obtain ⟨frame, hframe⟩ := Option.ne_none_iff_exists'.mp hout
    obtain ⟨before, between, heq, hnot⟩ := popped_since ht hframe
    obtain ⟨first, next', rest, hfirst, hnone⟩ := first_popped between next
    have hlog' : t'.2 = before ++ .popped frame :: first ++ .popped next' :: rest := by
      rw [hev, heq, List.append_assoc, List.cons_append, hfirst, List.append_assoc, List.cons_append]
    intro hreleases
    obtain ⟨honce, -⟩ := hreleases before frame first _ hlog' hnone (Or.inr ⟨next', rest, rfl⟩)
    have hmem : .released frame ∈ between ++ [.popped next] := by
      rw [hfirst]
      exact List.mem_append_left _ (List.count_pos_iff.mp (by omega))
    exact hnot (by simpa using hmem)

/-- The step takes no frame, or there was no late one. -/
def takesNoneAfterLate (t : Channel × List RenderEvent) (a : RenderAct) : Bool :=
  (t.1.delivered a).isEmpty || !t.2.any (fun e => e matches .late _)

theorem takesNoneAfterLate_sound (t : Channel × List RenderEvent) (a : RenderAct) (h : takesNoneAfterLate t a = true) :
    TakesNoneAfterLate t a := by
  intro frame late hdelivered hlate
  unfold takesNoneAfterLate at h
  rcases Bool.or_eq_true_iff.mp h with h | h
  · rw [List.isEmpty_iff.mp h] at hdelivered
    cases hdelivered
  · have := List.any_eq_false.mp (by simpa using h) _ hlate
    simp at this

/-- `stop` clears the flag. -/
def flagCleared (c : Channel) : Channel := { c with isPlaying := false }

theorem flagCleared_meddled (c : Channel) : c.OutputMeddled (flagCleared c) := ⟨rfl, rfl, Or.inl rfl⟩

/-- The first frame is shown, the second is late, and the thread is stopped. -/
theorem render_releases_example : ∃ t, ((renderLts.observe renderEvents).restrict TakesNoneAfterLate).Reachable t ∧
    t.1.output = .ended ∧ t.2 = [.popped ⟨1, some ⟨0, 0, 0⟩⟩, .used ⟨1, some ⟨0, 0, 0⟩⟩, .released ⟨1, some ⟨0, 0, 0⟩⟩,
      .popped ⟨2, some ⟨1, 0, 0⟩⟩, .used ⟨2, some ⟨1, 0, 0⟩⟩, .late ⟨2, some ⟨1, 0, 0⟩⟩, .released ⟨2, some ⟨1, 0, 0⟩⟩] ∧
    ReleasesPopped t := by
  have hrun : (Lts.replayIf (Lts.observeStep (stepAmong flagCleared) renderEvents) takesNoneAfterLate
      (twoFrames, []) (List.replicate 6 (.render ⟨.gt, 0, true⟩) ++ List.replicate 4 (.render ⟨.lt, 0, true⟩) ++ [.others] ++
        List.replicate 3 (.render ⟨.lt, 0, true⟩))).map (fun t => (t.1.output, t.2)) =
      some (.ended, [.popped ⟨1, some ⟨0, 0, 0⟩⟩, .used ⟨1, some ⟨0, 0, 0⟩⟩, .released ⟨1, some ⟨0, 0, 0⟩⟩,
        .popped ⟨2, some ⟨1, 0, 0⟩⟩, .used ⟨2, some ⟨1, 0, 0⟩⟩, .late ⟨2, some ⟨1, 0, 0⟩⟩,
        .released ⟨2, some ⟨1, 0, 0⟩⟩]) := rfl
  obtain ⟨t, ht, hstate⟩ := Option.map_eq_some_iff.mp hrun
  obtain ⟨hended, hlog⟩ := Prod.mk.inj hstate
  have hr : ((renderLts.observe renderEvents).restrict TakesNoneAfterLate).Reachable t :=
    Lts.replayIf_reachable (Lts.observeStep_step (stepAmong_step flagCleared_meddled)) takesNoneAfterLate_sound _
      (.init ⟨⟨rfl, rfl, rfl⟩, rfl⟩) ht
  exact ⟨t, hr, hended, hlog, render_releases hr⟩

/-! ## In a channel -/

/-- `stop` of a video channel has no resampler to free. -/
theorem not_swrFreed (h : (Channel.lts .video).Reachable c) : c.ctl ≠ .swrFreed := by
  refine Lts.Reachable.invariant ?_ ?_ h
  · rintro c ⟨id, rfl⟩ hctl
    cases hctl
  · intro c b c' hr ih hs hctl
    have hact := (step_eq_some.mp hs).2
    by_cases hb : b ≠ .start ∧ b ≠ .stop
    · rw [act_ctl hb hact] at hctl
      exact ih hctl
    · have hstep : CtlStep c c' := by
        by_cases hstart : b = .start
        · subst hstart
          exact (start_cases hact).1
        · have hstop : b = .stop := by
            by_contra hstop
            exact hb ⟨hstart, hstop⟩
          subst hstop
          exact stop_cases hact
      cases hstep with
      | freeSwr _ hk _ =>
        rw [kind_of_reachable hr] at hk
        cases hk
      | packetsGotoWork _ hnext hc | framesGotoWork _ hnext hc | packetsBackWork _ hnext hc | framesBackWork _ hnext hc =>
        subst hc
        rcases hnext with ⟨-, -, rfl⟩ | ⟨-, -, rfl⟩ <;> cases hctl
      | join _ hnext hc =>
        subst hc
        rcases hnext with ⟨-, -, rfl⟩ | ⟨-, -, rfl⟩ | ⟨-, -, rfl⟩ <;> cases hctl
      | setFlag _ hc | createDecode _ hc | createOutput _ _ hc | clearFlag _ hc | destroy _ _ hc =>
        subst hc
        cases hctl

/-- A step of the render thread is taken by a thread that exists. -/
theorem render_created {i : OutputInput} (h : c.act (.output i) = some c') : c.output ≠ .notCreated :=
  ((output_cases h).2.created).1

/-- What another thread does to the render thread: it meddles, or it is `start`, which creates it. -/
theorem others_meddle {b : ChannelAct} (hr : (Channel.lts .video).Reachable c) (hb : ∀ i, b ≠ .output i)
    (h : c.act b = some c') : c.OutputMeddled c' ∨ c.output = .notCreated ∧ c'.output = .enter ∧ c'.outFrame = c.outFrame := by
  obtain ⟨hkind, hframe, ho, -⟩ := outputOthers_of_act hb h
  rcases ho with ho | ho | ⟨hctl, ho⟩ | ⟨hctl, -⟩
  · exact Or.inl ⟨hkind, hframe, Or.inl ho⟩
  · exact Or.inl ⟨hkind, hframe, Or.inr ho⟩
  · refine Or.inr ⟨?_, ho, hframe⟩
    by_contra hne
    have houts := (phased_of_reachable hr).output.mp hne
    simp [hctl] at houts
  · exact absurd hctl (not_swrFreed hr)

/-- Before the render thread is created there is nothing in its variable. -/
theorem outFrame_null (h : (Channel.lts .video).Reachable c) (ho : c.output = .notCreated) : c.outFrame = none := by
  revert ho
  refine Lts.Reachable.invariant ?_ ?_ h
  · rintro c ⟨id, rfl⟩ _
    rfl
  · intro c b c' hr ih hs ho
    have hact := (step_eq_some.mp hs).2
    by_cases hb : ∃ i, b = .output i
    · obtain ⟨i, rfl⟩ := hb
      exact absurd ho (output_cases hact).2.created.2
    · rcases others_meddle hr (fun i hi => hb ⟨i, hi⟩) hact with ⟨-, hframe, hsame | hsame⟩ | ⟨-, henter, -⟩
      · rw [hframe]
        exact ih (hsame.symm.trans ho)
      · rw [hframe]
        exact ih ((OutputPc.signalled_eq_iff (by simp)).mp (hsame.symm.trans ho))
      · rw [henter] at ho
        cases ho

/-- The render thread of a video channel is such a thread, from the moment it is created. -/
theorem render_component :
    Lts.Component (Channel.lts .video) renderLts fun c => if c.output = .notCreated then none else some c := by
  refine ⟨?_, ?_⟩
  · rintro c ⟨id, rfl⟩ t ht
    cases ht
  · intro c b c' hr hs t ht
    obtain ⟨ho', ht⟩ := Option.ite_none_left_eq_some.mp ht
    cases ht
    have hact := (step_eq_some.mp hs).2
    by_cases hb : ∃ i, b = .output i
    · obtain ⟨i, rfl⟩ := hb
      exact Or.inr (Or.inr ⟨c, .render i, if_neg (render_created hact), hact⟩)
    · rcases others_meddle hr (fun i hi => hb ⟨i, hi⟩) hact with hm | ⟨hnot, henter, hframe⟩
      · refine Or.inr (Or.inr ⟨c, .others, if_neg ?_, hm⟩)
        intro ho
        rcases hm.output with hsame | hsame
        · exact ho' (hsame.trans ho)
        · exact ho' (hsame.trans ((OutputPc.signalled_eq_iff (by simp)).mpr ho))
      · have hkind := (act_kind_id hact).1.trans (kind_of_reachable hr)
        exact Or.inr (Or.inl ⟨hkind, henter, hframe.trans (outFrame_null hr hnot)⟩)

end Channel

end LibraLive

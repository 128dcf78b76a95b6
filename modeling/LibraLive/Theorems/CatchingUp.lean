import LibraLive.Lemmas.ChannelPhase
import LibraLive.Lemmas.OutputHand
import LibraLive.Pacing

/-!
# What catching up drops

`render` finds its own frame late and calls `frames.sync()`, which drops the frame at the front of the queue: another one, which
may be on time. It is late for certain only if the decision could have been made on it as well.
-/

namespace LibraLive

/-- `render` comes to `frames.sync()` from a decision, in which it leaves the queue alone. -/
theorem VideoChannel.render_sync {c c' : Channel} {i : OutputInput} (h : VideoChannel.render c i = some c')
    (ho : c'.output = .sync) :
    c.output = .audioTime ∧ c.audioChannel = true ∧ i.time_diff = .lt ∧ c'.frames = c.frames := by
  unfold VideoChannel.render at h
  split at h
  case h_6 haudio =>
    split at h
    · cases h
      simp [haudio] at ho
    · rename_i hchannel
      split at h
      · rename_i hlt
        cases h
        exact ⟨haudio, by simpa using hchannel, hlt, rfl⟩
      · cases h
        cases ho
  case h_2 =>
    cases h
    dsimp only at ho
    split at ho <;> cases ho
  case h_5 =>
    cases h
    dsimp only at ho
    (repeat' split at ho) <;> cases ho
  case h_1 | h_3 | h_4 | h_7 | h_8 | h_9 =>
    cases h
    cases ho
  case h_10 => cases h

/-- `frames.sync()` takes the front off the queue. -/
theorem VideoChannel.render_at_sync {c c' : Channel} {i : OutputInput} (h : VideoChannel.render c i = some c')
    (ho : c.output = .sync) : c'.frames.queue.items = c.frames.queue.items.tail := by
  unfold VideoChannel.render at h
  rw [ho] at h
  cases h
  exact items_dropAvFrame _

namespace TimedChannel

variable {T : Timing} {t t' : TimedChannel} {a : Act}

/-- The timestamps of the frames that were queued do not decrease. -/
def Ordered (T : Timing) (t : TimedChannel) : Prop :=
  (t.channel.frames.queue.accepted.map T.best_effort_timestamp).Pairwise (· ≤ ·)

/-- Every frame that `frames.sync()` dropped was behind the reading of the audio clock it was dropped on. -/
def DropsLate (T : Timing) (t : TimedChannel) : Prop := ∀ d ∈ t.dropped, T.videoTime d.1 < d.2

/-- When `render` decides that its frame is late, the next frame of the queue is late by the same reading; and when the queue is
empty then, so is a frame pushed before `frames.sync()` runs. -/
@[mk_iff] structure NextIsLate (T : Timing) (t : TimedChannel) (a : Act) : Prop where
  decided : ∀ audioTime, a = .render audioTime → t.deciding = true → T.time_diff t.channel audioTime < 0 →
    ∀ front, t.channel.frames.queue.items.head? = some front → T.videoTime front < audioTime
  pushed : ∀ ret frame, a = .others (.decode ret) → t.channel.output = .sync → t.channel.frames.queue.items = [] →
    t.channel.frames.state = true → t.channel.decode = .push frame → T.videoTime frame < t.audioTime

/-- While `render` is about to call `frames.sync()`, the front of the queue is late, and so is everything dropped before. -/
structure Catching (T : Timing) (t : TimedChannel) : Prop where
  front : t.channel.output = .sync → ∀ front, t.channel.frames.queue.items.head? = some front → T.videoTime front < t.audioTime
  dropped : DropsLate T t

/-- A step of `render` keeps it so. -/
theorem Catching.render {audioTime : ℚ} (hr : (lts T).Reachable t) (hc : Catching T t)
    (hcond : NextIsLate T t (.render audioTime)) (h : t.step T (.render audioTime) = some t') : Catching T t' := by
  obtain ⟨c, hstep, rfl⟩ := Option.map_eq_some_iff.mp h
  have hact := (Channel.step_eq_some.mp hstep).2
  simp only [Channel.act, Channel.kind_of_reachable (channel_reachable hr)] at hact
  refine ⟨fun ho front hfront => ?_, fun d hd => ?_⟩
  · -- the decision was made in this step, on the same queue
    obtain ⟨haudio, hchannel, hlt, hframes⟩ := VideoChannel.render_sync hact ho
    have hdeciding : t.deciding = true := by simp [deciding, haudio, hchannel]
    rw [if_pos hdeciding]
    rw [hframes] at hfront
    exact hcond.decided audioTime rfl hdeciding (compare_lt_iff_lt.mp hlt) front hfront
  · dsimp only at hd
    split at hd
    · rename_i ho
      rcases List.mem_append.mp hd with hd | hd
      · exact hc.dropped d hd
      · rw [VideoChannel.render_at_sync hact ho, Change.left_tail, List.mem_map] at hd
        obtain ⟨frame, hframe, rfl⟩ := hd
        exact hc.front ho frame (Option.mem_toList.mp hframe)
    · exact hc.dropped d hd

/-- A step of another thread keeps it so. -/
theorem Catching.others {b : ChannelAct} (hc : Catching T t) (hcond : NextIsLate T t (.others b))
    (h : t.step T (.others b) = some t') : Catching T t' := by
  obtain ⟨hb, c, hstep, rfl⟩ := others_step h
  have hothers := outputOthers_of_act hb (Channel.step_eq_some.mp hstep).2
  refine ⟨fun ho front hfront => ?_, hc.dropped⟩
  have ho : t.channel.output = .sync := by
    have ho : c.output = .sync := ho
    rcases hothers.output with hout | hout | ⟨-, hout⟩ | ⟨-, hout⟩
    · exact hout.symm.trans ho
    · exact (OutputPc.signalled_eq_iff (by simp)).mp (hout.symm.trans ho)
    · cases hout.symm.trans ho
    · cases hout.symm.trans ho
  have hfront : c.frames.queue.items.head? = some front := hfront
  rcases hothers.queue with hq | ⟨ret, frame, rfl, hd, hq⟩
  · rw [hq] at hfront
    exact hc.front ho front hfront
  · cases hst : t.channel.frames.state with
    | false =>
      rw [hq, MessageQueue.push_of_stopped hst] at hfront
      exact hc.front ho front hfront
    | true =>
      rw [hq, MessageQueue.push_of_working hst, Fifo.items_push] at hfront
      cases hitems : t.channel.frames.queue.items with
      | nil =>
        rw [hitems] at hfront
        cases hfront
        exact hcond.pushed ret front rfl ho hitems hst hd
      | cons first rest =>
        rw [hitems] at hfront
        refine hc.front ho front ?_
        rw [hitems]
        exact hfront

/-- In every run in which the frame next in the queue is late whenever `render` finds its own late, only late frames are
dropped. -/
theorem drops_late (h : ((lts T).restrict (NextIsLate T)).Reachable t) : DropsLate T t := by
  have hcatching : Catching T t := by
    refine Lts.Reachable.restrict_invariant ?_ ?_ h
    · rintro t ⟨id, rfl⟩
      exact ⟨fun ho => (by cases ho), fun d hd => (by cases hd)⟩
    · intro t a t' hr hcond hc hs
      cases a with
      | render audioTime => exact hc.render hr hcond hs
      | others b => exact hc.others hcond hs
  exact hcatching.dropped

/-! ## A frame that is not late -/

/-- Frames with a timestamp of one second for each packet before theirs, and a time base of one second. -/
def everySecond : Timing where
  best_effort_timestamp frame := (frame.sentLast.map AVPacket.serial).getD 0
  repeat_pict _ := 0
  time_base := 1
  fps := 25

/-- A video channel is started and decodes two packets. -/
def decodeActs : List ChannelAct :=
  .setAudioChannel true :: List.replicate 5 .start ++ [.push ⟨0, 0, 0⟩, .push ⟨1, 0, 0⟩] ++ List.replicate 21 (.decode 0)

/-- Then `render` takes the first frame, reads the audio clock and does what follows. -/
def renderActs (audioTime : ℚ) : List Act := decodeActs.map Act.others ++ List.replicate 6 (.render audioTime)

/-- The first frame is half a second late, so the second is dropped, half a second before its time. -/
theorem early_frame_lost : ¬ ∀ T t, (lts T).Reachable t → Ordered T t → DropsLate T t := by
  intro h
  have hrun : (Lts.replay (step everySecond) (new 0) (renderActs (1 / 2))).map
      (fun t => (t.dropped, t.channel.frames.queue.accepted)) =
      some ([(⟨2, some ⟨1, 0, 0⟩⟩, 1 / 2)], [⟨1, some ⟨0, 0, 0⟩⟩, ⟨2, some ⟨1, 0, 0⟩⟩]) := by decide +kernel
  obtain ⟨t, ht, hstate⟩ := Option.map_eq_some_iff.mp hrun
  obtain ⟨hdropped, haccepted⟩ := Prod.mk.inj hstate
  have hr : (lts everySecond).Reachable t :=
    Lts.replay_reachable (L := lts everySecond) (fun _ _ _ h => h) _ (.init ⟨0, rfl⟩) ht
  have hordered : Ordered everySecond t := by
    unfold Ordered
    rw [haccepted]
    decide
  have hlate := h everySecond t hr hordered (⟨2, some ⟨1, 0, 0⟩⟩, 1 / 2) (by rw [hdropped]; exact List.mem_singleton_self _)
  revert hlate
  decide +kernel

/-- `NextIsLate`, for runs in which nothing is pushed while `render` is about to call `frames.sync()`. -/
def nextIsLate (T : Timing) (t : TimedChannel) : Act → Bool
  | .render audioTime => !t.deciding || t.channel.frames.queue.items.head?.all fun front => T.videoTime front < audioTime
  | .others _ => t.channel.output ≠ .sync

theorem nextIsLate_sound (t : TimedChannel) (a : Act) (h : nextIsLate T t a = true) : NextIsLate T t a := by
  constructor
  · rintro audioTime rfl hdeciding _ front hfront
    simpa [nextIsLate, hdeciding, hfront] using h
  · rintro ret frame rfl ho
    simp [nextIsLate, ho] at h

/-- By the reading of a second and a half the second frame is late as well. -/
theorem drops_late_example : ∃ t, ((lts everySecond).restrict (NextIsLate everySecond)).Reachable t ∧
    t.dropped = [(⟨2, some ⟨1, 0, 0⟩⟩, 3 / 2)] ∧ DropsLate everySecond t := by
  have hrun : (Lts.replayIf (step everySecond) (nextIsLate everySecond) (new 0) (renderActs (3 / 2))).map (·.dropped) =
      some [(⟨2, some ⟨1, 0, 0⟩⟩, 3 / 2)] := by decide +kernel
  obtain ⟨t, ht, hdropped⟩ := Option.map_eq_some_iff.mp hrun
  have hr : ((lts everySecond).restrict (NextIsLate everySecond)).Reachable t :=
    Lts.replayIf_reachable (L := lts everySecond) (fun _ _ _ h => h) nextIsLate_sound _ (.init ⟨0, rfl⟩) ht
  exact ⟨t, hr, hdropped, drops_late hr⟩

/-- `frames.sync()` with a frame at the front of the queue that is not late. -/
theorem sync_drops {front : AVFrame} (hk : t.channel.kind = .video) (hcrash : t.channel.crash = none)
    (ho : t.channel.output = .sync) (hfront : t.channel.frames.queue.items.head? = some front)
    (hearly : ¬ T.videoTime front < t.audioTime) : ∃ t', t.step T (.render 0) = some t' ∧ ¬ DropsLate T t' := by
  have hrender : VideoChannel.render t.channel (t.input T 0) = some { t.channel.framesSync with output := .whileTest } := by
    simp only [VideoChannel.render, ho]
  have hact : t.channel.act (.output (t.input T 0)) = some { t.channel.framesSync with output := .whileTest } := by
    simp only [Channel.act, hk, hrender]
  have hstep := Channel.step_eq_some.mpr ⟨hcrash, hact⟩
  refine ⟨_, Option.map_eq_some_iff.mpr ⟨_, hstep, rfl⟩, fun hlate => hearly ?_⟩
  refine hlate (front, t.audioTime) ?_
  dsimp only
  rw [if_pos ho, VideoChannel.render_at_sync hrender ho, Change.left_tail, hfront]
  simp

/-- Wherever the condition is not met, the next step of `render` drops a frame that is not late. -/
theorem early_frame_dropped (hr : (lts T).Reachable t) (hcond : ¬ NextIsLate T t a) (h : t.step T a = some t') :
    ∃ t'', t'.step T (.render 0) = some t'' ∧ ¬ DropsLate T t'' := by
  have hk := Channel.kind_of_reachable (channel_reachable hr)
  simp only [nextIsLate_iff, not_and_or, not_forall] at hcond
  rcases hcond with ⟨audioTime, rfl, hdeciding, hlate, front, hfront, hearly⟩ | ⟨ret, frame, rfl, ho, hitems, hst, hd, hearly⟩
  · obtain ⟨c, hstep, rfl⟩ := Option.map_eq_some_iff.mp h
    obtain ⟨hcrash, hact⟩ := Channel.step_eq_some.mp hstep
    obtain ⟨haudio, hchannel⟩ : t.channel.output = .audioTime ∧ t.channel.audioChannel = true := by
      simpa [deciding] using hdeciding
    have hlt : (t.input T audioTime).time_diff = .lt := compare_lt_iff_lt.mpr hlate
    simp only [Channel.act, hk, VideoChannel.render, haudio, hchannel, hlt] at hact
    cases hact
    refine sync_drops rfl hcrash rfl hfront ?_
    dsimp only
    rw [if_pos hdeciding]
    exact hearly
  · obtain ⟨-, c, hstep, rfl⟩ := others_step h
    obtain ⟨hcrash, hact⟩ := Channel.step_eq_some.mp hstep
    simp only [Channel.act, hk, VideoChannel.decode, hd] at hact
    cases hact
    refine sync_drops hk hcrash ?_ ?_ hearly
    · simp [Channel.pushFrame, ho, hst, OutputPc.signalled]
    · simp [Channel.pushFrame, MessageQueue.push_of_working hst, hitems]

end TimedChannel

end LibraLive

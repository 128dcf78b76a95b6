import Mathlib.Data.List.Count
import LibraLive.QueueThreads

/-!
# `message_queue` conserves its values

What one critical section does to the content of the queue (`Step.items`), and that what comes in with it balances what goes out
(`Step.balanced`). Over a run: the values taken off, followed by the content, are the values accepted, and every value pushed is
queued, delivered or freed, exactly once.
-/

namespace LibraLive.QueueThreads

variable {τ α : Type*}

/-- The values that came in with a section, by a push or off the queue, went on the queue, to a caller or to the release
callback. -/
def Label.Balanced (l : Label τ α) : Prop := (l.pushed ++ l.taken).Perm (l.accepted ++ l.delivered ++ l.freed)

/-! ## What a section does to the queue -/

/-- A section that leaves the content alone and frees nothing. -/
theorem of_same {act : Section τ α} {q q' : MessageQueue α} (h : q'.queue.items = q.queue.items) :
    Label.of act q (q', []) = ⟨act, [], [], []⟩ := by
  simp [Label.of, h]

/-- A push to a working queue puts the value on it. -/
theorem of_push_working {q : MessageQueue α} (h : q.state = true) (t : τ) (v : α) :
    Label.of (.push t v) q (q.push v) = ⟨.push t v, [v], [], []⟩ := by
  rw [MessageQueue.push_of_working h]
  simp [Label.of]

/-- A push to a queue that is not working frees the value. -/
theorem of_push_stopped {q : MessageQueue α} (h : q.state = false) (t : τ) (v : α) :
    Label.of (.push t v) q (q.push v) = ⟨.push t v, [], [], [v]⟩ := by
  rw [MessageQueue.push_of_stopped h]
  simp [Label.of]

/-- `clear` frees what it takes off. -/
theorem of_clear (q : MessageQueue α) (t : τ) : Label.of (.clear t) q q.clear = ⟨.clear t, [], q.queue.items, q.queue.items⟩ := by
  simp [Label.of, MessageQueue.clear]

/-- So does `sync`, with a handle that frees what it takes. -/
theorem of_sync {handle : SyncHandle α} (hf : FreesWhatItTakes handle) (q : MessageQueue α) (t : τ) :
    Label.of (.sync t) q (q.sync handle) = ⟨.sync t, [], (handle q.queue).2, (handle q.queue).2⟩ := by
  have hitems : q.queue.items = (handle q.queue).2 ++ (q.sync handle).1.queue.items := hf q.queue
  unfold Label.of
  rw [Change.joined_of_eq hitems, Change.left_of_eq hitems]
  rfl

/-- A section that ends `pop` takes off what it returns, and nothing when it returns 0. -/
theorem of_pop {q : MessageQueue α} {ret : Bool} (h : q.popSection.1 = .returned ret) (t : τ) (before : α) :
    Label.of (.pop t before ret (q.popSection.2.2.getD before)) q (q.popSection.2.1, []) =
      ⟨.pop t before ret (q.popSection.2.2.getD before), [], if ret then [q.popSection.2.2.getD before] else [], []⟩ := by
  rcases q.popSection_cases with ⟨he, -, -⟩ | ⟨he, -, -⟩ | ⟨v, rest, he, hi⟩ <;> rw [he] at h ⊢
  · cases h
  · cases h
    exact of_same rfl
  · cases h
    have hitems : q.queue.items = [v] ++ q.queue.pop.items := by simp [hi]
    unfold Label.of
    rw [Change.joined_of_eq hitems, Change.left_of_eq hitems]
    rfl

/-- A section that goes to sleep leaves the queue as it was. -/
theorem items_of_asleep {q : MessageQueue α} (h : q.popSection.1 = .asleep) : q.popSection.2.1.queue.items = q.queue.items := by
  rcases q.popSection_cases with ⟨he, -, -⟩ | ⟨he, -, -⟩ | ⟨v, rest, he, -⟩
  · rw [he]
  · rw [he] at h
    cases h
  · rw [he] at h
    cases h

variable [DecidableEq τ]

/-- One critical section appends its label to the trace. -/
theorem Step.trace {handle : SyncHandle α} {s s' : State τ α} {l : Label τ α} (h : Step handle s l s') :
    s'.trace = s.trace ++ [l] := by
  cases h <;> rfl

/-- What was in the queue and what joined it is what left it and what is in it then, in order. -/
theorem Step.items {handle : SyncHandle α} (hf : FreesWhatItTakes handle) {s s' : State τ α} {l : Label τ α}
    (h : Step handle s l s') : s.q.queue.items ++ l.accepted = l.taken ++ s'.q.queue.items := by
  cases h with
  | pushWorking _ hs _ =>
    rw [of_push_working hs]
    simp [State.after, MessageQueue.push_of_working hs]
  | pushStopped _ hs =>
    rw [of_push_stopped hs]
    simp [State.after, MessageQueue.push_of_stopped hs]
  | sleep _ hp =>
    rw [of_same (items_of_asleep hp)]
    simp [State.after, items_of_asleep hp]
  | @pop t before ret _ hp =>
    rw [of_pop hp]
    rcases s.q.popSection_cases with ⟨he, -, -⟩ | ⟨he, hi, -⟩ | ⟨v, rest, he, hi⟩ <;> rw [he] at hp ⊢
    · cases hp
    · cases hp
      simp [State.after, hi]
    · cases hp
      simp [State.after, hi]
  | wake _ =>
    rw [of_same rfl]
    exact List.append_nil _
  | gotoWork _ _ =>
    rw [of_same (congrArg Fifo.items s.q.queue_gotoWork)]
    exact List.append_nil _
  | backWork _ _ =>
    rw [of_same (congrArg Fifo.items s.q.queue_backWork)]
    exact List.append_nil _
  | clear _ =>
    rw [of_clear]
    simp [State.after, MessageQueue.clear]
  | sync _ =>
    rw [of_sync hf]
    exact (List.append_nil _).trans (hf s.q.queue)

/-- Every critical section is balanced. -/
theorem Step.balanced {handle : SyncHandle α} (hf : FreesWhatItTakes handle) {s s' : State τ α} {l : Label τ α}
    (h : Step handle s l s') : l.Balanced := by
  cases h with
  | pushWorking _ hs _ =>
    rw [of_push_working hs]
    exact .refl _
  | pushStopped _ hs =>
    rw [of_push_stopped hs]
    exact .refl _
  | sleep _ hp =>
    rw [of_same (items_of_asleep hp)]
    exact .refl _
  | @pop t before ret _ hp =>
    rw [of_pop hp]
    cases ret <;> exact .refl _
  | wake _ =>
    rw [of_same rfl]
    exact .refl _
  | gotoWork _ _ =>
    rw [of_same (congrArg Fifo.items s.q.queue_gotoWork)]
    exact .refl _
  | backWork _ _ =>
    rw [of_same (congrArg Fifo.items s.q.queue_backWork)]
    exact .refl _
  | clear _ =>
    rw [of_clear]
    exact .refl _
  | sync _ =>
    rw [of_sync hf]
    exact .refl _

/-! ## Runs -/

/-- Over a run, what came in balances what went out. -/
theorem trace_balanced {handle : SyncHandle α} (hf : FreesWhatItTakes handle) {s : State τ α}
    (h : (lts τ handle).Reachable s) :
    (s.trace.flatMap Label.pushed ++ s.trace.flatMap Label.taken).Perm
      (s.trace.flatMap Label.accepted ++ s.trace.flatMap Label.delivered ++ s.trace.flatMap Label.freed) := by
  classical
  refine Lts.Reachable.invariant ?_ ?_ h
  · rintro s rfl
    exact List.Perm.refl _
  · intro s l s' _ ih hs
    rw [hs.trace]
    have hl : l.Balanced := hs.balanced hf
    rw [Label.Balanced] at hl
    rw [List.perm_iff_count] at ih hl ⊢
    intro x
    have h1 := ih x
    have h2 := hl x
    simp only [List.flatMap_append, List.flatMap_singleton, List.count_append] at h1 h2 ⊢
    omega

/-- The values taken off the queue, in the order of the critical sections, followed by its content, are the accepted
pushes. -/
theorem taken_append_items {handle : SyncHandle α} (hf : FreesWhatItTakes handle) {s : State τ α}
    (h : (lts τ handle).Reachable s) :
    s.trace.flatMap Label.taken ++ s.q.queue.items = s.trace.flatMap Label.accepted := by
  refine Lts.Reachable.invariant ?_ ?_ h
  · rintro s rfl
    rfl
  · intro s l s' _ ih hs
    rw [hs.trace, List.flatMap_append, List.flatMap_append, List.flatMap_singleton, List.flatMap_singleton, ← ih,
      List.append_assoc, List.append_assoc, hs.items hf]

/-- Every pushed value is still queued, was delivered by a `pop`, or was freed, and only one of them. -/
theorem pushed_perm_fates {handle : SyncHandle α} (hf : FreesWhatItTakes handle) {s : State τ α}
    (h : (lts τ handle).Reachable s) :
    (s.trace.flatMap Label.pushed).Perm
      (s.q.queue.items ++ s.trace.flatMap Label.delivered ++ s.trace.flatMap Label.freed) := by
  classical
  have hb := trace_balanced hf h
  rw [← taken_append_items hf h] at hb
  rw [List.perm_iff_count] at hb ⊢
  intro x
  have hx := hb x
  simp only [List.count_append] at hx ⊢
  omega

/-- A `pop` that returns 0 found the queue empty and not working, and leaves its out parameter as it was. -/
theorem Step.pop_zero {handle : SyncHandle α} {s s' : State τ α} {l : Label τ α} {t : τ} {before after : α}
    (h : Step handle s l s') (hl : l.act = .pop t before false after) :
    s.q.queue.items = [] ∧ s.q.state = false ∧ after = before := by
  cases h with
  | pop _ hp =>
    cases hl
    rcases s.q.popSection_cases with ⟨he, -, -⟩ | ⟨he, hi, hs⟩ | ⟨v, rest, he, -⟩
    · rw [he] at hp
      cases hp
    · exact ⟨hi, hs, by rw [he]; rfl⟩
    · rw [he] at hp
      cases hp
  | _ => cases hl

/-- The frames queue of a channel, under any number of threads and with `dropAvFrame` installed, conserves its frames and
is first-in first-out. Every push has one fate: the frame is still queued, was delivered by one `pop` that returned 1, or
was given to the release callback once. What was taken off (by `pop`, `clear` or `sync`, in the order of the critical
sections), followed by the content, is what was accepted. A `pop` returns 0 only from an empty queue that is not working,
and then does not assign its out parameter. -/
theorem frames_conserved {s : State τ AVFrame} (h : (lts τ dropAvFrame).Reachable s) :
    (s.trace.flatMap Label.pushed).Perm
      (s.q.queue.items ++ s.trace.flatMap Label.delivered ++ s.trace.flatMap Label.freed) ∧
    s.trace.flatMap Label.taken ++ s.q.queue.items = s.trace.flatMap Label.accepted ∧
    ∀ l t before after s', Step dropAvFrame s l s' → l.act = .pop t before false after →
      s.q.queue.items = [] ∧ s.q.state = false ∧ after = before :=
  ⟨pushed_perm_fates dropAvFrame_freesWhatItTakes h, taken_append_items dropAvFrame_freesWhatItTakes h,
    fun _ _ _ _ _ hs hl => hs.pop_zero hl⟩

omit [DecidableEq τ] in
/-- Where all threads are outside, nobody is asleep. -/
theorem not_asleep_of_out (t : τ) (v : α) : (fun _ : τ => (Position.out : Position α)) t ≠ .asleep v := nofun

/-- Two threads: a frame is handed over, one that comes after `backWork` is freed, and so is one that `clear` finds. -/
theorem frames_conserved_handover : ∃ s : State (Fin 2) AVFrame, (lts (Fin 2) dropAvFrame).Reachable s ∧
    s.trace.flatMap Label.pushed = [⟨0, none⟩, ⟨1, none⟩, ⟨2, none⟩] ∧
    s.trace.flatMap Label.delivered = [⟨0, none⟩] ∧ s.trace.flatMap Label.freed = [⟨2, none⟩, ⟨1, none⟩] ∧
    s.trace.flatMap Label.taken ++ s.q.queue.items = s.trace.flatMap Label.accepted ∧
    (s.trace.flatMap Label.pushed).Perm
      (s.q.queue.items ++ s.trace.flatMap Label.delivered ++ s.trace.flatMap Label.freed) := by
  have h0 : (lts (Fin 2) dropAvFrame).Reachable ⟨MessageQueue.new, fun _ => .out, []⟩ := .init rfl
  have h1 := h0.step (Step.gotoWork (t := 0) rfl (.none not_asleep_of_out))
  have h2 := h1.step (Step.pushWorking (t := 0) (v := ⟨0, none⟩) rfl rfl (.none not_asleep_of_out))
  have h3 := h2.step (Step.pushWorking (t := 0) (v := ⟨1, none⟩) rfl rfl (.none not_asleep_of_out))
  have h4 := h3.step (Step.backWork (t := 0) rfl (.none not_asleep_of_out))
  have h5 := h4.step (Step.pushStopped (t := 0) (v := ⟨2, none⟩) rfl rfl)
  have h6 := h5.step (@Step.pop _ _ _ dropAvFrame _ 1 ⟨9, none⟩ true (Or.inl rfl) rfl)
  have h7 := h6.step (Step.clear (t := 0) (by simp [State.after]))
  obtain ⟨hfates, horder, -⟩ := frames_conserved h7
  exact ⟨_, h7, rfl, rfl, rfl, horder, hfates⟩

end LibraLive.QueueThreads

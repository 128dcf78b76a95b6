import Mathlib.Data.Int.Bitwise
import LibraLive.Theorems.MessageQueue

/-!
# What `dropAvPacket` drops

The packets queue of a `VideoChannel` under any number of threads, with the handle that the constructor installs. `sync`
takes the packet at the front off, whatever its flags are, and frees it unless the flags word is exactly
`AV_PKT_FLAG_KEY`.
-/

namespace LibraLive

/-- The bit `AV_PKT_FLAG_KEY` of the flags is set. -/
def AVPacket.isKey (packet : AVPacket) : Bool := packet.flags.land AV_PKT_FLAG_KEY ≠ 0

/-- So it is where no other bit is. -/
theorem AVPacket.isKey_of_eq {packet : AVPacket} (h : packet.flags = AV_PKT_FLAG_KEY) : packet.isKey = true := by
  rw [isKey, h]
  decide

namespace QueueThreads

variable {τ α : Type*}

/-- The values a `sync` took off the queue. -/
def Label.dropped (l : Label τ α) : List α :=
  match l.act with
  | .sync _ => l.taken
  | _ => []

/-- The values a section other than a push gave to the release callback: `clear` and `sync`. -/
def Label.released (l : Label τ α) : List α :=
  match l.act with
  | .push _ _ => []
  | _ => l.freed

/-- The value a `sync` is about to find at the front. -/
def front (s : State τ α) (l : Label τ α) : List α :=
  match l.act with
  | .sync _ => s.q.queue.items.head?.toList
  | _ => []

/-- What the sections so far did to the packets: no `sync` took a key frame off the queue, and what was taken off was
delivered by one `pop` or released once. -/
structure PacketsKept (trace : List (Label τ AVPacket)) : Prop where
  keyFrames : ∀ packet ∈ trace.flatMap Label.dropped, packet.isKey = false
  owned : (trace.flatMap Label.taken).Perm (trace.flatMap Label.delivered ++ trace.flatMap Label.released)

/-- `dropAvPacket` takes the front off. -/
theorem items_dropAvPacket (q : Fifo AVPacket) : q.items = q.items.head?.toList ++ (dropAvPacket q).1.items := by
  unfold dropAvPacket
  cases h : q.items <;> simp [h]

/-- It frees the front if its flags are not exactly `AV_PKT_FLAG_KEY`. -/
theorem freed_dropAvPacket (q : Fifo AVPacket) :
    (dropAvPacket q).2 = q.items.head?.toList.filter fun packet => !decide (packet.flags = AV_PKT_FLAG_KEY) := by
  unfold dropAvPacket
  cases q.items with
  | nil => rfl
  | cons packet rest => by_cases h : packet.flags = AV_PKT_FLAG_KEY <;> simp [h]

/-- `sync` takes the front off, and frees it if its flags are not exactly `AV_PKT_FLAG_KEY`. -/
theorem of_dropAvPacket (q : MessageQueue AVPacket) (t : τ) : Label.of (.sync t) q (q.sync dropAvPacket) =
    ⟨.sync t, [], q.queue.items.head?.toList,
      q.queue.items.head?.toList.filter fun packet => !decide (packet.flags = AV_PKT_FLAG_KEY)⟩ := by
  have hitems : q.queue.items = q.queue.items.head?.toList ++ (q.sync dropAvPacket).1.queue.items :=
    items_dropAvPacket q.queue
  have hfreed : (q.sync dropAvPacket).2 = _ := freed_dropAvPacket q.queue
  unfold Label.of
  rw [Change.joined_of_eq hitems, Change.left_of_eq hitems, hfreed]

variable [DecidableEq τ] {s s' : State τ AVPacket} {l : Label τ AVPacket} {found : List AVPacket}

/-- A `sync` takes off what it finds at the front. A section delivers or frees what it takes off, or it is a `sync` that
finds a packet whose flags are exactly `AV_PKT_FLAG_KEY`. -/
theorem Step.packets (h : Step dropAvPacket s l s') : l.dropped = front s l ∧
    l.taken.Perm (l.delivered ++ l.released ++ (front s l).filter fun packet => packet.flags = AV_PKT_FLAG_KEY) := by
  cases h with
  | pushWorking _ hs _ =>
    rw [of_push_working hs]
    exact ⟨rfl, .refl _⟩
  | pushStopped _ hs =>
    rw [of_push_stopped hs]
    exact ⟨rfl, .refl _⟩
  | sleep _ hp =>
    rw [of_same (items_of_asleep hp)]
    exact ⟨rfl, .refl _⟩
  | @pop t before ret _ hp =>
    rw [of_pop hp]
    cases ret <;> exact ⟨rfl, .refl _⟩
  | wake _ =>
    rw [of_same rfl]
    exact ⟨rfl, .refl _⟩
  | gotoWork _ _ =>
    rw [of_same (congrArg Fifo.items s.q.queue_gotoWork)]
    exact ⟨rfl, .refl _⟩
  | backWork _ _ =>
    rw [of_same (congrArg Fifo.items s.q.queue_backWork)]
    exact ⟨rfl, .refl _⟩
  | clear _ =>
    rw [of_clear]
    refine ⟨rfl, ?_⟩
    simp [Label.delivered, Label.released, front]
  | sync _ =>
    rw [of_dropAvPacket]
    exact ⟨rfl, (List.perm_append_comm.trans (List.filter_append_perm _ _)).symm⟩

/-- Over a run: what `sync` took off is what it found, and the packets taken off were delivered or released, or their
flags were exactly `AV_PKT_FLAG_KEY` when `sync` found them. -/
theorem packets_of_trace (h : ((lts τ dropAvPacket).record front).Reachable (s, found)) :
    s.trace.flatMap Label.dropped = found ∧
    (s.trace.flatMap Label.taken).Perm (s.trace.flatMap Label.delivered ++ s.trace.flatMap Label.released ++
      found.filter fun packet => packet.flags = AV_PKT_FLAG_KEY) := by
  have hinv : ∀ t : State τ AVPacket × List AVPacket, ((lts τ dropAvPacket).record front).Reachable t →
      t.1.trace.flatMap Label.dropped = t.2 ∧
      (t.1.trace.flatMap Label.taken).Perm (t.1.trace.flatMap Label.delivered ++ t.1.trace.flatMap Label.released ++
        t.2.filter fun packet => packet.flags = AV_PKT_FLAG_KEY) := by
    intro t ht
    refine Lts.Reachable.invariant ?_ ?_ ht
    · rintro ⟨s, found⟩ ⟨rfl, rfl⟩
      exact ⟨rfl, List.Perm.refl _⟩
    · rintro ⟨s, found⟩ l ⟨s', found'⟩ - ⟨hdropped, hperm⟩ ⟨hs, hfound⟩
      have htrace : s'.trace = s.trace ++ [l] := hs.trace
      obtain ⟨hfront, hl⟩ := Step.packets hs
      dsimp only at hdropped hperm hfound htrace ⊢
      subst hfound
      rw [htrace]
      constructor
      · rw [List.flatMap_append, List.flatMap_singleton, hdropped, hfront]
      · rw [List.perm_iff_count] at hperm hl ⊢
        intro x
        have h1 := hperm x
        have h2 := hl x
        simp only [List.flatMap_append, List.flatMap_singleton, List.filter_append, List.count_append] at h1 h2 ⊢
        omega
  exact hinv (s, found) h

/-- What was taken off went to one caller or to the release callback exactly when no `sync` found a packet whose flags are
exactly `AV_PKT_FLAG_KEY`. -/
theorem owned_iff (h : ((lts τ dropAvPacket).record front).Reachable (s, found)) :
    (s.trace.flatMap Label.taken).Perm (s.trace.flatMap Label.delivered ++ s.trace.flatMap Label.released) ↔
      ∀ packet ∈ found, packet.flags ≠ AV_PKT_FLAG_KEY := by
  obtain ⟨-, hperm⟩ := packets_of_trace h
  have hnil : (found.filter fun packet => packet.flags = AV_PKT_FLAG_KEY) = [] ↔
      ∀ packet ∈ found, packet.flags ≠ AV_PKT_FLAG_KEY := by
    simp
  rw [← hnil]
  constructor
  · intro howned
    have hmore := howned.symm.trans hperm
    rw [← List.append_nil (_ ++ _), List.append_assoc _ [], List.perm_append_left_iff] at hmore
    exact hmore.nil_eq.symm
  · intro hnone
    rwa [hnone, List.append_nil] at hperm

/-- The packets queue of a `VideoChannel`, under any number of threads: the key frames and the ownership of the packets are
kept exactly when no `sync` finds a packet at the front whose key bit is set. -/
theorem packets_kept_iff (h : ((lts τ dropAvPacket).record front).Reachable (s, found)) :
    PacketsKept s.trace ↔ ∀ packet ∈ found, packet.isKey = false := by
  obtain ⟨hdropped, -⟩ := packets_of_trace h
  constructor
  · intro hkept
    rw [← hdropped]
    exact hkept.keyFrames
  · intro hfound
    refine ⟨hdropped ▸ hfound, (owned_iff h).mpr fun packet hmem hflags => ?_⟩
    have hkey := hfound packet hmem
    rw [AVPacket.isKey_of_eq hflags] at hkey
    cases hkey

/-- Two threads: a packet that is no key frame is dropped, the key frame after it is delivered, and one behind that cleared. -/
theorem packets_kept_example : ∃ (s : State (Fin 2) AVPacket) (found : List AVPacket),
    ((lts (Fin 2) dropAvPacket).record front).Reachable (s, found) ∧ found = [⟨0, 0, 2⟩] ∧
    s.trace.flatMap Label.taken = [⟨0, 0, 2⟩, ⟨1, 0, 1⟩, ⟨2, 0, 1⟩] ∧
    s.trace.flatMap Label.delivered = [⟨1, 0, 1⟩] ∧ s.trace.flatMap Label.released = [⟨0, 0, 2⟩, ⟨2, 0, 1⟩] ∧
    PacketsKept s.trace := by
  have h0 : (lts (Fin 2) dropAvPacket).Reachable ⟨MessageQueue.new, fun _ => .out, []⟩ := .init rfl
  have h1 := h0.step (Step.gotoWork (t := 0) rfl (.none not_asleep_of_out))
  have h2 := h1.step (Step.pushWorking (t := 0) (v := ⟨0, 0, 2⟩) rfl rfl (.none not_asleep_of_out))
  have h3 := h2.step (Step.pushWorking (t := 0) (v := ⟨1, 0, 1⟩) rfl rfl (.none not_asleep_of_out))
  have h4 := h3.step (Step.pushWorking (t := 0) (v := ⟨2, 0, 1⟩) rfl rfl (.none not_asleep_of_out))
  have h5 := h4.step (Step.sync (t := 1) rfl)
  have h6 := h5.step (@Step.pop _ _ _ dropAvPacket _ 1 ⟨9, 0, 0⟩ true (Or.inl rfl) rfl)
  have h7 := h6.step (Step.clear (t := 0) (by simp [State.after]))
  obtain ⟨found, hr⟩ := h7.recorded front
  have hfound : found = [⟨0, 0, 2⟩] := (packets_of_trace hr).1.symm
  refine ⟨_, found, hr, hfound, rfl, rfl, rfl, (packets_kept_iff hr).mpr ?_⟩
  rw [hfound]
  decide

/-- A key frame is dropped, and nobody releases it. -/
theorem key_frame_lost : ∃ s : State (Fin 2) AVPacket, (lts (Fin 2) dropAvPacket).Reachable s ∧
    s.trace.flatMap Label.dropped = [⟨0, 0, 1⟩] ∧ s.trace.flatMap Label.taken = [⟨0, 0, 1⟩] ∧
    s.trace.flatMap Label.delivered = [] ∧ s.trace.flatMap Label.released = [] ∧ ¬ PacketsKept s.trace := by
  have h0 : (lts (Fin 2) dropAvPacket).Reachable ⟨MessageQueue.new, fun _ => .out, []⟩ := .init rfl
  have h1 := h0.step (Step.gotoWork (t := 0) rfl (.none not_asleep_of_out))
  have h2 := h1.step (Step.pushWorking (t := 0) (v := ⟨0, 0, 1⟩) rfl rfl (.none not_asleep_of_out))
  have h3 := h2.step (Step.sync (t := 1) rfl)
  refine ⟨_, h3, rfl, rfl, rfl, rfl, fun hkept => ?_⟩
  exact absurd (hkept.keyFrames ⟨0, 0, 1⟩ (by decide)) (by decide)

end QueueThreads

end LibraLive

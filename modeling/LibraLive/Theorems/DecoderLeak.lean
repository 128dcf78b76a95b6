import LibraLive.Lemmas.PlayerStep
import LibraLive.Prepare

/-!
# Who owns the codec contexts `init_prepare` allocates

A context is owned by a channel that a member of the player points to, or nobody frees it: `init_stop` deletes what the two
members point to, and no exit of the loop frees the context of its turn. What is leaked stays leaked, so that it can be read
off the streams one by one (`noLeak_streamLoop`).
-/

namespace LibraLive

/-- Every context was freed or is owned by exactly one of the two stored channels, and every channel that was created is
stored. -/
structure NoLeak (r : Prepare) : Prop where
  context : ∀ ctx ∈ r.contexts, ctx ∈ r.freedContexts ∨ ∃! k : Kind, ∃ c, r.channel k = some c ∧ c.mAvCodecContext = ctx
  channel : ∀ c ∈ r.created, ∃ k : Kind, r.channel k = some c

/-- The turn of the stream allocates a context. -/
def SourceStream.allocates (stream : SourceStream) : Bool := stream.find_decoder ≠ 0 && stream.alloc_context3 ≠ 0

/-- The turn of the stream comes to its end. -/
def SourceStream.opens (stream : SourceStream) : Bool :=
  stream.allocates && (0 ≤ stream.parameters_to_context && stream.open2 = 0)

/-- How many of the streams whose turn comes to its end are of the type. -/
def opened (streams : List SourceStream) (type : AVMediaType) : Nat :=
  (streams.takeWhile SourceStream.opens).countP (·.codec_type = type)

/-- Up to the first stream whose turn fails, if there is one, there are at most one audio and at most one video stream and
none of another type, and the turn of that one fails before it has allocated its context. -/
structure Leakless (streams : List SourceStream) : Prop where
  media : ∀ k : Kind, opened streams k.mediaType ≤ 1
  other : opened streams .other = 0
  failed : ∀ stream ∈ (streams.dropWhile SourceStream.opens).head?, stream.allocates = false

/-- When a decoder cannot be opened its context is leaked. -/
theorem context_leaked : ¬ ∀ source, NoLeak (Prepare.initPrepare source) := by
  intro hall
  have hmem : 0 ∈ (Prepare.initPrepare ⟨0, 0, [⟨.audio, 1, 1, 0, -1⟩]⟩).contexts := by decide
  rcases (hall ⟨0, 0, [⟨.audio, 1, 1, 0, -1⟩]⟩).context 0 hmem with hfreed | ⟨k, ⟨c, hc, -⟩, -⟩
  · cases hfreed
  · cases k <;> cases hc

/-! ## The streams one by one -/

/-- A stream whose turn fails ends the loop. -/
theorem opened_cons_of_fails {stream : SourceStream} (h : stream.opens = false) (streams : List SourceStream)
    (type : AVMediaType) : opened (stream :: streams) type = 0 := by
  simp [opened, h]

/-- A stream whose turn comes to its end counts for its type. -/
theorem opened_cons_of_opens {stream : SourceStream} (h : stream.opens = true) (streams : List SourceStream)
    (type : AVMediaType) : opened (stream :: streams) type = opened streams type + if stream.codec_type = type then 1 else 0 := by
  simp [opened, h, List.countP_cons]

/-! ## The invariant of the loop -/

/-- Before the turn of stream `i`: nothing was freed, contexts are of earlier streams, and the stored channels are created
ones of their kind that own the context of an earlier stream. -/
structure LoopInv (r : Prepare) (i : Nat) : Prop where
  freed : r.freedContexts = []
  contexts : ∀ ctx ∈ r.contexts, ctx < i
  stored : ∀ k c, r.channel k = some c → c.kind = k ∧ c.mAvCodecContext < i ∧ c ∈ r.created
  created : ∀ c ∈ r.created, c.mAvCodecContext < i

namespace LoopInv

variable {r : Prepare} {i : Nat}

/-- Reports change nothing that is owned. -/
theorem noLeak_onError (r : Prepare) (code : Nat) : NoLeak (r.onError code) ↔ NoLeak r :=
  ⟨fun h => ⟨h.context, h.channel⟩, fun h => ⟨h.context, h.channel⟩⟩

/-- Nor does the last report. -/
theorem noLeak_checkMedia (r : Prepare) : NoLeak r.checkMedia ↔ NoLeak r := by
  unfold Prepare.checkMedia
  split
  · exact noLeak_onError r _
  · exact ⟨fun h => ⟨h.context, h.channel⟩, fun h => ⟨h.context, h.channel⟩⟩

/-- A turn that leaves its context in the local variable leaks it. -/
theorem not_noLeak_allocContext (hr : LoopInv r i) : ¬ NoLeak (r.allocContext i) := by
  intro h
  rcases h.context i (by simp [Prepare.allocContext]) with hfreed | ⟨k, ⟨c, hc, hi⟩, -⟩
  · rw [show (r.allocContext i).freedContexts = r.freedContexts from rfl, hr.freed] at hfreed
    cases hfreed
  · have hlt := (hr.stored k c (by cases k <;> exact hc)).2.1
    omega

/-- Going on without a channel keeps the invariant. -/
theorem allocContext (hr : LoopInv r i) : LoopInv (r.allocContext i) (i + 1) := by
  refine ⟨hr.freed, ?_, ?_, ?_⟩
  · intro ctx hmem
    rcases List.mem_append.mp hmem with hold | hnew
    · exact Nat.lt_succ_of_lt (hr.contexts ctx hold)
    · rw [List.mem_singleton.mp hnew]
      exact Nat.lt_succ_self i
  · intro k c hc
    obtain ⟨hkind, hlt, hmem⟩ := hr.stored k c (by cases k <;> exact hc)
    exact ⟨hkind, Nat.lt_succ_of_lt hlt, hmem⟩
  · intro c hmem
    exact Nat.lt_succ_of_lt (hr.created c hmem)

end LoopInv

namespace Prepare

/-- A turn that stores a channel of kind `k`. -/
def store (r : Prepare) (i : Nat) (k : Kind) : Prepare :=
  (r.allocContext i).makeChannel i k.mediaType

@[simp] theorem contexts_store (r : Prepare) (i : Nat) (k : Kind) : (r.store i k).contexts = r.contexts ++ [i] := by
  cases k <;> rfl

@[simp] theorem freedContexts_store (r : Prepare) (i : Nat) (k : Kind) : (r.store i k).freedContexts = r.freedContexts := by
  cases k <;> rfl

@[simp] theorem created_store (r : Prepare) (i : Nat) (k : Kind) : (r.store i k).created = r.created ++ [⟨k, i, i⟩] := by
  cases k <;> rfl

@[simp] theorem channel_store (r : Prepare) (i : Nat) (k : Kind) : (r.store i k).channel k = some ⟨k, i, i⟩ := by
  cases k <;> rfl

theorem channel_store_of_ne (r : Prepare) (i : Nat) {k k' : Kind} (h : k' ≠ k) : (r.store i k).channel k' = r.channel k' := by
  cases k <;> cases k' <;> first | rfl | exact absurd rfl h

/-- A stored channel is the new one, or it was stored before. -/
theorem channel_store_cases {r : Prepare} {i : Nat} {k k' : Kind} {c : ChannelObject} (h : (r.store i k).channel k' = some c) :
    k' = k ∧ c = ⟨k, i, i⟩ ∨ k' ≠ k ∧ r.channel k' = some c := by
  by_cases hk : k' = k
  · subst hk
    rw [channel_store] at h
    exact Or.inl ⟨rfl, (Option.some.inj h).symm⟩
  · rw [channel_store_of_ne r i hk] at h
    exact Or.inr ⟨hk, h⟩

end Prepare

namespace LoopInv

variable {r : Prepare} {i : Nat}

/-- Storing a channel keeps the invariant. -/
theorem store (hr : LoopInv r i) (k : Kind) : LoopInv (r.store i k) (i + 1) := by
  refine ⟨by simpa using hr.freed, ?_, ?_, ?_⟩
  · intro ctx hmem
    rw [Prepare.contexts_store, List.mem_append, List.mem_singleton] at hmem
    rcases hmem with hold | rfl
    · exact Nat.lt_succ_of_lt (hr.contexts ctx hold)
    · exact Nat.lt_succ_self ctx
  · intro k' c hc
    rcases Prepare.channel_store_cases hc with ⟨rfl, rfl⟩ | ⟨-, hc⟩
    · exact ⟨rfl, Nat.lt_succ_self i, by simp⟩
    · obtain ⟨hkind, hlt, hmem⟩ := hr.stored k' c hc
      exact ⟨hkind, Nat.lt_succ_of_lt hlt, by simp [hmem]⟩
  · intro c hmem
    rw [Prepare.created_store, List.mem_append, List.mem_singleton] at hmem
    rcases hmem with hold | rfl
    · exact Nat.lt_succ_of_lt (hr.created c hold)
    · exact Nat.lt_succ_self i

/-- A channel the member pointed to is not stored any more, and the two kinds have different members. -/
theorem channel_eq_none (hr : LoopInv r i) {k : Kind} (h : NoLeak (r.store i k)) : r.channel k = none := by
  cases hk : r.channel k with
  | none => rfl
  | some c =>
    exfalso
    obtain ⟨hkind, hlt, hmem⟩ := hr.stored k c hk
    obtain ⟨k', hc⟩ := h.channel c (by simp [hmem])
    rcases Prepare.channel_store_cases hc with ⟨-, rfl⟩ | ⟨hk', hc⟩
    · exact Nat.lt_irrefl i hlt
    · exact hk' ((hr.stored k' c hc).1.symm.trans hkind)

/-- What is owned after the channel was stored was owned before. -/
theorem noLeak_of_store (hr : LoopInv r i) {k : Kind} (h : NoLeak (r.store i k)) : NoLeak r := by
  have hnone := hr.channel_eq_none h
  refine ⟨?_, ?_⟩
  · intro ctx hmem
    rcases h.context ctx (by simp [hmem]) with hfreed | ⟨k', ⟨c, hc, hctx⟩, huniq⟩
    · exact Or.inl (by simpa using hfreed)
    · rcases Prepare.channel_store_cases hc with ⟨-, rfl⟩ | ⟨-, hc⟩
      · exact absurd hctx.symm (Nat.ne_of_lt (hr.contexts ctx hmem))
      · refine Or.inr ⟨k', ⟨c, hc, hctx⟩, ?_⟩
        rintro k'' ⟨c', hc', hctx'⟩
        have hk'' : k'' ≠ k := by
          rintro rfl
          rw [hnone] at hc'
          cases hc'
        exact huniq k'' ⟨c', by rw [Prepare.channel_store_of_ne r i hk'', hc'], hctx'⟩
  · intro c hmem
    obtain ⟨k', hc⟩ := h.channel c (by simp [hmem])
    rcases Prepare.channel_store_cases hc with ⟨-, rfl⟩ | ⟨-, hc⟩
    · exact absurd (hr.created _ hmem) (Nat.lt_irrefl i)
    · exact ⟨k', hc⟩

/-- If the member pointed to no channel, the stored channel owns the new context and the others keep theirs. -/
theorem store_noLeak (hr : LoopInv r i) {k : Kind} (h : NoLeak r) (hnone : r.channel k = none) : NoLeak (r.store i k) := by
  have hne : ∀ {k' c}, r.channel k' = some c → k' ≠ k := by
    rintro k' c hc rfl
    rw [hnone] at hc
    cases hc
  refine ⟨?_, ?_⟩
  · intro ctx hmem
    rw [Prepare.contexts_store, List.mem_append, List.mem_singleton] at hmem
    rcases hmem with hold | rfl
    · rcases h.context ctx hold with hfreed | ⟨k', ⟨c, hc, hctx⟩, huniq⟩
      · exact Or.inl (by simpa using hfreed)
      · refine Or.inr ⟨k', ⟨c, by rw [Prepare.channel_store_of_ne r i (hne hc), hc], hctx⟩, ?_⟩
        rintro k'' ⟨c', hc', hctx'⟩
        rcases Prepare.channel_store_cases hc' with ⟨-, rfl⟩ | ⟨-, hc'⟩
        · exact absurd hctx'.symm (Nat.ne_of_lt (hr.contexts ctx hold))
        · exact huniq k'' ⟨c', hc', hctx'⟩
    · refine Or.inr ⟨k, ⟨_, Prepare.channel_store r ctx k, rfl⟩, ?_⟩
      rintro k' ⟨c, hc, hctx⟩
      rcases Prepare.channel_store_cases hc with ⟨hk', -⟩ | ⟨-, hc⟩
      · exact hk'
      · exact absurd hctx (Nat.ne_of_lt (hr.stored k' c hc).2.1)
  · intro c hmem
    rw [Prepare.created_store, List.mem_append, List.mem_singleton] at hmem
    rcases hmem with hold | rfl
    · obtain ⟨k', hc⟩ := h.channel c hold
      exact ⟨k', by rw [Prepare.channel_store_of_ne r i (hne hc), hc]⟩
    · exact ⟨k, Prepare.channel_store r i k⟩

/-- Storing a channel leaks nothing more exactly if the member pointed to none. -/
theorem noLeak_store (hr : LoopInv r i) (k : Kind) : NoLeak (r.store i k) ↔ NoLeak r ∧ r.channel k = none :=
  ⟨fun h => ⟨hr.noLeak_of_store h, hr.channel_eq_none h⟩, fun h => hr.store_noLeak h.1 h.2⟩

end LoopInv

/-- `Leakless` for the streams still to come, where the members may point to channels already. -/
structure LeaklessFrom (r : Prepare) (streams : List SourceStream) : Prop where
  media : ∀ k : Kind, opened streams k.mediaType + (r.channel k).toList.length ≤ 1
  other : opened streams .other = 0
  failed : ∀ stream ∈ (streams.dropWhile SourceStream.opens).head?, stream.allocates = false

namespace LeaklessFrom

variable {r : Prepare} {stream : SourceStream} {streams : List SourceStream}

/-- No stream is left. -/
theorem nil (r : Prepare) : LeaklessFrom r [] :=
  ⟨fun k => by simp [opened], rfl, by simp⟩

/-- The turn of the next stream fails: nothing is leaked exactly if it has not allocated. -/
theorem cons_of_fails (h : stream.opens = false) : LeaklessFrom r (stream :: streams) ↔ stream.allocates = false := by
  constructor
  · intro hl
    exact hl.failed stream (by simp [h])
  · intro ha
    refine ⟨fun k => ?_, opened_cons_of_fails h streams _, by simp [h, ha]⟩
    simp [opened_cons_of_fails h]

/-- A stream of neither type comes to the end of its turn. -/
theorem not_cons_of_other (h : stream.opens = true) (ht : stream.codec_type = .other) :
    ¬ LeaklessFrom r (stream :: streams) := by
  intro hl
  have hother := hl.other
  rw [opened_cons_of_opens h, if_pos ht] at hother
  omega

/-- A stream of a kind comes to the end of its turn. -/
theorem cons_of_media (h : stream.opens = true) {k : Kind} (ht : stream.codec_type = k.mediaType) (i : Nat) :
    LeaklessFrom r (stream :: streams) ↔ r.channel k = none ∧ LeaklessFrom (r.store i k) streams := by
  have hothers : ∀ k', k' ≠ k → k.mediaType ≠ k'.mediaType := by
    intro k' hk'
    cases k <;> cases k' <;> simp [Kind.mediaType] at hk' ⊢
  have hother : opened (stream :: streams) .other = opened streams .other := by
    rw [opened_cons_of_opens h, ht, if_neg (by cases k <;> simp [Kind.mediaType]), Nat.add_zero]
  have hdrop : (stream :: streams).dropWhile SourceStream.opens = streams.dropWhile SourceStream.opens := by simp [h]
  constructor
  · intro hl
    have hk := hl.media k
    rw [opened_cons_of_opens h, if_pos ht] at hk
    have hnone : r.channel k = none := by
      cases hc : r.channel k with
      | none => rfl
      | some c =>
        rw [hc] at hk
        simp at hk
    refine ⟨hnone, ⟨fun k' => ?_, hother ▸ hl.other, hdrop ▸ hl.failed⟩⟩
    by_cases hk' : k' = k
    · subst hk'
      rw [Prepare.channel_store]
      simp only [Option.toList_some, List.length_singleton]
      omega
    · have hm := hl.media k'
      rw [opened_cons_of_opens h, ht, if_neg (hothers k' hk')] at hm
      rw [Prepare.channel_store_of_ne r i hk']
      omega
  · rintro ⟨hnone, hl⟩
    refine ⟨fun k' => ?_, hother ▸ hl.other, hdrop ▸ hl.failed⟩
    have hm := hl.media k'
    rw [opened_cons_of_opens h, ht]
    by_cases hk' : k' = k
    · subst hk'
      rw [Prepare.channel_store] at hm
      rw [if_pos rfl, hnone]
      simpa using hm
    · rw [Prepare.channel_store_of_ne r i hk'] at hm
      rw [if_neg (hothers k' hk')]
      omega

end LeaklessFrom

/-- A codec type is that of a kind of channel, or there is no channel for it. -/
theorem AVMediaType.kind_or_other (type : AVMediaType) : type = .other ∨ ∃ k : Kind, type = k.mediaType := by
  cases type with
  | video => exact Or.inr ⟨.video, rfl⟩
  | audio => exact Or.inr ⟨.audio, rfl⟩
  | other => exact Or.inl rfl

/-- The loop leaks nothing exactly if nothing was leaked before it and the streams still to come leak nothing. -/
theorem noLeak_streamLoop (streams : List SourceStream) {r : Prepare} {i : Nat} (hr : LoopInv r i) :
    NoLeak (r.streamLoop i streams) ↔ NoLeak r ∧ LeaklessFrom r streams := by
  induction streams generalizing r i with
  | nil => simp [Prepare.streamLoop, LoopInv.noLeak_checkMedia, LeaklessFrom.nil]
  | cons stream streams ih =>
    unfold Prepare.streamLoop
    by_cases hfind : stream.find_decoder = 0
    · have ha : stream.allocates = false := by simp [SourceStream.allocates, hfind]
      rw [if_pos hfind, LoopInv.noLeak_onError, LeaklessFrom.cons_of_fails (by simp [SourceStream.opens, ha])]
      simp [ha]
    rw [if_neg hfind]
    by_cases halloc : stream.alloc_context3 = 0
    · have ha : stream.allocates = false := by simp [SourceStream.allocates, halloc]
      rw [if_pos halloc, LoopInv.noLeak_onError, LeaklessFrom.cons_of_fails (by simp [SourceStream.opens, ha])]
      simp [ha]
    rw [if_neg halloc]
    have ha : stream.allocates = true := by simp [SourceStream.allocates, hfind, halloc]
    by_cases hparameters : stream.parameters_to_context < 0
    · have ho : stream.opens = false := by simp [SourceStream.opens, Int.not_le.mpr hparameters]
      rw [if_pos hparameters, LoopInv.noLeak_onError, LeaklessFrom.cons_of_fails ho]
      simp [ha, hr.not_noLeak_allocContext]
    rw [if_neg hparameters]
    by_cases hopen : stream.open2 ≠ 0
    · have ho : stream.opens = false := by simp [SourceStream.opens, hopen]
      rw [if_pos hopen, LoopInv.noLeak_onError, LeaklessFrom.cons_of_fails ho]
      simp [ha, hr.not_noLeak_allocContext]
    rw [if_neg hopen]
    have ho : stream.opens = true := by
      simp [SourceStream.opens, ha, Int.not_lt.mp hparameters, not_not.mp hopen]
    -- the turn comes to its end: whether it leaks is a matter of the codec type
    rcases stream.codec_type.kind_or_other with ht | ⟨k, ht⟩
    · rw [ht, show (r.allocContext i).makeChannel i .other = r.allocContext i from rfl, ih hr.allocContext]
      simp [hr.not_noLeak_allocContext, LeaklessFrom.not_cons_of_other ho ht]
    · rw [ht, show (r.allocContext i).makeChannel i k.mediaType = r.store i k from rfl, ih (hr.store k),
        hr.noLeak_store k, LeaklessFrom.cons_of_media ho ht i, and_assoc]

/-- Nothing was allocated or created yet. -/
structure Blank (r : Prepare) : Prop where
  contexts : r.contexts = []
  freed : r.freedContexts = []
  created : r.created = []
  channel : ∀ k, r.channel k = none

namespace Blank

variable {r : Prepare}

theorem new : Blank Prepare.new := ⟨rfl, rfl, rfl, fun k => by cases k <;> rfl⟩

theorem onError (hr : Blank r) (code : Nat) : Blank (r.onError code) :=
  ⟨hr.contexts, hr.freed, hr.created, fun k => by cases k <;> [exact hr.channel .audio; exact hr.channel .video]⟩

theorem noLeak (hr : Blank r) : NoLeak r := ⟨by simp [hr.contexts], by simp [hr.created]⟩

theorem loopInv (hr : Blank r) : LoopInv r 0 :=
  ⟨hr.freed, by simp [hr.contexts], by simp [hr.channel], by simp [hr.created]⟩

/-- No member points to a channel yet. -/
theorem leaklessFrom (hr : Blank r) (streams : List SourceStream) : LeaklessFrom r streams ↔ Leakless streams :=
  ⟨fun h => ⟨fun k => by simpa [hr.channel k] using h.media k, h.other, h.failed⟩,
    fun h => ⟨fun k => by simpa [hr.channel k] using h.media k, h.other, h.failed⟩⟩

/-- From here the loop leaks nothing exactly if the streams do not. -/
theorem noLeak_streamLoop (hr : Blank r) (streams : List SourceStream) :
    NoLeak (r.streamLoop 0 streams) ↔ Leakless streams := by
  rw [LibraLive.noLeak_streamLoop streams hr.loopInv, hr.leaklessFrom]
  simp [hr.noLeak]

end Blank

/-- For every source, whatever its streams and whatever FFmpeg returns for them, `init_prepare` leaks no context and no
channel if and only if the source does not open, or up to the first stream whose turn fails there are at most one audio and
one video stream and none of another type, and that turn fails before it has allocated a context. -/
theorem noLeak_iff (source : Source) :
    NoLeak (Prepare.initPrepare source) ↔ source.open_input ≠ 0 ∨ Leakless source.streams := by
  unfold Prepare.initPrepare
  by_cases hopen : source.open_input ≠ 0
  · rw [if_pos hopen]
    exact ⟨fun _ => Or.inl hopen, fun _ => (Blank.new.onError _).noLeak⟩
  rw [if_neg hopen]
  by_cases hinfo : source.find_stream_info < 0
  · rw [if_pos hinfo, (Blank.new.onError _).noLeak_streamLoop]
    simp [hopen]
  · rw [if_neg hinfo, Blank.new.noLeak_streamLoop]
    simp [hopen]

end LibraLive

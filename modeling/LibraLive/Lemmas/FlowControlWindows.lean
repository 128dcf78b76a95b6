import LibraLive.Lemmas.FlowControlStep

/-!
# Where the bytes of a window are

The window of the connection and all the bytes that were taken from it and not given back, or never will be, add up to the
same at all times (`outstanding_step`), and so do, for each stream, its own window and what was taken from that (`Accounted`).
A stream sends nothing after the frame that ends it (`Ordered`), so the receiver never has to skip a byte.
-/

namespace LibraLive

namespace Okhttp3

open SizedTable

/-- What a window update gives back to the connection. -/
def WindowUpdate.forConnection (update : WindowUpdate) : Nat := if update.streamId = none then update.windowSizeIncrement else 0

/-- What a window update gives back to a stream. -/
def WindowUpdate.forStream (i : Nat) (update : WindowUpdate) : Nat :=
  if update.streamId = some i then update.windowSizeIncrement else 0

/-- The bytes of a stream in a frame. -/
def DataFrame.forStream (i : Nat) (frame : DataFrame) : Nat := if frame.streamId = i then frame.length else 0

namespace Http2Connection

variable {s s' : Http2Connection} {a : Act} {i j : Nat} {stream stream' : Http2Stream}

/-- The frames on the wire, after what the thread that reads has in hand of one. -/
def inFlight (s : Http2Connection) : List DataFrame :=
  (s.receiving.map fun r => ⟨r.streamId, r.byteCount + r.receiveBuffer, r.inFinished⟩).toList ++ s.data

theorem inFlight_of_none (h : s.receiving = none) : s.inFlight = s.data := by
  rw [inFlight, h]
  rfl

theorem inFlight_of_some {receiving : Receiving} (h : s.receiving = some receiving) :
    s.inFlight = ⟨receiving.streamId, receiving.byteCount + receiving.receiveBuffer, receiving.inFinished⟩ :: s.data := by
  rw [inFlight, h]
  rfl

/-- A frame is put on the wire. -/
theorem inFlight_append {frame : DataFrame} (hdata : s'.data = s.data ++ [frame]) (hreceiving : s'.receiving = s.receiving) :
    s'.inFlight = s.inFlight ++ [frame] := by
  rw [inFlight, inFlight, hdata, hreceiving, List.append_assoc]

/-! ## The window of the connection -/

/-- The bytes that were taken from the window of the connection and are still to be given back. -/
def outstanding (s : Http2Connection) : Nat :=
  total Http2Stream.toWrite s.streams + total DataFrame.length s.inFlight + total Http2Stream.readBuffer s.streams +
    total id s.credits + s.unacknowledgedBytesRead + total WindowUpdate.forConnection s.updates

/-- The window, what was taken from it and what is gone add up to the same after a step. -/
theorem outstanding_step (hstep : Step s a s') :
    s'.initialWindowSize = s.initialWindowSize ∧
      s'.bytesLeftInWriteWindow + s'.outstanding + s'.lost + s'.uncredited =
        s.bytesLeftInWriteWindow + s.outstanding + s.lost + s.uncredited := by
  refine ⟨by cases hstep <;> rfl, ?_⟩
  have hle : ∀ {i : Nat} {stream : Http2Stream}, s.streams[i]? = some stream →
      stream.toWrite ≤ total Http2Stream.toWrite s.streams ∧ stream.readBuffer ≤ total Http2Stream.readBuffer s.streams :=
    fun hstream => ⟨le_total (List.mem_of_getElem? hstream), le_total (List.mem_of_getElem? hstream)⟩
  have hcredit : ∀ {k read : Nat}, s.credits[k]? = some read → id read ≤ total id s.credits :=
    fun hread => le_total (List.mem_of_getElem? hread)
  -- the bytes of a read are for the connection, or for nobody
  have hcredited : ∀ (timedOut : Bool) (read : Nat), total id (if timedOut then s.credits else s.credits ++ [read]) +
      (if timedOut then s.uncredited + read else s.uncredited) = total id s.credits + s.uncredited + read := by
    intro timedOut read
    cases timedOut
    · simp only [Bool.false_eq_true, if_false, total_append, total_cons, total_nil, id]
      omega
    · simp only [if_true]
      omega
  cases hstep with
  | newStream =>
    simp only [outstanding, inFlight, total_append, Http2Stream.new, total_cons, total_nil]
    omega
  | emitFrame hstream | giveUp hstream | forget hstream | reset hstream | removeStream hstream | notifyStream _ hstream =>
    have hle := hle hstream
    simp only [outstanding, inFlight, total_append, setStream, total_set hstream]
    omega
  | takeWindow hstream hwindow hcount hpos hzero =>
    have hle := hle hstream
    simp only [outstanding, inFlight, total_append, setStream, total_set hstream]
    omega
  | writeData hstream | closeSink hstream =>
    have hle := hle hstream
    simp only [outstanding, inFlight, setStream, total_set hstream, total_append, total_cons, total_nil]
    omega
  | applySettings => rfl
  | updateConnection hupdates =>
    simp only [outstanding, inFlight, total_append, hupdates, total_cons, WindowUpdate.forConnection, if_true]
    omega
  | updateStream hupdates hstream =>
    have hle := hle hstream
    simp only [outstanding, inFlight, total_append, setStream, total_set hstream, hupdates, total_cons,
      WindowUpdate.forConnection, reduceCtorEq, if_false]
    omega
  | updateForgotten hupdates =>
    simp only [outstanding, inFlight, total_append, hupdates, total_cons, WindowUpdate.forConnection, reduceCtorEq, if_false]
    omega
  | receiveFrame hreceiving hdata =>
    rw [outstanding, outstanding, inFlight_of_some rfl, inFlight_of_none hreceiving, hdata]
    rfl
  | pushFrame hreceiving hdata =>
    simp only [outstanding, inFlight, hdata, total_append, total_cons]
    omega
  | skipFrame hreceiving hdata =>
    simp only [outstanding, inFlight, hdata, total_append, total_cons, total_nil, id]
    omega
  | flowControlError hreceiving | skipFinished hreceiving =>
    rw [outstanding, outstanding, inFlight_of_some rfl, inFlight_of_some hreceiving]
    simp only [total_cons]
    omega
  | receiveBytes hreceiving hstream hzero hread hle =>
    rw [outstanding, outstanding, inFlight_of_some rfl, inFlight_of_some hreceiving]
    simp only [total_cons]
    omega
  | discardBytes hreceiving =>
    rw [outstanding, outstanding, inFlight_of_some rfl, inFlight_of_some hreceiving]
    simp only [total_append, total_cons, total_nil, id]
    omega
  | moveBytes hreceiving hstream =>
    have hle := hle hstream
    rw [outstanding, outstanding, inFlight_of_some rfl, inFlight_of_some hreceiving]
    simp only [setStream, total_set hstream, total_cons]
    omega
  | receiveEnd hreceiving hstream hcount hbuffer =>
    have hle := hle hstream
    rw [outstanding, outstanding, inFlight_of_none rfl, inFlight_of_some hreceiving]
    simp only [setStream, total_set hstream, total_cons]
    omega
  | @acknowledge i read timedOut stream hstream hread =>
    have hle := hle hstream
    have hsum := hcredited timedOut read
    simp only [outstanding, inFlight, total_append, setStream, total_set hstream, total_cons, total_nil,
      WindowUpdate.forConnection, reduceCtorEq, if_false]
    omega
  | @readBytes i read timedOut stream hstream hread =>
    have hle := hle hstream
    have hsum := hcredited timedOut read
    simp only [outstanding, inFlight, total_append, setStream, total_set hstream]
    omega
  | @closeSource i stream hstream =>
    have hle := hle hstream
    have hsum : total id (if 0 < stream.readBuffer then s.credits ++ [stream.readBuffer] else s.credits) =
        total id s.credits + stream.readBuffer := by
      split
      · rw [total_append, total_cons, total_nil, id, Nat.add_zero]
      · omega
    simp only [outstanding, inFlight, total_append, setStream, total_set hstream, hsum]
    omega
  | acknowledgeConnection hread =>
    have hle := hcredit hread
    simp only [id] at hle
    simp only [outstanding, inFlight, total_append, total_eraseIdx hread, id, total_cons, total_nil,
      WindowUpdate.forConnection, if_true]
    omega
  | credit hread =>
    have hle := hcredit hread
    simp only [id] at hle
    simp only [outstanding, inFlight, total_append, total_eraseIdx hread, id]
    omega

/-! ## The order of the frames -/

/-- The streams of the frames in flight, and whether they end them. -/
def marks (s : Http2Connection) : List (Nat × Bool) := s.inFlight.map fun frame => (frame.streamId, frame.inFinished)

/-- Nothing of a stream comes after the frame that ends it. -/
structure Ordered (s : Http2Connection) : Prop where
  valid : ∀ mark ∈ s.marks, mark.1 < s.streams.length
  ended : s.marks.Pairwise fun mark later => mark.2 = true → later.1 ≠ mark.1
  finished : ∀ i stream, s.streams[i]? = some stream → stream.finished = true → ∀ mark ∈ s.marks, mark.1 ≠ i
  sender : ∀ i stream, s.streams[i]? = some stream → stream.finished = true ∨ (i, true) ∈ s.marks →
    stream.sinkFinished = true ∧ stream.byteCount = 0 ∧ stream.toWrite = 0

/-- What is at a place after a stream was changed. -/
theorem getElem?_setStream {x : Http2Stream} (h : (s.streams.set i x)[j]? = some stream') :
    (j = i ∧ stream' = x) ∨ (j ≠ i ∧ s.streams[j]? = some stream') := by
  by_cases hij : i = j
  · subst hij
    obtain ⟨hlt, hget⟩ := List.getElem?_eq_some_iff.mp h
    rw [List.getElem_set_self] at hget
    exact .inl ⟨rfl, hget.symm⟩
  · rw [List.getElem?_set_ne hij] at h
    exact .inr ⟨Ne.symm hij, h⟩

/-- What is at a place after a stream was added. -/
theorem getElem?_newStream {x : Http2Stream} (h : (s.streams ++ [x])[i]? = some stream) :
    (i = s.streams.length ∧ stream = x) ∨ s.streams[i]? = some stream := by
  rcases Nat.lt_trichotomy i s.streams.length with hlt | rfl | hgt
  · rw [List.getElem?_append_left hlt] at h
    exact .inr h
  · rw [List.getElem?_concat_length] at h
    exact .inl ⟨rfl, (Option.some.inj h).symm⟩
  · rw [List.getElem?_eq_none (by rw [List.length_append, List.length_singleton]; omega)] at h
    cases h

namespace Ordered

/-- The stream of the frame in hand has not ended. -/
theorem not_finished (h : Ordered s) {receiving : Receiving} (hreceiving : s.receiving = some receiving)
    (hstream : s.streams[receiving.streamId]? = some stream) : ¬ stream.finished = true := by
  intro hfinished
  refine absurd rfl (h.finished _ stream hstream hfinished (receiving.streamId, receiving.inFinished) ?_)
  rw [marks, inFlight_of_some hreceiving]
  exact List.mem_cons_self

/-- The streams stay, and frames may leave. -/
theorem of_sublist (h : Ordered s) (hstreams : s'.streams = s.streams) (hmarks : s'.marks.Sublist s.marks) : Ordered s' where
  valid mark hmark := hstreams ▸ h.valid mark (hmarks.subset hmark)
  ended := h.ended.sublist hmarks
  finished i stream hstream hfinished mark hmark :=
    h.finished i stream (hstreams ▸ hstream) hfinished mark (hmarks.subset hmark)
  sender i stream hstream hend :=
    h.sender i stream (hstreams ▸ hstream) (hend.imp id fun hmark => hmarks.subset hmark)

/-- A stream changes, and stays finished if it is. -/
theorem of_set {x : Http2Stream} (h : Ordered s) (hstream : s.streams[i]? = some stream) (hset : s'.streams = s.streams.set i x)
    (hmarks : s'.marks = s.marks) (hfinished : x.finished = stream.finished)
    (hsender : stream.sinkFinished = true → stream.byteCount = 0 → stream.toWrite = 0 →
      x.sinkFinished = true ∧ x.byteCount = 0 ∧ x.toWrite = 0) : Ordered s' where
  valid mark hmark := by
    rw [hset, List.length_set]
    exact h.valid mark (hmarks ▸ hmark)
  ended := hmarks ▸ h.ended
  finished j stream' hget hfin mark hmark := by
    rw [hmarks] at hmark
    rcases getElem?_setStream (hset ▸ hget) with ⟨rfl, rfl⟩ | ⟨-, hget⟩
    · exact h.finished j stream hstream (hfinished ▸ hfin) mark hmark
    · exact h.finished j stream' hget hfin mark hmark
  sender j stream' hget hend := by
    rw [hmarks] at hend
    rcases getElem?_setStream (hset ▸ hget) with ⟨rfl, rfl⟩ | ⟨-, hget⟩
    · obtain ⟨hsink, hcount, hwrite⟩ := h.sender j stream hstream (hfinished ▸ hend)
      exact hsender hsink hcount hwrite
    · exact h.sender j stream' hget hend

/-- A frame of a stream that has not ended is put on the wire. -/
theorem of_append {x : Http2Stream} {length : Nat} {inFinished : Bool} (h : Ordered s) (hstream : s.streams[i]? = some stream)
    (hset : s'.streams = s.streams.set i x) (hdata : s'.data = s.data ++ [⟨i, length, inFinished⟩])
    (hreceiving : s'.receiving = s.receiving) (hfinished : x.finished = stream.finished)
    (hopen : ¬ (stream.sinkFinished = true ∧ stream.byteCount = 0 ∧ stream.toWrite = 0))
    (hend : inFinished = true → x.sinkFinished = true ∧ x.byteCount = 0 ∧ x.toWrite = 0) : Ordered s' := by
  have hmarks : s'.marks = s.marks ++ [(i, inFinished)] := by
    rw [marks, inFlight_append hdata hreceiving, List.map_append]
    rfl
  have hnot : stream.finished ≠ true := fun hfin => hopen (h.sender i stream hstream (.inl hfin))
  have hmark : (i, true) ∉ s.marks := fun hmark => hopen (h.sender i stream hstream (.inr hmark))
  refine ⟨fun mark hm => ?_, ?_, fun j stream' hget hfin mark hm => ?_, fun j stream' hget hdone => ?_⟩
  · rw [hset, List.length_set]
    rw [hmarks] at hm
    rcases List.mem_append.mp hm with hm | hm
    · exact h.valid mark hm
    · obtain rfl := List.mem_singleton.mp hm
      exact (List.getElem?_eq_some_iff.mp hstream).1
  · rw [hmarks, List.pairwise_append]
    refine ⟨h.ended, List.pairwise_singleton _ _, fun mark hm later hlater hfin => ?_⟩
    obtain rfl := List.mem_singleton.mp hlater
    rintro rfl
    refine hmark ?_
    rw [← hfin]
    exact hm
  · rw [hmarks] at hm
    rcases getElem?_setStream (hset ▸ hget) with ⟨rfl, rfl⟩ | ⟨hne, hget⟩
    · exact absurd (hfinished ▸ hfin) hnot
    · rcases List.mem_append.mp hm with hm | hm
      · exact h.finished j stream' hget hfin mark hm
      · obtain rfl := List.mem_singleton.mp hm
        exact Ne.symm hne
  · rw [hmarks] at hdone
    rcases getElem?_setStream (hset ▸ hget) with ⟨rfl, rfl⟩ | ⟨hne, hget⟩
    · rcases hdone with hfin | hdone
      · exact absurd (hfinished ▸ hfin) hnot
      · rcases List.mem_append.mp hdone with hdone | hdone
        · exact absurd hdone hmark
        · obtain ⟨-, rfl⟩ := Prod.mk.inj (List.mem_singleton.mp hdone)
          exact hend rfl
    · refine h.sender j stream' hget (hdone.imp id fun hdone => ?_)
      rcases List.mem_append.mp hdone with hdone | hdone
      · exact hdone
      · exact absurd (Prod.mk.inj (List.mem_singleton.mp hdone)).1 hne

/-- The frame in hand has been received: the stream is finished if it ended it. -/
theorem of_receiveEnd {receiving : Receiving} (h : Ordered s) (hreceiving : s.receiving = some receiving)
    (hstream : s.streams[receiving.streamId]? = some stream) :
    Ordered { s.setStream receiving.streamId { stream with finished := stream.finished || receiving.inFinished } with
      receiving := none } := by
  have hmarks : s.marks = (receiving.streamId, receiving.inFinished) :: s.data.map fun f => (f.streamId, f.inFinished) := by
    rw [marks, inFlight_of_some hreceiving, List.map_cons]
  have hended := h.ended
  rw [hmarks, List.pairwise_cons] at hended
  have htail : ∀ mark ∈ s.data.map fun f => (f.streamId, f.inFinished), mark ∈ s.marks := fun mark hmark =>
    hmarks ▸ List.mem_cons_of_mem _ hmark
  refine ⟨fun mark hmark => ?_, hended.2, fun j stream' hget hfin mark hmark => ?_, fun j stream' hget hdone => ?_⟩
  · change mark.1 < (s.streams.set _ _).length
    rw [List.length_set]
    exact h.valid mark (htail mark hmark)
  · rcases getElem?_setStream hget with ⟨rfl, rfl⟩ | ⟨-, hget⟩
    · rcases Bool.or_eq_true_iff.mp hfin with hfin | hfin
      · exact h.finished _ stream hstream hfin mark (htail mark hmark)
      · exact hended.1 mark hmark hfin
    · exact h.finished j stream' hget hfin mark (htail mark hmark)
  · rcases getElem?_setStream hget with ⟨rfl, rfl⟩ | ⟨-, hget⟩
    · refine h.sender _ stream hstream ?_
      rcases hdone with hfin | hdone
      · rcases Bool.or_eq_true_iff.mp hfin with hfin | hfin
        · exact .inl hfin
        · refine .inr ?_
          rw [hmarks, hfin]
          exact List.mem_cons_self
      · exact .inr (htail _ hdone)
    · exact h.sender j stream' hget (hdone.imp id (htail _))

/-- Every step keeps the order. -/
theorem step (h : Ordered s) (hstep : Step s a s') : Ordered s' := by
  cases hstep with
  | newStream =>
    refine ⟨fun mark hmark => ?_, h.ended, fun i stream hget hfin => ?_, fun i stream hget hdone => ?_⟩
    · have hlt := h.valid mark hmark
      rw [List.length_append, List.length_singleton]
      omega
    · rcases getElem?_newStream hget with ⟨-, rfl⟩ | hget
      · cases hfin
      · exact h.finished i stream hget hfin
    · rcases getElem?_newStream hget with ⟨rfl, rfl⟩ | hget
      · rcases hdone with hfin | hmark
        · cases hfin
        · exact absurd (h.valid _ hmark) (Nat.lt_irrefl _)
      · exact h.sender i stream hget hdone
  | emitFrame hstream hle hcount hopen =>
    exact h.of_set hstream rfl rfl rfl fun hsink => absurd hsink (by rw [hopen]; exact Bool.false_ne_true)
  | takeWindow hstream hwindow hcount hpos =>
    exact h.of_set hstream rfl rfl rfl fun _ hzero => absurd hzero (Nat.ne_of_gt hpos)
  | @writeData i stream inFinished hstream hpos hend =>
    refine h.of_append hstream rfl rfl rfl rfl (fun hclosed => absurd hclosed.2.2 (Nat.ne_of_gt hpos)) fun hfin => ?_
    exact ⟨by rw [hfin]; exact Bool.or_true _, hend hfin, rfl⟩
  | closeSink hstream hcount hwrite hopen =>
    refine h.of_append hstream rfl rfl rfl rfl (fun hclosed => ?_) fun _ => ⟨rfl, hcount, hwrite⟩
    rw [hopen] at hclosed
    exact Bool.false_ne_true hclosed.1
  | giveUp hstream => exact h.of_set hstream rfl rfl rfl fun hsink _ hwrite => ⟨hsink, rfl, hwrite⟩
  | forget hstream | reset hstream | removeStream hstream | notifyStream _ hstream | updateStream _ hstream
  | acknowledge hstream | readBytes hstream | closeSource hstream =>
    exact h.of_set hstream rfl rfl rfl fun hsink hcount hwrite => ⟨hsink, hcount, hwrite⟩
  | applySettings | updateConnection | updateForgotten | acknowledgeConnection | credit =>
    exact h.of_sublist rfl (List.Sublist.refl _)
  | receiveFrame hreceiving hdata =>
    refine h.of_sublist rfl ?_
    simp only [marks, inFlight, hreceiving, hdata]
    exact List.Sublist.refl _
  | pushFrame hreceiving hdata | skipFrame hreceiving hdata =>
    refine h.of_sublist rfl ?_
    simp only [marks, inFlight, hreceiving, hdata]
    exact List.sublist_cons_self _ _
  | flowControlError hreceiving | skipFinished hreceiving | receiveBytes hreceiving | discardBytes hreceiving =>
    refine h.of_sublist rfl ?_
    simp only [marks, inFlight, hreceiving]
    exact List.Sublist.refl _
  | moveBytes hreceiving hstream =>
    refine h.of_set hstream rfl ?_ rfl fun hsink hcount hwrite => ⟨hsink, hcount, hwrite⟩
    simp only [marks, inFlight, hreceiving]
    rfl
  | receiveEnd hreceiving hstream => exact h.of_receiveEnd hreceiving hstream

end Ordered

/-! ## The windows of the streams -/

/-- What a stream has of its window on its two ends: the bytes that are free, that are about to be sent, that have not been
read, and that have not been acknowledged. -/
def inner (stream : Http2Stream) : Int :=
  stream.bytesLeftInWriteWindow + stream.byteCount + stream.toWrite + stream.readBuffer + stream.unacknowledgedBytesRead

/-- What the sender has not been told of its window yet. -/
def due (s : Http2Connection) (i : Nat) : Int :=
  (if s.settings.isSome then (s.initialWindowSize : Int) - DEFAULT_INITIAL_WINDOW_SIZE else 0) +
    if i ∈ s.streamsToNotify then s.delta else 0

/-- What is on the way between the two ends of a stream. -/
def onWay (s : Http2Connection) (i : Nat) : Nat :=
  total (DataFrame.forStream i) s.inFlight + total (WindowUpdate.forStream i) s.updates

/-- Both ends still use the stream, and it was not pushed. -/
def Intact (stream : Http2Stream) : Prop :=
  stream.gaveUp = false ∧ stream.forgotten = false ∧ stream.closed = false ∧ stream.removed = false ∧ stream.pushed = false

/-- What the sender knows of the receiver's settings. -/
structure Announced (s : Http2Connection) : Prop where
  least : DEFAULT_INITIAL_WINDOW_SIZE ≤ s.initialWindowSize
  pending : ∀ n, s.settings = some n →
    n = s.initialWindowSize ∧ s.peerInitialWindowSize = DEFAULT_INITIAL_WINDOW_SIZE ∧ s.streamsToNotify = []
  applied : s.settings = none → s.peerInitialWindowSize = s.initialWindowSize ∧
    s.delta = (s.initialWindowSize : Int) - DEFAULT_INITIAL_WINDOW_SIZE
  nodup : s.streamsToNotify.Nodup
  valid : ∀ i ∈ s.streamsToNotify, i < s.streams.length
  updates : ∀ update ∈ s.updates, ∀ i, update.streamId = some i → i < s.streams.length

/-- The window of a stream that both ends use is all there; of any other stream there is no more than that. -/
structure Accounted (s : Http2Connection) : Prop where
  window : ∀ (i : Nat) (stream : Http2Stream), s.streams[i]? = some stream → 0 ≤ stream.bytesLeftInWriteWindow
  le : ∀ (i : Nat) (stream : Http2Stream), s.streams[i]? = some stream →
    inner stream + s.onWay i + s.due i ≤ s.initialWindowSize
  eq : ∀ (i : Nat) (stream : Http2Stream), s.streams[i]? = some stream → Intact stream →
    inner stream + s.onWay i + s.due i = s.initialWindowSize

namespace Announced

theorem due_nonneg (h : Announced s) (i : Nat) : 0 ≤ s.due i := by
  have hleast := h.least
  have hdelta : i ∈ s.streamsToNotify → 0 ≤ s.delta := by
    intro hi
    cases hsettings : s.settings with
    | none =>
      have := (h.applied hsettings).2
      omega
    | some n =>
      rw [(h.pending n hsettings).2.2] at hi
      exact absurd hi List.not_mem_nil
  rw [due]
  refine Int.add_nonneg ?_ ?_
  · split <;> omega
  · split
    · rename_i hi
      exact hdelta hi
    · exact Int.le_refl _

/-- A step that leaves the settings alone. -/
theorem of_same (h : Announced s) (hinit : s'.initialWindowSize = s.initialWindowSize) (hsettings : s'.settings = s.settings)
    (hpeer : s'.peerInitialWindowSize = s.peerInitialWindowSize) (hdelta : s'.delta = s.delta)
    (hnotify : s'.streamsToNotify = s.streamsToNotify) (hlength : s.streams.length ≤ s'.streams.length)
    (hupdates : ∀ update ∈ s'.updates, ∀ i, update.streamId = some i → i < s.streams.length) : Announced s' where
  least := hinit ▸ h.least
  pending := by
    rw [hsettings, hinit, hpeer, hnotify]
    exact h.pending
  applied := by
    rw [hsettings, hinit, hpeer, hdelta]
    exact h.applied
  nodup := hnotify ▸ h.nodup
  valid i hi := Nat.lt_of_lt_of_le (h.valid i (hnotify ▸ hi)) hlength
  updates update hu i hi := Nat.lt_of_lt_of_le (hupdates update hu i hi) hlength

/-- A stream changes. -/
theorem of_set {x : Http2Stream} (h : Announced s) (hinit : s'.initialWindowSize = s.initialWindowSize)
    (hsettings : s'.settings = s.settings) (hpeer : s'.peerInitialWindowSize = s.peerInitialWindowSize)
    (hdelta : s'.delta = s.delta) (hnotify : s'.streamsToNotify = s.streamsToNotify)
    (hset : s'.streams = s.streams.set i x) (hupdates : s'.updates = s.updates) : Announced s' :=
  h.of_same hinit hsettings hpeer hdelta hnotify (by rw [hset, List.length_set]) (hupdates ▸ h.updates)

end Announced

theorem mem_known : i ∈ s.known ↔ ∃ stream, s.streams[i]? = some stream ∧ stream.forgotten = false := by
  rw [known, List.mem_filter, List.mem_range]
  constructor
  · rintro ⟨hlt, hknown⟩
    rw [List.getElem?_eq_getElem hlt] at hknown
    exact ⟨_, List.getElem?_eq_getElem hlt, by simpa using hknown⟩
  · rintro ⟨stream, hget, hforgotten⟩
    refine ⟨(List.getElem?_eq_some_iff.mp hget).1, ?_⟩
    rw [hget]
    simp [hforgotten]

/-- Every step keeps what the sender knows right. -/
theorem Announced.step (h : Announced s) (hstep : Step s a s') : Announced s' := by
  have hlt : ∀ {i : Nat} {stream : Http2Stream}, s.streams[i]? = some stream → i < s.streams.length :=
    fun hget => (List.getElem?_eq_some_iff.mp hget).1
  have hrest : ∀ {update : WindowUpdate} {rest : List WindowUpdate}, s.updates = update :: rest →
      ∀ u ∈ rest, ∀ i, u.streamId = some i → i < s.streams.length :=
    fun hupdates u hu => h.updates u (hupdates ▸ List.mem_cons_of_mem _ hu)
  cases hstep with
  | newStream =>
    refine h.of_same rfl rfl rfl rfl rfl ?_ h.updates
    rw [List.length_append]
    exact Nat.le_add_right _ _
  | emitFrame | takeWindow | writeData | closeSink | giveUp | forget | moveBytes | receiveEnd | readBytes | closeSource
  | reset | removeStream => exact h.of_set rfl rfl rfl rfl rfl rfl rfl
  | receiveFrame | pushFrame | skipFrame | flowControlError | skipFinished | receiveBytes | discardBytes | credit =>
    exact h.of_same rfl rfl rfl rfl rfl (Nat.le_refl _) h.updates
  | updateConnection hupdates | updateForgotten hupdates =>
    exact h.of_same rfl rfl rfl rfl rfl (Nat.le_refl _) (hrest hupdates)
  | updateStream hupdates =>
    refine h.of_same rfl rfl rfl rfl rfl ?_ (hrest hupdates)
    exact Nat.le_of_eq List.length_set.symm
  | acknowledge hstream =>
    refine h.of_same rfl rfl rfl rfl rfl (Nat.le_of_eq List.length_set.symm) fun u hu i hi => ?_
    rcases List.mem_append.mp hu with hu | hu
    · exact h.updates u hu i hi
    · obtain rfl := List.mem_singleton.mp hu
      obtain rfl := Option.some.inj hi
      exact hlt hstream
  | acknowledgeConnection =>
    refine h.of_same rfl rfl rfl rfl rfl (Nat.le_refl _) fun u hu i hi => ?_
    rcases List.mem_append.mp hu with hu | hu
    · exact h.updates u hu i hi
    · obtain rfl := List.mem_singleton.mp hu
      cases hi
  | @applySettings n hsettings =>
    obtain ⟨rfl, hpeer, -⟩ := h.pending n hsettings
    refine ⟨h.least, nofun, fun _ => ⟨rfl, by rw [hpeer]⟩, ?_, fun i hi => ?_, h.updates⟩
    · dsimp only
      split
      · exact List.nodup_range.filter _
      · exact List.nodup_nil
    · dsimp only at hi
      split at hi
      · obtain ⟨stream, hget, -⟩ := mem_known.mp hi
        exact hlt hget
      · exact absurd hi List.not_mem_nil
  | @notifyStream i rest stream hnotify hstream =>
    have hnodup := h.nodup
    rw [hnotify] at hnodup
    refine ⟨h.least, fun n hn => ?_, h.applied, (List.nodup_cons.mp hnodup).2, fun j hj => ?_, fun u hu j hj => ?_⟩
    · have := (h.pending n hn).2.2
      rw [hnotify] at this
      cases this
    · refine Nat.lt_of_lt_of_le (h.valid j ?_) (Nat.le_of_eq List.length_set.symm)
      rw [hnotify]
      exact List.mem_cons_of_mem _ hj
    · exact Nat.lt_of_lt_of_le (h.updates u hu j hj) (Nat.le_of_eq List.length_set.symm)

/-! ### The steps of a stream -/

/-- What is left of a window besides the two ends. -/
def outer (s : Http2Connection) (i : Nat) : Int := s.onWay i + s.due i

/-- Only the frames, the updates and the settings matter. -/
theorem outer_congr (hinFlight : s'.inFlight = s.inFlight) (hupdates : s'.updates = s.updates)
    (hinit : s'.initialWindowSize = s.initialWindowSize) (hsettings : s'.settings = s.settings) (hdelta : s'.delta = s.delta)
    (hnotify : s'.streamsToNotify = s.streamsToNotify) : s'.outer = s.outer := by
  funext i
  rw [outer, outer, onWay, onWay, due, due, hinFlight, hupdates, hinit, hsettings, hdelta, hnotify]

/-- A frame is put on the wire. -/
theorem outer_append {length : Nat} {inFinished : Bool} (hdata : s'.data = s.data ++ [⟨i, length, inFinished⟩])
    (hreceiving : s'.receiving = s.receiving) (hupdates : s'.updates = s.updates)
    (hinit : s'.initialWindowSize = s.initialWindowSize) (hsettings : s'.settings = s.settings) (hdelta : s'.delta = s.delta)
    (hnotify : s'.streamsToNotify = s.streamsToNotify) (j : Nat) :
    s'.outer j = s.outer j + if i = j then (length : Int) else 0 := by
  rw [outer, outer, onWay, onWay, due, due, inFlight_append hdata hreceiving, hupdates, hinit, hsettings, hdelta, hnotify]
  simp only [total_append, total_cons, total_nil, DataFrame.forStream]
  split <;> omega

/-- A window update is put on the wire. -/
theorem outer_update {increment : Nat} (hupdates : s'.updates = s.updates ++ [⟨some i, increment⟩])
    (hinFlight : s'.inFlight = s.inFlight) (hinit : s'.initialWindowSize = s.initialWindowSize)
    (hsettings : s'.settings = s.settings) (hdelta : s'.delta = s.delta) (hnotify : s'.streamsToNotify = s.streamsToNotify)
    (j : Nat) : s'.outer j = s.outer j + if i = j then (increment : Int) else 0 := by
  rw [outer, outer, onWay, onWay, due, due, hinFlight, hupdates, hinit, hsettings, hdelta, hnotify]
  simp only [total_append, total_cons, total_nil, WindowUpdate.forStream, Option.some.injEq]
  split <;> omega

/-- The thread that reads passes bytes of the frame in hand on. -/
theorem outer_receiving {receiving receiving' : Receiving} (hreceiving : s.receiving = some receiving)
    (hreceiving' : s'.receiving = some receiving') (hid : receiving'.streamId = receiving.streamId) (hdata : s'.data = s.data)
    (hupdates : s'.updates = s.updates) (hinit : s'.initialWindowSize = s.initialWindowSize)
    (hsettings : s'.settings = s.settings) (hdelta : s'.delta = s.delta) (hnotify : s'.streamsToNotify = s.streamsToNotify)
    (j : Nat) : s'.outer j = s.outer j + if receiving.streamId = j then
      ((receiving'.byteCount + receiving'.receiveBuffer : Nat) : Int) - (receiving.byteCount + receiving.receiveBuffer : Nat)
      else 0 := by
  rw [outer, outer, onWay, onWay, due, due, inFlight_of_some hreceiving, inFlight_of_some hreceiving', hdata, hupdates, hinit,
    hsettings, hdelta, hnotify]
  simp only [total_cons, DataFrame.forStream, hid]
  split <;> omega

/-- What the sender has been told but some streams have not is never negative. -/
theorem Announced.delta_nonneg (h : Announced s) {rest : List Nat} (hnotify : s.streamsToNotify = i :: rest) : 0 ≤ s.delta := by
  have hleast := h.least
  cases hsettings : s.settings with
  | none =>
    have := (h.applied hsettings).2
    omega
  | some n =>
    have := (h.pending n hsettings).2.2
    rw [hnotify] at this
    cases this

/-- A new stream has its whole window, or is going to. -/
theorem Announced.newStream (h : Announced s) (hordered : Ordered s) (pushed : Bool) :
    inner (Http2Stream.new pushed s.peerInitialWindowSize) + s.onWay s.streams.length + s.due s.streams.length =
      s.initialWindowSize := by
  have hframes : total (DataFrame.forStream s.streams.length) s.inFlight = 0 := total_eq_zero fun frame hframe => by
    have hlt := hordered.valid _ (List.mem_map_of_mem hframe)
    exact if_neg (Nat.ne_of_lt hlt)
  have hupdates : total (WindowUpdate.forStream s.streams.length) s.updates = 0 := total_eq_zero fun update hu => by
    refine if_neg fun hid => ?_
    exact Nat.lt_irrefl _ (h.updates update hu _ hid)
  have hnotify : s.streams.length ∉ s.streamsToNotify := fun hmem => Nat.lt_irrefl _ (h.valid _ hmem)
  have hleast := h.least
  rw [onWay, hframes, hupdates, due, if_neg hnotify]
  cases hsettings : s.settings with
  | none =>
    have := (h.applied hsettings).1
    simp only [inner, Http2Stream.new, Option.isSome_none, Bool.false_eq_true, if_false]
    omega
  | some n =>
    have := (h.pending n hsettings).2.1
    simp only [inner, Http2Stream.new, Option.isSome_some, if_true]
    omega

/-- The settings are applied: the streams that the sender knows are still to be told. -/
theorem Announced.applySettings (h : Announced s) {n : Nat} (hsettings : s.settings = some n)
    (hget : s.streams[i]? = some stream) :
    let t := { s with
      settings := none
      peerInitialWindowSize := n
      delta := n - s.peerInitialWindowSize
      streamsToNotify := if (n : Int) - s.peerInitialWindowSize ≠ 0 then s.known else [] }
    t.outer i ≤ s.outer i ∧ (Intact stream → t.outer i = s.outer i) := by
  obtain ⟨rfl, hpeer, hnotify⟩ := h.pending n hsettings
  have hleast := h.least
  simp only [outer, onWay, inFlight, due, hsettings, hpeer, hnotify, Option.isSome_some, Option.isSome_none,
    Bool.false_eq_true, if_true, if_false, List.not_mem_nil]
  by_cases hforgotten : stream.forgotten = true
  · refine ⟨by split <;> omega, fun hintact => ?_⟩
    exact absurd (hforgotten.symm.trans hintact.2.1) (by decide)
  · have hmem : i ∈ s.known := mem_known.mpr ⟨stream, hget, Bool.eq_false_iff.mpr hforgotten⟩
    by_cases hzero : (s.initialWindowSize : Int) - DEFAULT_INITIAL_WINDOW_SIZE = 0
    · have hnone : (if (s.initialWindowSize : Int) - DEFAULT_INITIAL_WINDOW_SIZE ≠ 0 then s.known else []) = [] :=
        if_neg (not_not.mpr hzero)
      rw [hnone, if_neg List.not_mem_nil]
      exact ⟨by omega, fun _ => by omega⟩
    · simp only [hzero, ne_eq, not_false_eq_true, if_true, hmem]
      exact ⟨by omega, fun _ => by omega⟩

namespace Accounted

/-- The streams stay as they are. -/
theorem of_outer (h : Accounted s) (hinit : s'.initialWindowSize = s.initialWindowSize) (hstreams : s'.streams = s.streams)
    (houter : ∀ i stream, s.streams[i]? = some stream →
      s'.outer i ≤ s.outer i ∧ (Intact stream → s'.outer i = s.outer i)) : Accounted s' where
  window i stream hget := h.window i stream (hstreams ▸ hget)
  le i stream hget := by
    rw [hstreams] at hget
    have hle := h.le i stream hget
    have := (houter i stream hget).1
    unfold outer at this
    rw [hinit]
    omega
  eq i stream hget hintact := by
    rw [hstreams] at hget
    have heq := h.eq i stream hget hintact
    have := (houter i stream hget).2 hintact
    unfold outer at this
    rw [hinit]
    omega

/-- Nothing of it changes. -/
theorem of_outer_eq (h : Accounted s) (hinit : s'.initialWindowSize = s.initialWindowSize) (hstreams : s'.streams = s.streams)
    (houter : s'.outer = s.outer) : Accounted s' :=
  h.of_outer hinit hstreams fun i _ _ => ⟨Int.le_of_eq (congrFun houter i), fun _ => congrFun houter i⟩

/-- A stream changes, and so does what is besides its two ends. -/
theorem of_set {x : Http2Stream} {k : Int} (h : Accounted s) (hstream : s.streams[i]? = some stream)
    (hinit : s'.initialWindowSize = s.initialWindowSize) (hset : s'.streams = s.streams.set i x)
    (houter : ∀ j, s'.outer j = s.outer j + if i = j then k else 0) (hwindow : 0 ≤ x.bytesLeftInWriteWindow)
    (hle : inner x + k ≤ inner stream) (heq : Intact x → Intact stream ∧ inner x + k = inner stream) : Accounted s' := by
  have hi := houter i
  rw [if_pos rfl] at hi
  have hothers : ∀ j ≠ i, s'.outer j = s.outer j := fun j hne => by rw [houter j, if_neg (Ne.symm hne), Int.add_zero]
  unfold outer at hi hothers
  refine ⟨fun j stream' hget => ?_, fun j stream' hget => ?_, fun j stream' hget hintact => ?_⟩
  · rcases getElem?_setStream (hset ▸ hget) with ⟨rfl, rfl⟩ | ⟨-, hget⟩
    · exact hwindow
    · exact h.window j stream' hget
  · rw [hinit]
    rcases getElem?_setStream (hset ▸ hget) with ⟨rfl, rfl⟩ | ⟨hne, hget⟩
    · have hsum := h.le j stream hstream
      omega
    · have hother := hothers j hne
      have hsum := h.le j stream' hget
      omega
  · rw [hinit]
    rcases getElem?_setStream (hset ▸ hget) with ⟨rfl, rfl⟩ | ⟨hne, hget⟩
    · obtain ⟨hintact, heq⟩ := heq hintact
      have hsum := h.eq j stream hstream hintact
      omega
    · have hother := hothers j hne
      have hsum := h.eq j stream' hget hintact
      omega

/-- A stream changes on its own. -/
theorem of_inner {x : Http2Stream} (h : Accounted s) (hstream : s.streams[i]? = some stream)
    (hinit : s'.initialWindowSize = s.initialWindowSize) (hset : s'.streams = s.streams.set i x)
    (houter : s'.outer = s.outer) (hwindow : 0 ≤ x.bytesLeftInWriteWindow) (hle : inner x ≤ inner stream)
    (heq : Intact x → Intact stream ∧ inner x = inner stream) : Accounted s' :=
  h.of_set hstream hinit hset (fun j => by rw [houter, ite_self, Int.add_zero]) hwindow (by omega) fun hintact => by
    rw [Int.add_zero]
    exact heq hintact

/-- The bytes of a stream move. -/
theorem of_moved {x : Http2Stream} {k : Int} (h : Accounted s) (hstream : s.streams[i]? = some stream)
    (hinit : s'.initialWindowSize = s.initialWindowSize) (hset : s'.streams = s.streams.set i x)
    (houter : ∀ j, s'.outer j = s.outer j + if i = j then k else 0) (hwindow : 0 ≤ x.bytesLeftInWriteWindow)
    (hsum : inner x + k = inner stream) (hintact : Intact x → Intact stream) : Accounted s' :=
  h.of_set hstream hinit hset houter hwindow (Int.le_of_eq hsum) fun hx => ⟨hintact hx, hsum⟩

/-- They move between its two ends. -/
theorem of_kept {x : Http2Stream} (h : Accounted s) (hstream : s.streams[i]? = some stream)
    (hinit : s'.initialWindowSize = s.initialWindowSize) (hset : s'.streams = s.streams.set i x) (houter : s'.outer = s.outer)
    (hwindow : 0 ≤ x.bytesLeftInWriteWindow) (hsum : inner x = inner stream) (hintact : Intact x → Intact stream) :
    Accounted s' :=
  h.of_inner hstream hinit hset houter hwindow (Int.le_of_eq hsum) fun hx => ⟨hintact hx, hsum⟩

/-- The bytes of the frame in hand are at most those in flight. -/
theorem forStream_le {receiving : Receiving} (hreceiving : s.receiving = some receiving) :
    receiving.byteCount + receiving.receiveBuffer ≤ s.onWay receiving.streamId := by
  simp only [onWay, inFlight_of_some hreceiving, total_cons, DataFrame.forStream, if_true]
  omega

/-- The receiver has room for the frame in hand. -/
theorem no_error (h : Accounted s) (hknown : Announced s) {receiving : Receiving} (hreceiving : s.receiving = some receiving)
    (hstream : s.streams[receiving.streamId]? = some stream) :
    receiving.byteCount + stream.readBuffer ≤ s.initialWindowSize := by
  have hle := h.le _ stream hstream
  have hwindow := h.window _ stream hstream
  have hdue := hknown.due_nonneg receiving.streamId
  have hway := forStream_le hreceiving
  simp only [inner] at hle
  omega

/-- Every step keeps the windows of the streams. -/
theorem step (h : Accounted s) (hknown : Announced s) (hordered : Ordered s) (hstep : Step s a s') : Accounted s' := by
  cases hstep with
  | @newStream pushed =>
    have hwindow : ∀ i stream, (s.streams ++ [Http2Stream.new pushed s.peerInitialWindowSize])[i]? = some stream →
        s.streams[i]? = some stream ∨
          (stream = .new pushed s.peerInitialWindowSize ∧ inner stream + s.onWay i + s.due i = s.initialWindowSize) := by
      intro i stream hget
      rcases getElem?_newStream hget with ⟨rfl, rfl⟩ | hget
      · exact .inr ⟨rfl, hknown.newStream hordered pushed⟩
      · exact .inl hget
    refine ⟨fun i stream hget => ?_, fun i stream hget => ?_, fun i stream hget hintact => ?_⟩
    · rcases hwindow i stream hget with hget | ⟨rfl, -⟩
      · exact h.window i stream hget
      · exact Int.natCast_nonneg _
    · rcases hwindow i stream hget with hget | ⟨-, hsum⟩
      · exact h.le i stream hget
      · exact Int.le_of_eq hsum
    · rcases hwindow i stream hget with hget | ⟨-, hsum⟩
      · exact h.eq i stream hget hintact
      · exact hsum
  | @emitFrame i _ toWrite stream _ _ hstream hle hcount =>
    have hwindow := h.window i stream hstream
    refine h.of_kept hstream rfl rfl (outer_congr rfl rfl rfl rfl rfl rfl) (by dsimp only; omega) ?_ id
    simp only [inner, hcount]
    omega
  | @takeWindow i _ toWrite stream hstream hle hcount hpos hzero =>
    refine h.of_kept hstream rfl rfl (outer_congr rfl rfl rfl rfl rfl rfl) (h.window i stream hstream) ?_ id
    simp only [inner, hzero]
    omega
  | @writeData i stream inFinished hstream =>
    refine h.of_moved hstream rfl rfl (outer_append rfl rfl rfl rfl rfl rfl rfl) (h.window i stream hstream) ?_ id
    simp only [inner]
    omega
  | @closeSink i stream hstream =>
    exact h.of_moved hstream rfl rfl (outer_append rfl rfl rfl rfl rfl rfl rfl) (h.window i stream hstream) (Int.add_zero _) id
  | @giveUp i stream hstream =>
    refine h.of_inner hstream rfl rfl (outer_congr rfl rfl rfl rfl rfl rfl) (h.window i stream hstream) ?_
      fun hintact => Bool.noConfusion hintact.1
    simp only [inner]
    omega
  | @forget i stream hstream =>
    exact h.of_inner hstream rfl rfl (outer_congr rfl rfl rfl rfl rfl rfl) (h.window i stream hstream) (Int.le_refl _)
      fun hintact => Bool.noConfusion hintact.2.1
  | @reset i stream hstream =>
    exact h.of_kept hstream rfl rfl (outer_congr rfl rfl rfl rfl rfl rfl) (h.window i stream hstream) rfl id
  | @removeStream i stream hstream =>
    exact h.of_inner hstream rfl rfl (outer_congr rfl rfl rfl rfl rfl rfl) (h.window i stream hstream) (Int.le_refl _)
      fun hintact => Bool.noConfusion hintact.2.2.2.1
  | @closeSource i stream hstream =>
    refine h.of_inner hstream rfl rfl (outer_congr rfl rfl rfl rfl rfl rfl) (h.window i stream hstream) ?_
      fun hintact => Bool.noConfusion hintact.2.2.1
    simp only [inner]
    omega
  | @readBytes i read timedOut stream hstream hread =>
    refine h.of_kept hstream rfl rfl (outer_congr rfl rfl rfl rfl rfl rfl) (h.window i stream hstream) ?_ id
    simp only [inner]
    omega
  | applySettings hsettings => exact h.of_outer rfl rfl fun i stream hget => hknown.applySettings hsettings hget
  | @notifyStream i rest stream hnotify hstream =>
    have hdelta := hknown.delta_nonneg hnotify
    have hwindow := h.window i stream hstream
    have hnodup := hknown.nodup
    rw [hnotify] at hnodup
    have hnot : i ∉ rest := (List.nodup_cons.mp hnodup).1
    refine h.of_moved (k := -s.delta) hstream rfl rfl (fun j => ?_) (by dsimp only; omega) ?_ id
    · simp only [outer, onWay, inFlight, due, setStream, hnotify, List.mem_cons]
      by_cases hij : i = j
      · subst hij
        simp only [hnot, true_or, if_true, if_false]
        omega
      · simp only [Ne.symm hij, false_or, hij, if_false]
        omega
    · simp only [inner]
      omega
  | updateConnection hupdates =>
    refine h.of_outer rfl rfl fun i stream hget => ?_
    simp only [outer, onWay, inFlight, due, hupdates, total_cons, WindowUpdate.forStream, reduceCtorEq, if_false]
    exact ⟨by omega, fun _ => by omega⟩
  | @updateStream i increment rest stream hupdates hstream =>
    have hwindow := h.window i stream hstream
    refine h.of_moved (k := -increment) hstream rfl rfl (fun j => ?_) (by dsimp only; omega) ?_ id
    · simp only [outer, onWay, inFlight, due, setStream, hupdates, total_cons, WindowUpdate.forStream, Option.some.injEq]
      by_cases hij : i = j
      · simp only [hij, if_true]
        omega
      · simp only [hij, if_false]
        omega
    · simp only [inner]
      omega
  | @updateForgotten i increment rest stream hupdates hstream hforgotten =>
    refine h.of_outer rfl rfl fun j stream' hget => ?_
    simp only [outer, onWay, inFlight, due, hupdates, total_cons, WindowUpdate.forStream, Option.some.injEq]
    by_cases hij : i = j
    · subst hij
      obtain rfl := Option.some.inj (hstream.symm.trans hget)
      refine ⟨by omega, fun hintact => ?_⟩
      exact absurd (hforgotten.symm.trans hintact.2.1) (by decide)
    · simp only [hij, if_false]
      exact ⟨by omega, fun _ => by omega⟩
  | receiveFrame hreceiving hdata =>
    refine h.of_outer_eq rfl rfl (outer_congr ?_ rfl rfl rfl rfl rfl)
    rw [inFlight_of_some rfl, inFlight_of_none hreceiving, hdata]
    rfl
  | @pushFrame frame rest stream hreceiving hdata hstream hpushed =>
    refine h.of_outer rfl rfl fun i stream' hget => ?_
    simp only [outer, onWay, inFlight, due, hdata, total_append, total_cons, DataFrame.forStream]
    by_cases hid : frame.streamId = i
    · subst hid
      obtain rfl := Option.some.inj (hstream.symm.trans hget)
      refine ⟨by omega, fun hintact => ?_⟩
      exact absurd (hpushed.symm.trans hintact.2.2.2.2) (by decide)
    · simp only [hid, if_false]
      exact ⟨by omega, fun _ => by omega⟩
  | @skipFrame frame rest stream hreceiving hdata hstream hremoved =>
    refine h.of_outer rfl rfl fun i stream' hget => ?_
    simp only [outer, onWay, inFlight, due, hdata, total_append, total_cons, DataFrame.forStream]
    by_cases hid : frame.streamId = i
    · subst hid
      obtain rfl := Option.some.inj (hstream.symm.trans hget)
      refine ⟨by omega, fun hintact => ?_⟩
      exact absurd (hremoved.symm.trans hintact.2.2.2.1) (by decide)
    · simp only [hid, if_false]
      exact ⟨by omega, fun _ => by omega⟩
  | flowControlError hreceiving hstream hzero herror =>
    have hle := h.no_error hknown hreceiving hstream
    omega
  | skipFinished hreceiving hstream hzero hpos hfinished =>
    exact absurd hfinished (hordered.not_finished hreceiving hstream)
  | receiveBytes hreceiving hstream hzero hread hle =>
    refine h.of_outer_eq rfl rfl (outer_congr ?_ rfl rfl rfl rfl rfl)
    rw [inFlight_of_some rfl, inFlight_of_some hreceiving, Nat.sub_add_cancel hle, hzero]
    rfl
  | @discardBytes receiving stream hreceiving hstream hpos hclosed =>
    refine h.of_outer rfl rfl fun i stream' hget => ?_
    simp only [outer, onWay, inFlight, due, hreceiving, Option.map_some, Option.toList_some, total_append, total_cons, total_nil,
      DataFrame.forStream]
    by_cases hid : receiving.streamId = i
    · subst hid
      obtain rfl := Option.some.inj (hstream.symm.trans hget)
      refine ⟨by simp only [if_true]; omega, fun hintact => ?_⟩
      exact absurd (hclosed.symm.trans hintact.2.2.1) (by decide)
    · simp only [hid, if_false]
      exact ⟨Int.le_refl _, fun _ => trivial⟩
  | @moveBytes receiving stream hreceiving hstream =>
    refine h.of_moved hstream rfl rfl (outer_receiving hreceiving rfl rfl rfl rfl rfl rfl rfl rfl) (h.window _ stream hstream) ?_ id
    simp only [inner]
    omega
  | @receiveEnd receiving stream hreceiving hstream hcount hbuffer =>
    refine h.of_kept hstream rfl rfl ?_ (h.window _ stream hstream) rfl id
    funext j
    simp only [outer, onWay, inFlight, due, setStream, hreceiving, hcount, hbuffer, Option.map_some, Option.map_none,
      Option.toList_some, Option.toList_none, List.nil_append, total_append, total_cons, total_nil, DataFrame.forStream, ite_self,
      Nat.zero_add]
  | @acknowledge i read timedOut stream hstream hread =>
    refine h.of_moved hstream rfl rfl (outer_update rfl rfl rfl rfl rfl rfl) (h.window i stream hstream) ?_ id
    simp only [inner]
    omega
  | acknowledgeConnection =>
    refine h.of_outer rfl rfl fun i stream hget => ?_
    simp only [outer, onWay, inFlight, due, total_append, total_cons, total_nil, WindowUpdate.forStream, reduceCtorEq, if_false]
    exact ⟨by omega, fun _ => by omega⟩
  | credit => exact h.of_outer_eq rfl rfl (outer_congr rfl rfl rfl rfl rfl rfl)

end Accounted

end Http2Connection

end Okhttp3

end LibraLive

import LibraLive.Lemmas.FlowControlWindows

/-!
# What flow control promises

Whatever the threads of the two ends do, in any order: the receiver never sees a flow control error and never skips a byte
(`no_flow_control_error`), the windows are conserved (`windows_conserved`), and once nothing more is written all that was
written gets through, and leaves the windows more than half open, unless too much of the window of the connection went to
pushed streams or to reads that timed out (`writers_go_on`): those bytes are never acknowledged.
-/

namespace LibraLive

namespace Okhttp3

open SizedTable

namespace Http2Connection

variable {client : Bool} {s s' : Http2Connection} {a : Act} {i : Nat} {stream : Http2Stream}

/-! ## What every step keeps -/

/-- Half a window is acknowledged at once, and nothing is left in a source that was closed. -/
structure Prompt (s : Http2Connection) : Prop where
  connection : s.unacknowledgedBytesRead < s.initialWindowSize / 2
  stream : ∀ (i : Nat) (stream : Http2Stream), s.streams[i]? = some stream → stream.errorCode = false →
    stream.unacknowledgedBytesRead < s.initialWindowSize / 2
  closed : ∀ (i : Nat) (stream : Http2Stream), s.streams[i]? = some stream → stream.closed = true → stream.readBuffer = 0
  updates : ∀ update ∈ s.updates, 0 < update.windowSizeIncrement

namespace Prompt

/-- The streams stay as they are. -/
theorem of_same (h : Prompt s) (hinit : s'.initialWindowSize = s.initialWindowSize) (hstreams : s'.streams = s.streams)
    (hconnection : s'.unacknowledgedBytesRead < s.initialWindowSize / 2)
    (hupdates : ∀ update ∈ s'.updates, 0 < update.windowSizeIncrement) : Prompt s' where
  connection := hinit ▸ hconnection
  stream i stream hget := hinit ▸ h.stream i stream (hstreams ▸ hget)
  closed i stream hget := h.closed i stream (hstreams ▸ hget)
  updates := hupdates

/-- A stream changes. -/
theorem of_set {x : Http2Stream} (h : Prompt s) (hinit : s'.initialWindowSize = s.initialWindowSize)
    (hset : s'.streams = s.streams.set i x) (hconnection : s'.unacknowledgedBytesRead = s.unacknowledgedBytesRead)
    (hupdates : ∀ update ∈ s'.updates, 0 < update.windowSizeIncrement)
    (hstream : x.errorCode = false → x.unacknowledgedBytesRead < s.initialWindowSize / 2)
    (hclosed : x.closed = true → x.readBuffer = 0) : Prompt s' where
  connection := by
    rw [hconnection, hinit]
    exact h.connection
  stream j stream' hget := by
    rw [hinit]
    rcases getElem?_setStream (hset ▸ hget) with ⟨-, rfl⟩ | ⟨-, hget⟩
    · exact hstream
    · exact h.stream j stream' hget
  closed j stream' hget := by
    rcases getElem?_setStream (hset ▸ hget) with ⟨-, rfl⟩ | ⟨-, hget⟩
    · exact hclosed
    · exact h.closed j stream' hget
  updates := hupdates

/-- What the receiver has of a stream does not change. -/
theorem of_sender {x : Http2Stream} (h : Prompt s) (hstream : s.streams[i]? = some stream)
    (hinit : s'.initialWindowSize = s.initialWindowSize) (hset : s'.streams = s.streams.set i x)
    (hconnection : s'.unacknowledgedBytesRead = s.unacknowledgedBytesRead)
    (hupdates : ∀ update ∈ s'.updates, 0 < update.windowSizeIncrement)
    (hsource : (x.errorCode, x.unacknowledgedBytesRead, x.closed, x.readBuffer) =
      (stream.errorCode, stream.unacknowledgedBytesRead, stream.closed, stream.readBuffer)) : Prompt s' := by
  injection hsource with herror hsource
  injection hsource with hunacknowledged hsource
  injection hsource with hclosed hbuffer
  refine h.of_set hinit hset hconnection hupdates ?_ ?_
  · rw [herror, hunacknowledged]
    exact h.stream i stream hstream
  · rw [hclosed, hbuffer]
    exact h.closed i stream hstream

theorem step (h : Prompt s) (hleast : DEFAULT_INITIAL_WINDOW_SIZE ≤ s.initialWindowSize) (hstep : Step s a s') : Prompt s' := by
  have hhalf : 0 < s.initialWindowSize / 2 :=
    Nat.div_pos (Nat.le_trans (by decide) hleast) (by decide)
  have hrest : ∀ {update : WindowUpdate} {rest : List WindowUpdate}, s.updates = update :: rest →
      ∀ u ∈ rest, 0 < u.windowSizeIncrement :=
    fun hupdates u hu => h.updates u (hupdates ▸ List.mem_cons_of_mem _ hu)
  cases hstep with
  | newStream =>
    refine ⟨h.connection, fun i stream hget => ?_, fun i stream hget => ?_, h.updates⟩
    · rcases getElem?_newStream hget with ⟨-, rfl⟩ | hget
      · exact fun _ => hhalf
      · exact h.stream i stream hget
    · rcases getElem?_newStream hget with ⟨-, rfl⟩ | hget
      · exact fun _ => rfl
      · exact h.closed i stream hget
  | emitFrame hstream | takeWindow hstream | writeData hstream | closeSink hstream | giveUp hstream | forget hstream
  | notifyStream _ hstream | receiveEnd _ hstream | removeStream hstream =>
    exact h.of_sender hstream rfl rfl rfl h.updates rfl
  | applySettings | receiveFrame | pushFrame | skipFrame | flowControlError | skipFinished | receiveBytes | discardBytes =>
    exact h.of_same rfl rfl h.connection h.updates
  | updateConnection hupdates | updateForgotten hupdates => exact h.of_same rfl rfl h.connection (hrest hupdates)
  | updateStream hupdates hstream => exact h.of_sender hstream rfl rfl rfl (hrest hupdates) rfl
  | @moveBytes receiving stream hreceiving hstream _ hopen =>
    refine h.of_set rfl rfl rfl h.updates (h.stream _ stream hstream) fun hclosed => ?_
    exact absurd (hopen.symm.trans hclosed) (by decide)
  | acknowledge hstream hread hpos hunacknowledged =>
    refine h.of_set rfl rfl rfl (fun u hu => ?_) (fun _ => hhalf) fun hclosed => ?_
    · rcases List.mem_append.mp hu with hu | hu
      · exact h.updates u hu
      · obtain rfl := List.mem_singleton.mp hu
        exact Nat.lt_of_lt_of_le hhalf hunacknowledged
    · exact absurd (h.closed _ _ hstream hclosed) (Nat.ne_of_gt hpos)
  | readBytes hstream hread hpos hunacknowledged =>
    refine h.of_set rfl rfl rfl h.updates hunacknowledged fun hclosed => ?_
    exact absurd (h.closed _ _ hstream hclosed) (Nat.ne_of_gt hpos)
  | @closeSource i stream hstream => exact h.of_set rfl rfl rfl h.updates (h.stream i stream hstream) fun _ => rfl
  | @reset i stream hstream => exact h.of_set rfl rfl rfl h.updates Bool.noConfusion (h.closed i stream hstream)
  | acknowledgeConnection _ hunacknowledged =>
    refine h.of_same rfl rfl hhalf fun u hu => ?_
    rcases List.mem_append.mp hu with hu | hu
    · exact h.updates u hu
    · obtain rfl := List.mem_singleton.mp hu
      exact Nat.lt_of_lt_of_le hhalf hunacknowledged
  | credit _ hunacknowledged => exact h.of_same rfl rfl hunacknowledged h.updates

end Prompt

/-- What holds of every connection. -/
structure Windows (client : Bool) (s : Http2Connection) : Prop where
  ordered : Ordered s
  announced : Announced s
  accounted : Accounted s
  prompt : Prompt s
  initial : s.initialWindowSize = okHttpInitialWindowSize client
  window : 0 ≤ s.bytesLeftInWriteWindow
  conserved : s.bytesLeftInWriteWindow + s.outstanding + s.uncredited = s.initialWindowSize
  lossless : s.lost = 0 ∧ s.flowControlError = false

/-- The only update that `start` writes is for the connection. -/
theorem eq_of_mem_new {update : WindowUpdate} (hu : update ∈ (new client).updates) :
    update = ⟨none, okHttpInitialWindowSize client - DEFAULT_INITIAL_WINDOW_SIZE⟩ := by
  cases client
  · cases hu
  · exact List.mem_singleton.mp hu

theorem not_stream_new (hget : (new client).streams[i]? = some stream) : False := Option.some_ne_none stream hget.symm

namespace Windows

theorem new (client : Bool) : Windows client (new client) where
  ordered := ⟨fun _ hmark => absurd hmark List.not_mem_nil, .nil, fun _ _ hget => (not_stream_new hget).elim,
    fun _ _ hget => (not_stream_new hget).elim⟩
  announced := by
    refine ⟨by cases client <;> decide, fun n hn => ?_, fun hnone => ?_, .nil, fun i hi => absurd hi List.not_mem_nil,
      fun update hu i hi => ?_⟩
    · obtain rfl : okHttpInitialWindowSize client = n := Option.some.inj hn
      exact ⟨rfl, rfl, rfl⟩
    · cases hnone
    · rw [eq_of_mem_new hu] at hi
      cases hi
  accounted := ⟨fun _ _ hget => (not_stream_new hget).elim, fun _ _ hget => (not_stream_new hget).elim,
    fun _ _ hget => (not_stream_new hget).elim⟩
  prompt := by
    refine ⟨by cases client <;> decide, fun _ _ hget => (not_stream_new hget).elim,
      fun _ _ hget => (not_stream_new hget).elim, fun update hu => ?_⟩
    rw [eq_of_mem_new hu]
    cases client
    · cases hu
    · decide
  initial := rfl
  window := Int.natCast_nonneg _
  conserved := by cases client <;> rfl
  lossless := ⟨rfl, rfl⟩

/-- The window of the connection does not become negative. -/
theorem window_step (h : Windows client s) (hstep : Step s a s') : 0 ≤ s'.bytesLeftInWriteWindow := by
  have hwindow := h.window
  cases hstep with
  | takeWindow hstream hle => exact Int.sub_nonneg.mpr hle
  | updateConnection => exact Int.add_nonneg hwindow (Int.natCast_nonneg _)
  | _ => exact hwindow

/-- Nothing is lost: the receiver has room for every frame, and no frame comes after the end of its stream. -/
theorem lossless_step (h : Windows client s) (hstep : Step s a s') : s'.lost = 0 ∧ s'.flowControlError = false := by
  cases hstep with
  | flowControlError hreceiving hstream hzero herror =>
    exact absurd herror (Nat.not_lt.mpr (h.accounted.no_error h.announced hreceiving hstream))
  | skipFinished hreceiving hstream hzero hpos hfinished =>
    exact absurd hfinished (h.ordered.not_finished hreceiving hstream)
  | _ => exact h.lossless

theorem step (h : Windows client s) (hstep : Step s a s') : Windows client s' := by
  obtain ⟨hinit, hsum⟩ := outstanding_step hstep
  have hlossless := h.lossless_step hstep
  refine ⟨h.ordered.step hstep, h.announced.step hstep, h.accounted.step h.announced h.ordered hstep,
    h.prompt.step h.announced.least hstep, hinit.trans h.initial, h.window_step hstep, ?_, hlossless⟩
  have hconserved := h.conserved
  have hlost := h.lossless.1
  have hlost' := hlossless.1
  omega

theorem of_reachable (h : (lts client).Reachable s) : Windows client s := by
  refine h.invariant (fun s hs => ?_) fun s a s' _ hI hstep => hI.step (step_cases hstep)
  obtain rfl : s = .new client := hs
  exact new client

end Windows

/-- The bytes of an update that are for a stream are on the way to it. -/
theorem forStream_le_onWay {update : WindowUpdate} (hu : update ∈ s.updates) (hid : update.streamId = some i) :
    update.windowSizeIncrement ≤ s.onWay i := by
  have hle : update.forStream i ≤ total (WindowUpdate.forStream i) s.updates := le_total hu
  rw [WindowUpdate.forStream, if_pos hid] at hle
  exact Nat.le_trans hle (Nat.le_add_left _ _)

/-- An update gives back no more than a window. -/
theorem Windows.increment_le (h : Windows client s) {update : WindowUpdate} (hu : update ∈ s.updates) :
    update.windowSizeIncrement ≤ s.initialWindowSize := by
  cases hid : update.streamId with
  | none =>
    have hle : update.forConnection ≤ total WindowUpdate.forConnection s.updates := le_total hu
    rw [WindowUpdate.forConnection, if_pos hid] at hle
    have hwindow := h.window
    have hconserved := h.conserved
    rw [outstanding] at hconserved
    omega
  | some i =>
    have hget := List.getElem?_eq_getElem (h.announced.updates update hu i hid)
    have hle := h.accounted.le i _ hget
    have hwindow := h.accounted.window i _ hget
    have hdue := h.announced.due_nonneg i
    have hway := forStream_le_onWay hu hid
    rw [inner] at hle
    omega

/-- Whatever the threads do, the receiver never finds more bytes than it has room for and never has to skip any, and every
window update is one that `Http2Writer.windowUpdate` accepts and `Http2Reader.readWindowUpdate` takes for what it is. -/
theorem no_flow_control_error (h : (lts client).Reachable s) : s.flowControlError = false ∧ s.lost = 0 ∧
    ∀ update ∈ s.updates, 0 < update.windowSizeIncrement ∧ update.windowSizeIncrement ≤ 0x7fffffff := by
  have hw := Windows.of_reachable h
  refine ⟨hw.lossless.2, hw.lossless.1, fun update hu => ⟨hw.prompt.updates update hu, ?_⟩⟩
  refine Nat.le_trans (hw.increment_le hu) ?_
  rw [hw.initial]
  cases client <;> decide

/-- A body of 40000 bytes is written, in three frames. -/
def writeActs : List Act :=
  [.applySettings, .newStream false, .emitFrame 0 40000 true] ++ (List.replicate 3 [.takeWindow 0 16384, .writeData 0]).flatten

/-- It is received and read. -/
def readActs : List Act :=
  ([16384, 16384, 7232].flatMap fun length => [.receiveFrame, .receiveBytes length, .moveBytes, .receiveEnd]) ++
    [.readBytes 0 40000 false]

/-- And the windows are updated. -/
def updateActs : List Act := [.updateConnectionFlowControl 0, .windowUpdate, .windowUpdate]

theorem no_flow_control_error_read : ∃ s, (lts false).Reachable s ∧ s.updates = [⟨some 0, 40000⟩] ∧
    s.flowControlError = false ∧ s.lost = 0 ∧
    ∀ update ∈ s.updates, 0 < update.windowSizeIncrement ∧ update.windowSizeIncrement ≤ 0x7fffffff := by
  have hrun : (Lts.replay step (new false) (writeActs ++ readActs)).map (·.updates) = some [⟨some 0, 40000⟩] := by decide +kernel
  obtain ⟨s, hs, hupdates⟩ := Option.map_eq_some_iff.mp hrun
  have hr : (lts false).Reachable s := Lts.replay_reachable (fun _ _ _ => id) _ (.init rfl) hs
  exact ⟨s, hr, hupdates, no_flow_control_error hr⟩

/-- The window of the connection is never negative, and it, the bytes that were taken from it and are still to be given back,
and those that never will be, are the receiver's window at all times. So is the window of each stream that both ends use, with
what is on its two ends, on the way and still to be announced; of any other stream there is never more than that. -/
theorem windows_conserved (h : (lts client).Reachable s) :
    0 ≤ s.bytesLeftInWriteWindow ∧
      s.bytesLeftInWriteWindow + s.outstanding + s.uncredited = okHttpInitialWindowSize client ∧
      ∀ (i : Nat) (stream : Http2Stream), s.streams[i]? = some stream → 0 ≤ stream.bytesLeftInWriteWindow ∧
        inner stream + s.onWay i + s.due i ≤ okHttpInitialWindowSize client ∧
        (Intact stream → inner stream + s.onWay i + s.due i = okHttpInitialWindowSize client) := by
  have hw := Windows.of_reachable h
  rw [← hw.initial]
  exact ⟨hw.window, hw.conserved, fun i stream hget =>
    ⟨hw.accounted.window i stream hget, hw.accounted.le i stream hget, hw.accounted.eq i stream hget⟩⟩

/-- A server pushes a stream and writes a body of 30000 bytes on it, and the client takes the first frame. -/
def pushActs : List Act :=
  [.newStream true, .emitFrame 0 30000 true] ++ (List.replicate 2 [.takeWindow 0 16384, .writeData 0]).flatten ++ [.receiveFrame]

theorem windows_conserved_pushed : ∃ s, (lts true).Reachable s ∧ s.data.map (·.length) = [13616] ∧ s.uncredited = 16384 ∧
    0 ≤ s.bytesLeftInWriteWindow ∧
      s.bytesLeftInWriteWindow + s.outstanding + s.uncredited = okHttpInitialWindowSize true ∧
      ∀ (i : Nat) (stream : Http2Stream), s.streams[i]? = some stream → 0 ≤ stream.bytesLeftInWriteWindow ∧
        inner stream + s.onWay i + s.due i ≤ okHttpInitialWindowSize true ∧
        (Intact stream → inner stream + s.onWay i + s.due i = okHttpInitialWindowSize true) := by
  have hrun : (Lts.replay step (new true) pushActs).map (fun s => (s.data.map (·.length), s.uncredited)) =
      some ([13616], 16384) := by decide +kernel
  obtain ⟨s, hs, hstate⟩ := Option.map_eq_some_iff.mp hrun
  obtain ⟨hdata, huncredited⟩ := Prod.mk.inj hstate
  have hr : (lts true).Reachable s := Lts.replay_reachable (fun _ _ _ => id) _ (.init rfl) hs
  exact ⟨s, hr, hdata, huncredited, windows_conserved hr⟩

/-! ## Once nothing more is written -/

/-- What the threads do about what has been written: they send it, deliver it, read it and acknowledge it. -/
def Delivers : Act → Prop
  | .takeWindow _ maxDataLength => 0 < maxDataLength
  | .writeData _ => True
  | .applySettings => True
  | .notifyStream => True
  | .windowUpdate => True
  | .receiveFrame => True
  | .receiveBytes _ => True
  | .moveBytes => True
  | .receiveEnd => True
  | .readBytes _ read _ => 0 < read
  | .updateConnectionFlowControl _ => True
  | _ => False

/-- The steps that the bytes of a stream are from being acknowledged. -/
def streamWork (stream : Http2Stream) : Nat := 11 * stream.byteCount + 10 * stream.toWrite + 4 * stream.readBuffer

def frameWork (frame : DataFrame) : Nat := 6 * frame.length + 3

def receivingWork (receiving : Receiving) : Nat := 6 * receiving.byteCount + 5 * receiving.receiveBuffer + 1

/-- The most steps that are left to take. -/
def work (s : Http2Connection) : Nat :=
  total streamWork s.streams + total frameWork s.data + total receivingWork s.receiving.toList + 2 * s.credits.length +
    s.updates.length + s.streamsToNotify.length + if s.settings.isSome then s.streams.length + 1 else 0

theorem Windows.work_lt (h : Windows client s) (hstep : Step s a s') (hdelivers : Delivers a) : s'.work < s.work := by
  have hle : ∀ {i : Nat} {stream : Http2Stream}, s.streams[i]? = some stream → streamWork stream ≤ total streamWork s.streams :=
    fun hstream => le_total (List.mem_of_getElem? hstream)
  have hcredit : ∀ {k read : Nat}, s.credits[k]? = some read → (s.credits.eraseIdx k).length + 1 = s.credits.length := by
    intro k read hread
    have hlt := (List.getElem?_eq_some_iff.mp hread).1
    rw [List.length_eraseIdx_of_lt hlt]
    omega
  have hcredits : ∀ (timedOut : Bool) (read : Nat),
      (if timedOut then s.credits else s.credits ++ [read]).length ≤ s.credits.length + 1 := by
    intro timedOut read
    cases timedOut
    · exact Nat.le_of_eq List.length_append
    · exact Nat.le_succ _
  cases hstep with
  | newStream | emitFrame | closeSink | giveUp | forget | closeSource | reset | removeStream => exact hdelivers.elim
  | takeWindow hstream hwindow hcount hpos hzero htake =>
    have hle := hle hstream
    have htake := htake hdelivers
    simp only [work, setStream, total_set hstream, List.length_set]
    simp only [streamWork] at hle ⊢
    omega
  | writeData hstream hpos =>
    have hle := hle hstream
    simp only [work, setStream, total_set hstream, List.length_set, total_append, total_cons, total_nil, frameWork]
    simp only [streamWork] at hle ⊢
    omega
  | @applySettings n hsettings =>
    have hknown : (if (n : Int) - s.peerInitialWindowSize ≠ 0 then s.known else []).length ≤ s.streams.length := by
      split
      · exact Nat.le_trans (List.length_filter_le _ _) (Nat.le_of_eq List.length_range)
      · exact Nat.zero_le _
    have hnotify := (h.announced.pending n hsettings).2.2
    simp only [work, hsettings, hnotify, Option.isSome_some, Option.isSome_none, Bool.false_eq_true, if_true, if_false,
      List.length_nil]
    omega
  | notifyStream hnotify hstream =>
    have hle := hle hstream
    simp only [work, setStream, total_set hstream, List.length_set, hnotify, List.length_cons]
    simp only [streamWork] at hle ⊢
    omega
  | updateConnection hupdates | updateForgotten hupdates =>
    simp only [work, hupdates, List.length_cons]
    omega
  | updateStream hupdates hstream =>
    have hle := hle hstream
    simp only [work, setStream, total_set hstream, List.length_set, hupdates, List.length_cons]
    simp only [streamWork] at hle ⊢
    omega
  | receiveFrame hreceiving hdata =>
    simp only [work, hreceiving, hdata, Option.toList_none, Option.toList_some, total_cons, total_nil, frameWork, receivingWork]
    omega
  | pushFrame hreceiving hdata =>
    simp only [work, hdata, total_cons, frameWork]
    omega
  | skipFrame hreceiving hdata =>
    simp only [work, hdata, total_cons, frameWork, List.length_append, List.length_cons, List.length_nil]
    omega
  | flowControlError hreceiving hstream hzero herror =>
    exact absurd herror (Nat.not_lt.mpr (h.accounted.no_error h.announced hreceiving hstream))
  | skipFinished hreceiving hstream hzero hpos | receiveBytes hreceiving hstream hzero hpos =>
    simp only [work, hreceiving, Option.toList_some, total_cons, total_nil, receivingWork]
    omega
  | discardBytes hreceiving hstream hpos =>
    simp only [work, hreceiving, Option.toList_some, total_cons, total_nil, receivingWork, List.length_append, List.length_cons,
      List.length_nil]
    omega
  | moveBytes hreceiving hstream hpos =>
    have hle := hle hstream
    simp only [work, setStream, total_set hstream, List.length_set, hreceiving, Option.toList_some, total_cons, total_nil,
      receivingWork]
    simp only [streamWork] at hle ⊢
    omega
  | receiveEnd hreceiving hstream hcount hbuffer =>
    have hle := hle hstream
    simp only [work, setStream, total_set hstream, List.length_set, hreceiving, Option.toList_some, Option.toList_none, total_cons,
      total_nil, receivingWork]
    simp only [streamWork] at hle ⊢
    omega
  | @acknowledge i read timedOut stream hstream hread =>
    have hle := hle hstream
    have hpos : 0 < read := hdelivers
    have hlength := hcredits timedOut read
    simp only [work, setStream, total_set hstream, List.length_set, List.length_append, List.length_cons, List.length_nil]
    simp only [streamWork] at hle ⊢
    omega
  | @readBytes i read timedOut stream hstream hread =>
    have hle := hle hstream
    have hpos : 0 < read := hdelivers
    have hlength := hcredits timedOut read
    simp only [work, setStream, total_set hstream, List.length_set]
    simp only [streamWork] at hle ⊢
    omega
  | acknowledgeConnection hread =>
    have hlength := hcredit hread
    simp only [work, List.length_append, List.length_cons, List.length_nil]
    omega
  | credit hread =>
    have hlength := hcredit hread
    simp only [work]
    omega

/-- What was sent has been taken. -/
structure Quiet (s : Http2Connection) : Prop where
  settings : s.settings = none
  streamsToNotify : s.streamsToNotify = []
  updates : s.updates = []
  receiving : s.receiving = none
  data : s.data = []
  credits : s.credits = []
  toWrite : ∀ (i : Nat) (stream : Http2Stream), s.streams[i]? = some stream → stream.toWrite = 0
  readBuffer : ∀ (i : Nat) (stream : Http2Stream), s.streams[i]? = some stream → stream.readBuffer = 0

namespace Quiet

/-- The thread that reads can always go on with a frame. -/
theorem receiving_of_stuck (hordered : Ordered s) (hstuck : ∀ a, Delivers a → s.step a = none) : s.receiving = none := by
  cases hreceiving : s.receiving with
  | none => rfl
  | some receiving =>
    have hlt : receiving.streamId < s.streams.length := by
      refine hordered.valid (receiving.streamId, receiving.inFinished) ?_
      rw [marks, inFlight_of_some hreceiving]
      exact List.mem_cons_self
    have hreceive : ∀ f, s.onReceiving f = f receiving s.streams[receiving.streamId] := by
      intro f
      rw [onReceiving, hreceiving, Option.bind_some, List.getElem?_eq_getElem hlt, Option.bind_some]
    have hmove : s.onReceiving s.moveBytes = none := hstuck .moveBytes trivial
    have hread : s.onReceiving (fun receiving stream => s.receiveBytes receiving stream 1) = none :=
      hstuck (.receiveBytes 1) trivial
    have hend : s.onReceiving s.receiveEnd = none := hstuck .receiveEnd trivial
    rw [hreceive] at hmove hread hend
    by_cases hbuffer : 0 < receiving.receiveBuffer
    · rw [moveBytes, if_pos hbuffer] at hmove
      dsimp only at hmove
      split at hmove <;> cases hmove
    · have hempty : receiving.receiveBuffer = 0 := Nat.eq_zero_of_not_pos hbuffer
      by_cases hcount : 0 < receiving.byteCount
      · rw [receiveBytes, if_pos ⟨hcount, hempty⟩] at hread
        split at hread
        · cases hread
        · split at hread
          · cases hread
          · rw [if_pos ⟨Nat.one_pos, hcount⟩] at hread
            cases hread
      · rw [receiveEnd, if_pos ⟨Nat.eq_zero_of_not_pos hcount, hempty⟩] at hend
        cases hend

theorem of_stuck (h : Windows client s) (hstuck : ∀ a, Delivers a → s.step a = none) : Quiet s := by
  have hreceiving := receiving_of_stuck h.ordered hstuck
  refine ⟨?_, ?_, ?_, hreceiving, ?_, ?_, fun i stream hget => ?_, fun i stream hget => ?_⟩
  · have hnone : s.applySettings = none := hstuck .applySettings trivial
    rw [applySettings] at hnone
    split at hnone
    · assumption
    · cases hnone
  · have hnone : s.notifyStream = none := hstuck .notifyStream trivial
    rw [notifyStream] at hnone
    split at hnone
    · assumption
    · rename_i i rest hnotify
      have hlt := h.announced.valid i (hnotify ▸ List.mem_cons_self)
      rw [List.getElem?_eq_getElem hlt] at hnone
      cases hnone
  · have hnone : s.windowUpdate = none := hstuck .windowUpdate trivial
    rw [windowUpdate] at hnone
    split at hnone
    · assumption
    · cases hnone
    · rename_i i increment rest hupdates
      have hlt := h.announced.updates _ (hupdates ▸ List.mem_cons_self) i rfl
      rw [List.getElem?_eq_getElem hlt] at hnone
      cases hnone
  · have hnone : s.receiveFrame = none := hstuck .receiveFrame trivial
    cases hdata : s.data with
    | nil => rfl
    | cons frame rest =>
      have hlt : frame.streamId < s.streams.length := by
        refine h.ordered.valid (frame.streamId, frame.inFinished) ?_
        rw [marks, inFlight_of_none hreceiving, hdata]
        exact List.mem_cons_self
      simp only [receiveFrame, hreceiving, hdata, List.getElem?_eq_getElem hlt, Option.map_some, reduceCtorEq] at hnone
  · cases hcredits : s.credits with
    | nil => rfl
    | cons read rest =>
      have hnone : s.updateConnectionFlowControl 0 = none := hstuck (.updateConnectionFlowControl 0) trivial
      rw [updateConnectionFlowControl, hcredits] at hnone
      cases hnone
  · refine Nat.eq_zero_of_not_pos fun hpos => ?_
    have hnone : (s.streams[i]?).bind (s.writeData i) = none := hstuck (.writeData i) trivial
    rw [hget, Option.bind_some, writeData, if_pos hpos] at hnone
    cases hnone
  · by_cases hclosed : stream.closed = true
    · exact h.prompt.closed i stream hget hclosed
    · refine Nat.eq_zero_of_not_pos fun hpos => ?_
      have hnone : (s.streams[i]?).bind (fun stream => s.readBytes i stream 1 false) = none :=
        hstuck (.readBytes i 1 false) Nat.one_pos
      rw [hget, Option.bind_some, readBytes, if_pos ⟨Bool.eq_false_iff.mpr hclosed, hpos, hpos⟩] at hnone
      dsimp only at hnone
      split at hnone <;> cases hnone

/-- Then the window of the connection is more than half open, but for what is never given back. -/
theorem connection_open (hq : Quiet s) (h : Windows client s) :
    s.initialWindowSize / 2 < s.bytesLeftInWriteWindow + s.uncredited := by
  have hwrite : total Http2Stream.toWrite s.streams = 0 := total_eq_zero fun stream hmem => by
    obtain ⟨i, hget⟩ := List.getElem?_of_mem hmem
    exact hq.toWrite i stream hget
  have hread : total Http2Stream.readBuffer s.streams = 0 := total_eq_zero fun stream hmem => by
    obtain ⟨i, hget⟩ := List.getElem?_of_mem hmem
    exact hq.readBuffer i stream hget
  have hconserved := h.conserved
  have hprompt := h.prompt.connection
  rw [outstanding, hwrite, hread, inFlight_of_none hq.receiving, hq.data, hq.credits, hq.updates] at hconserved
  simp only [total_nil] at hconserved
  omega

/-- So no writer is waiting for it. -/
theorem byteCount_eq_zero (hq : Quiet s) (h : Windows client s) (hstuck : ∀ a, Delivers a → s.step a = none)
    (hgone : s.uncredited ≤ s.initialWindowSize / 2) (hget : s.streams[i]? = some stream) : stream.byteCount = 0 := by
  refine Nat.eq_zero_of_not_pos fun hpos => ?_
  have hopen := hq.connection_open h
  have hnone : (s.streams[i]?).bind (fun stream => s.takeWindow i stream 1) = none := hstuck (.takeWindow i 1) Nat.one_pos
  rw [hget, Option.bind_some, takeWindow, if_pos ⟨by omega, hpos, hq.toWrite i stream hget⟩] at hnone
  cases hnone

/-- And so is the window of every stream that both ends use. -/
theorem stream_open (hq : Quiet s) (h : Windows client s) (hget : s.streams[i]? = some stream) (hintact : Intact stream)
    (herror : stream.errorCode = false) : s.initialWindowSize / 2 < stream.bytesLeftInWriteWindow + stream.byteCount := by
  have hsum := h.accounted.eq i stream hget hintact
  have hprompt := h.prompt.stream i stream hget herror
  have hdue : s.due i = 0 := by
    rw [due, hq.settings, hq.streamsToNotify, if_neg List.not_mem_nil]
    rfl
  have hway : s.onWay i = 0 := by
    rw [onWay, inFlight_of_none hq.receiving, hq.data, hq.updates]
    rfl
  rw [inner, hq.toWrite i stream hget, hq.readBuffer i stream hget, hway, hdue] at hsum
  omega

/-- Nothing is left to do then. -/
theorem stuck (hq : Quiet s) (hcount : ∀ (i : Nat) (stream : Http2Stream), s.streams[i]? = some stream → stream.byteCount = 0)
    (hdelivers : Delivers a) : s.step a = none := by
  cases h : s.step a with
  | none => rfl
  | some s' =>
    cases step_cases h with
    | newStream | emitFrame | closeSink | giveUp | forget | closeSource | reset | removeStream => exact hdelivers.elim
    | takeWindow hstream hwindow hle hpos => exact absurd (hcount _ _ hstream) (Nat.ne_of_gt hpos)
    | writeData hstream hpos => exact absurd (hq.toWrite _ _ hstream) (Nat.ne_of_gt hpos)
    | applySettings hsettings => exact absurd (hsettings.symm.trans hq.settings) (Option.some_ne_none _)
    | notifyStream hnotify => exact absurd (hnotify.symm.trans hq.streamsToNotify) (List.cons_ne_nil _ _)
    | updateConnection hupdates | updateStream hupdates | updateForgotten hupdates =>
      exact absurd (hupdates.symm.trans hq.updates) (List.cons_ne_nil _ _)
    | receiveFrame _ hdata | pushFrame _ hdata | skipFrame _ hdata => exact absurd (hdata.symm.trans hq.data) (List.cons_ne_nil _ _)
    | flowControlError hreceiving | skipFinished hreceiving | receiveBytes hreceiving | discardBytes hreceiving
    | moveBytes hreceiving | receiveEnd hreceiving =>
      exact absurd (hreceiving.symm.trans hq.receiving) (Option.some_ne_none _)
    | acknowledge hstream _ hpos | readBytes hstream _ hpos => exact absurd (hq.readBuffer _ _ hstream) (Nat.ne_of_gt hpos)
    | acknowledgeConnection hcredit | credit hcredit =>
      rw [hq.credits] at hcredit
      cases hcredit

end Quiet

/-- From any state, if nothing more is written, the threads take only finitely many steps, in whatever order they come. When
none can go on, what was sent has been read, thrown away or taken by a push observer; the window of the connection, with the
bytes that are never given back, is more than half open, and so are the windows of the streams that both ends use, with what
their writers still hold. These hold nothing unless the bytes that are never given back are more than half a window. -/
theorem writers_go_on (h : (lts client).Reachable s) : ((lts client).restrict fun _ => Delivers).Halts s ∧
    ((∀ a, Delivers a → s.step a = none) →
      okHttpInitialWindowSize client / 2 < s.bytesLeftInWriteWindow + s.uncredited ∧
      s.data = [] ∧ s.receiving = none ∧ s.updates = [] ∧
      ∀ (i : Nat) (stream : Http2Stream), s.streams[i]? = some stream →
        (s.uncredited ≤ okHttpInitialWindowSize client / 2 → stream.byteCount = 0) ∧ stream.toWrite = 0 ∧ stream.readBuffer = 0 ∧
        (Intact stream → stream.errorCode = false →
          okHttpInitialWindowSize client / 2 < stream.bytesLeftInWriteWindow + stream.byteCount)) := by
  have hw := Windows.of_reachable h
  refine ⟨?_, fun hstuck => ?_⟩
  · refine Lts.halts_of_measure (I := Windows client) work (fun t a t' hI hstep => ?_) hw
    obtain ⟨hdelivers, hstep⟩ := hstep
    exact ⟨hI.step (step_cases hstep), hI.work_lt (step_cases hstep) hdelivers⟩
  · have hq := Quiet.of_stuck hw hstuck
    rw [← hw.initial]
    refine ⟨hq.connection_open hw, hq.data, hq.receiving, hq.updates, fun i stream hget => ?_⟩
    exact ⟨fun hgone => hq.byteCount_eq_zero hw hstuck hgone hget, hq.toWrite i stream hget, hq.readBuffer i stream hget,
      hq.stream_open hw hget⟩

/-- The stream has ended, and all is as it was. -/
def transferred : Http2Connection :=
  { new false with
    settings := none
    streams := [{ Http2Stream.new false 65535 with outFinished := true, sinkFinished := true, finished := true }] }

theorem writers_go_on_transfer : (lts false).Reachable transferred ∧ ((lts false).restrict fun _ => Delivers).Halts transferred ∧
    okHttpInitialWindowSize false / 2 < transferred.bytesLeftInWriteWindow + transferred.uncredited ∧
      transferred.data = [] ∧ transferred.receiving = none ∧ transferred.updates = [] ∧
      ∀ (i : Nat) (stream : Http2Stream), transferred.streams[i]? = some stream →
        (transferred.uncredited ≤ okHttpInitialWindowSize false / 2 → stream.byteCount = 0) ∧ stream.toWrite = 0 ∧
        stream.readBuffer = 0 ∧ (Intact stream → stream.errorCode = false →
          okHttpInitialWindowSize false / 2 < stream.bytesLeftInWriteWindow + stream.byteCount) := by
  have hrun : Lts.replay step (new false) (writeActs ++ readActs ++ updateActs) = some transferred := by decide +kernel
  have hr : (lts false).Reachable transferred := Lts.replay_reachable (fun _ _ _ => id) _ (.init rfl) hrun
  have hstream : ∀ (i : Nat) (stream : Http2Stream), transferred.streams[i]? = some stream →
      stream.byteCount = 0 ∧ stream.toWrite = 0 ∧ stream.readBuffer = 0 := by
    intro i stream hget
    obtain rfl := List.mem_singleton.mp (List.mem_of_getElem? hget)
    exact ⟨rfl, rfl, rfl⟩
  have hq : Quiet transferred := ⟨rfl, rfl, rfl, rfl, rfl, rfl, fun i stream hget => (hstream i stream hget).2.1,
    fun i stream hget => (hstream i stream hget).2.2⟩
  exact ⟨hr, (writers_go_on hr).1,
    (writers_go_on hr).2 fun a hdelivers => hq.stuck (fun i stream hget => (hstream i stream hget).1) hdelivers⟩

end Http2Connection

end Okhttp3

end LibraLive

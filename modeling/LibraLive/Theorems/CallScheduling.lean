import LibraLive.Lemmas.DispatcherStep

/-!
# What the dispatcher promises of the calls

As long as no exception comes from an executor or a callback: no call is lost and none is run twice (`calls_conserved`). A
call that there is room for is on its way: a thread is about to promote it (`nothing_waits`). When no more methods are called
the threads come to an end, and then every call has been finished (`calls_finish`). And as long as no call is for a web socket
and the limits are not lowered, no host has more calls than its limit at any moment (`limits_kept`).
-/

namespace LibraLive

namespace Okhttp3

open Stacks

/-- A frame behind which comes the block of `promoteAndExecute`. -/
def Frame.Promotes : Frame → Prop
  | .promote _ => True
  | .remove _ => True
  | _ => False

namespace Dispatcher

variable {s s' : Dispatcher}

/-- Whatever the threads do without an exception, `finished` finds its call, and every call that was enqueued is ready,
running or finished, in one of these places and there once; it is running exactly while one thread has something left to do
for it. -/
theorem calls_conserved (h : (lts.restrict Calm).Reachable s) :
    s.fault = false ∧ ∀ c < s.calls.length,
      s.readyAsyncCalls.count c + s.runningAsyncCalls.count c + s.finished.count c = 1 ∧
        s.runningAsyncCalls.count c = s.held.count c := by
  have hc := conserved_of_reachable h
  refine ⟨hc.no_fault, fun c hlt => ⟨?_, hc.running c⟩⟩
  have hplaces := hc.places c
  rw [if_pos hlt, ← hc.running] at hplaces
  exact hplaces

/-- A call that the executor rejects, and one that it runs at once. -/
def rejectedActs : List Act :=
  .enqueue "host" false :: List.replicate 10 (.thread 0 .rejected) ++ .enqueue "host" false :: List.replicate 11 (.thread 1 .ran)

/-- They are finished, by the threads that enqueued them. -/
theorem calls_conserved_rejected : ∃ s, (lts.restrict Calm).Reachable s ∧ s.finished = [0, 1] ∧
    (s.fault = false ∧ ∀ c < s.calls.length,
      s.readyAsyncCalls.count c + s.runningAsyncCalls.count c + s.finished.count c = 1 ∧
        s.runningAsyncCalls.count c = s.held.count c) := by
  have hrun : (Lts.replayIf step (fun s a => decide (Calm s a)) new rejectedActs).map (·.finished) = some [0, 1] := by
    decide +kernel
  obtain ⟨s, hs, hfinished⟩ := Option.map_eq_some_iff.mp hrun
  have hr : (lts.restrict Calm).Reachable s :=
    Lts.replayIf_reachable (fun _ _ _ => id) (fun _ _ => of_decide_eq_true) _ (.init rfl) hs
  exact ⟨s, hr, hfinished, calls_conserved hr⟩

/-- Two calls that one thread has promoted, and an exception while it gives the first one to the executor. -/
def thrownActs : List Act :=
  [.enqueue "host" false, .enqueue "host" false] ++ List.replicate 4 (.thread 0 .started) ++
    List.replicate 7 (.thread 0 .threw) ++ List.replicate 3 (.thread 1 .started)

/-- Without `Calm` the other call is left: it is running, and no thread will come to it. -/
theorem running_left_of_exception :
    ∃ s, lts.Reachable s ∧ s.threads = [[], []] ∧ s.runningAsyncCalls = [1] ∧ s.finished = [0] := by
  have hrun : (Lts.replay step new thrownActs).map (fun s => (s.threads, s.runningAsyncCalls, s.finished)) =
      some ([[], []], [1], [0]) := by decide +kernel
  obtain ⟨s, hs, hend⟩ := Option.map_eq_some_iff.mp hrun
  simp only [Prod.mk.injEq] at hend
  exact ⟨s, Lts.replay_reachable (fun _ _ _ => id) _ (.init rfl) hs, hend⟩

/-! ## Calls that there is room for -/

/-- The threads, without the block that the loop of `promoteAndExecute` is in. -/
def pending (s : Dispatcher) : List (List Frame) :=
  match s.scan with
  | none => s.threads
  | some scan => s.threads.modify scan.thread List.tail

/-- No call that is ready finds room, or the loop has not come to it. -/
def Blocked (s : Dispatcher) : Prop :=
  ∀ c ∈ s.readyAsyncCalls, c ∈ s.unseen ∨ s.maxRequests ≤ s.runningAsyncCalls.length ∨
    s.maxRequestsPerHost ≤ s.counters.getD (s.counterOf c) 0

/-- A thread has a block of `promoteAndExecute` before it, and has not begun it. -/
def Promoting (s : Dispatcher) : Prop := ∃ stack ∈ s.pending, ∃ frame ∈ stack, frame.Promotes

/-- A step that keeps the calls and the limits. -/
theorem Blocked.of_same (h : Blocked s) (hready : s'.readyAsyncCalls = s.readyAsyncCalls)
    (hrunning : s'.runningAsyncCalls = s.runningAsyncCalls) (hcalls : s'.calls = s.calls) (hcounters : s'.counters = s.counters)
    (hmax : s'.maxRequests = s.maxRequests) (hhost : s'.maxRequestsPerHost = s.maxRequestsPerHost) (hscan : s'.scan = s.scan) :
    Blocked s' := by
  unfold Blocked
  rw [hready, hrunning, counterOf_congr hcalls, hcounters, hmax, hhost, unseen, hscan]
  exact h

section
variable {i : Nat} {stack stack' : List Frame}

/-- What is pending when a thread that is not in the loop replaces its stack. -/
theorem pending_set (hi : s.threads[i]? = some stack) (hne : ∀ scan, s.scan = some scan → i ≠ scan.thread)
    (hscan : s'.scan = s.scan) (ht : s'.threads = s.threads.set i stack') :
    s.pending[i]? = some stack ∧ s'.pending = s.pending.set i stack' := by
  unfold pending
  rw [hscan, ht]
  cases hs : s.scan with
  | none => exact ⟨hi, rfl⟩
  | some scan =>
    have hne := hne scan hs
    refine ⟨(List.getElem?_modify_ne _ _ hne.symm).trans hi, ?_⟩
    change (s.threads.set i stack').modify _ _ = (s.threads.modify _ _).set _ _
    rw [List.set_eq_modify, List.set_eq_modify, List.modify_modify_ne _ _ _ hne]

/-- A thread that was about to promote calls still is, if it is another one or goes on with it. -/
theorem Promoting.of_set (h : Promoting s) (hi : s.threads[i]? = some stack)
    (hne : ∀ scan, s.scan = some scan → i ≠ scan.thread) (hscan : s'.scan = s.scan) (ht : s'.threads = s.threads.set i stack')
    (hkeep : (∃ frame ∈ stack, frame.Promotes) → ∃ frame ∈ stack', frame.Promotes) : Promoting s' := by
  obtain ⟨hpending, hset⟩ := pending_set hi hne hscan ht
  unfold Promoting
  rw [hset]
  exact Stacks.exists_set hpending hkeep h

/-- A thread that has just come to be about to promote calls. -/
theorem Promoting.of_frame (frame : Frame) (hi : s.threads[i]? = some stack)
    (hne : ∀ scan, s.scan = some scan → i ≠ scan.thread) (hscan : s'.scan = s.scan) (ht : s'.threads = s.threads.set i stack')
    (hframe : frame ∈ stack') (hp : frame.Promotes) : Promoting s' := by
  obtain ⟨hpending, hset⟩ := pending_set hi hne hscan ht
  obtain ⟨hlt, -⟩ := List.getElem?_eq_some_iff.mp hpending
  refine ⟨stack', ?_, frame, hframe, hp⟩
  rw [hset]
  exact List.mem_of_getElem? (List.getElem?_set_self hlt)

end

theorem pending_of_none (hscan : s.scan = none) : s.pending = s.threads := by rw [pending, hscan]

/-- A new thread that is about to promote calls. -/
theorem Promoting.of_new {stack : List Frame} (frame : Frame) (hscan : s'.scan = none) (ht : s'.threads = s.threads ++ [stack])
    (hframe : frame ∈ stack) (hp : frame.Promotes) : Promoting s' := by
  refine ⟨stack, ?_, frame, hframe, hp⟩
  rw [pending_of_none hscan, ht]
  exact List.mem_append_right _ (List.mem_singleton_self stack)

theorem Promoting.append {stack : List Frame} (h : Promoting s) (hscan : s.scan = none) (hscan' : s'.scan = none)
    (ht : s'.threads = s.threads ++ [stack]) : Promoting s' := by
  obtain ⟨st, hst, hframe⟩ := h
  rw [pending_of_none hscan] at hst
  refine ⟨st, ?_, hframe⟩
  rw [pending_of_none hscan', ht]
  exact List.mem_append_left _ hst

/-- What is pending when the loop is at its end. -/
theorem pending_scan {scan : Scan} {frame : Frame} {rest : List Frame} (hscan : s.scan = some scan)
    (hi : s.threads[scan.thread]? = some (frame :: rest)) : s.pending = s.threads.set scan.thread rest := by
  rw [pending, hscan]
  change s.threads.modify _ _ = _
  rw [List.modify_eq_set_getElem?, hi]
  rfl

/-- The loop takes a call: those it has passed stay without room, as only it makes room smaller. -/
theorem Blocked.promote {i c : Nat} {ready executable : List Nat} (h : Blocked s) (hc : Conserved s)
    (hscan : s.scan = some ⟨i, c :: ready, executable⟩) : Blocked (s.promote ⟨i, c :: ready, executable⟩ c ready) := by
  have hmem : c ∈ s.readyAsyncCalls := hc.mem_ready hscan List.mem_cons_self
  have hcounter := hc.counter_lt (hc.lt_of_ready hmem)
  intro x hx
  change x ∈ s.readyAsyncCalls.erase c at hx
  change x ∈ ready ∨ s.maxRequests ≤ (s.runningAsyncCalls ++ [c]).length ∨
    s.maxRequestsPerHost ≤ (s.counters.modify (s.counterOf c) (· + 1)).getD (s.counterOf x) 0
  have hxc : x ≠ c := by
    rintro rfl
    have hplaces := hc.places x
    rw [← List.count_pos_iff, List.count_erase_self] at hx
    split at hplaces <;> omega
  rcases h x (List.mem_of_mem_erase hx) with hseen | hfull | hhost
  · rw [unseen, hscan] at hseen
    exact .inl ((List.mem_cons.mp hseen).resolve_left hxc)
  · rw [List.length_append, List.length_singleton]
    exact .inr (.inl (by omega))
  · rw [getD_modify hcounter]
    refine .inr (.inr ?_)
    split <;> omega

/-- A frame that does not come to the block is not the one that does. -/
theorem exists_promotes_of_cons {frame : Frame} {rest : List Frame} (hnot : ¬ frame.Promotes)
    (h : ∃ fr ∈ frame :: rest, fr.Promotes) : ∃ fr ∈ rest, fr.Promotes := by
  obtain ⟨fr, hfr, hp⟩ := h
  rcases List.mem_cons.mp hfr with rfl | hfr
  · exact absurd hp hnot
  · exact ⟨fr, hfr, hp⟩

theorem exists_promotes_cons (frame : Frame) {rest : List Frame} (h : ∃ fr ∈ rest, fr.Promotes) :
    ∃ fr ∈ frame :: rest, fr.Promotes := by
  obtain ⟨fr, hfr, hp⟩ := h
  exact ⟨fr, List.mem_cons_of_mem _ hfr, hp⟩

/-- The end of the loop takes the block it was in off the stack, which was not pending any more. -/
theorem Promoting.promoteEnd {i : Nat} {idle : Bool} {rest : List Frame} {ready executable : List Nat} (h : Promoting s)
    (hi : s.threads[i]? = some (.promote idle :: rest)) (hscan : s.scan = some ⟨i, ready, executable⟩) :
    Promoting (s.promoteEnd ⟨i, ready, executable⟩ idle rest) := by
  unfold Promoting at h
  rw [pending_scan hscan hi] at h
  have hlt := (List.getElem?_eq_some_iff.mp hi).1
  have hset : ∀ frame : Frame, ∃ st ∈ (s.threads.set i rest).set i (frame :: rest), ∃ fr ∈ st, fr.Promotes :=
    fun frame => Stacks.exists_set (List.getElem?_set_self hlt) (exists_promotes_cons frame) h
  simp only [List.set_set] at hset
  exact hset _

/-- `executeOn` leaves what is behind it on the stack. -/
theorem Promoting.executeOn {i call : Nat} {calls : List Nat} {idle : Bool} {rest : List Frame} {outcome : Outcome}
    (h : Promoting s) (hi : s.threads[i]? = some (.execute (call :: calls) idle :: rest)) (hscan : s.scan = none)
    (hcalm : outcome.throws = false) : Promoting (s.executeOn i outcome call calls idle rest) := by
  have hne : ∀ scan, s.scan = some scan → i ≠ scan.thread := by
    intro scan hs
    rw [hscan] at hs
    cases hs
  have hrest : (∃ frame ∈ Frame.execute (call :: calls) idle :: rest, frame.Promotes) →
      ∃ frame ∈ Frame.execute calls idle :: rest, frame.Promotes :=
    fun hframe => exists_promotes_cons _ (exists_promotes_of_cons id hframe)
  cases outcome with
  | threw | ranAndThrew => cases hcalm
  | started =>
    have hset : Promoting { s with threads := s.threads.set i (.execute calls idle :: rest) } := h.of_set hi hne rfl rfl hrest
    exact hset.append hscan hscan rfl
  | rejected => exact h.of_set hi hne rfl rfl fun hframe => exists_promotes_cons _ (hrest hframe)
  | ran =>
    exact h.of_set hi hne rfl rfl fun hframe => exists_promotes_cons _ (exists_promotes_cons _ (hrest hframe))

/-- A step of a thread. -/
theorem ThreadStep.blocked {i : Nat} (hstep : ThreadStep s i s') (hc : Conserved s) (h : Blocked s ∨ Promoting s) :
    Blocked s' ∨ Promoting s' := by
  have hnone : s.scan = none → ∀ scan, s.scan = some scan → i ≠ scan.thread := by
    rintro hscan scan hs
    rw [hscan] at hs
    cases hs
  cases hstep with
  | begin hi hscan => exact .inl fun c hready => .inl hready
  | promote hi hscan =>
    refine h.imp (fun h => h.promote hc hscan) fun h => ?_
    unfold Promoting pending at h ⊢
    rw [hscan] at h
    exact h
  | @skip _ _ call _ _ hi hscan hhost =>
    refine h.imp (fun h c hready => ?_) fun h => ?_
    · rcases h c hready with hseen | hblocked
      · rw [unseen, hscan] at hseen
        rcases List.mem_cons.mp hseen with rfl | hseen
        · exact .inr (.inr hhost)
        · exact .inl hseen
      · exact .inr hblocked
    · unfold Promoting pending at h ⊢
      rw [hscan] at h
      exact h
  | @finish idle rest _ _ hi hscan hend =>
    refine h.imp (fun h c hready => ?_) fun h => h.promoteEnd hi hscan
    rcases hend with rfl | hfull
    · have hblocked := h c hready
      rw [unseen, hscan] at hblocked
      exact .inr (hblocked.resolve_left List.not_mem_nil)
    · exact .inr (.inl hfull)
  | idle hi | ran hi =>
    exact h.imp (fun h => h.of_same rfl rfl rfl rfl rfl rfl rfl) fun h =>
      h.of_set hi (hc.ne_thread hi fun _ => Frame.noConfusion) rfl rfl (exists_promotes_of_cons id)
  | @executeOn outcome idle rest call calls hi hscan hcalm =>
    refine h.imp (fun h => ?_) fun h => h.executeOn hi hscan hcalm
    cases outcome <;> exact h.of_same rfl rfl rfl rfl rfl rfl rfl
  | @decrement _ call hi =>
    exact .inr (.of_frame (.remove call) hi (hc.ne_thread hi fun _ => Frame.noConfusion) rfl rfl List.mem_cons_self trivial)
  | remove hi hscan =>
    rw [(hc.remove_eq hi).2]
    exact .inr (.of_frame (.promote s.idleCallback) hi (hnone hscan) rfl rfl List.mem_cons_self trivial)
  | removeSync hi hscan =>
    rw [(hc.removeSync_eq hi).2]
    exact .inr (.of_frame (.promote s.idleCallback) hi (hnone hscan) rfl rfl List.mem_cons_self trivial)

/-- Every step keeps it: no call that is ready finds room, but for those the loop has not come to, or a thread is about to
promote calls. -/
theorem step_blocked {a : Act} (hr : (lts.restrict Calm).Reachable s) (h : Blocked s ∨ Promoting s)
    (hstep : (lts.restrict Calm).step s a s') : Blocked s' ∨ Promoting s' := by
  have hc := conserved_of_reachable hr
  rcases step_cases (quiet_of_reachable hr) hstep.1 hstep.2 with ⟨i, hthread⟩ | ⟨hscan, hmethod⟩
  · exact hthread.blocked hc h
  cases a with
  | enqueue host forWebSocket =>
    obtain rfl := Option.some.inj hmethod
    exact .inr (.of_new (.promote false) hscan rfl (List.mem_singleton_self _) trivial)
  | execute =>
    obtain rfl := Option.some.inj hmethod
    exact h.imp (fun h => h.of_same rfl rfl rfl rfl rfl rfl rfl) fun h => h.append hscan hscan rfl
  | setMaxRequests n =>
    rw [callMethod] at hmethod
    split at hmethod
    · cases hmethod
    · obtain rfl := Option.some.inj hmethod
      exact .inr (Promoting.of_new (s := s) (.promote false) hscan rfl (List.mem_singleton_self _) trivial)
  | setMaxRequestsPerHost n =>
    rw [callMethod] at hmethod
    split at hmethod
    · cases hmethod
    · obtain rfl := Option.some.inj hmethod
      exact .inr (Promoting.of_new (s := s) (.promote false) hscan rfl (List.mem_singleton_self _) trivial)
  | setIdleCallback idleCallback =>
    obtain rfl := Option.some.inj hmethod
    exact h.imp (fun h => h.of_same rfl rfl rfl rfl rfl rfl rfl) fun h => h
  | thread => cases hmethod

theorem blocked_of_reachable (h : (lts.restrict Calm).Reachable s) : Blocked s ∨ Promoting s := by
  refine h.invariant (fun s hs => ?_) fun s a s' hr hb hstep => step_blocked hr hb hstep
  obtain rfl : s = new := hs
  exact .inl fun c hc => absurd hc List.not_mem_nil

/-- Whatever the threads do without an exception, a call that is ready and finds room, among all calls and among those of its
host, does not wait for nothing: a thread is in the loop of `promoteAndExecute` and will come to it, or has the block before
it. -/
theorem nothing_waits (h : (lts.restrict Calm).Reachable s) :
    ∀ c ∈ s.readyAsyncCalls, s.runningAsyncCalls.length < s.maxRequests →
      s.counters.getD (s.counterOf c) 0 < s.maxRequestsPerHost → c ∈ s.unseen ∨ Promoting s := by
  intro c hready hmax hhost
  rcases blocked_of_reachable h with hb | hb
  · rcases hb c hready with hseen | hfull | hfull
    · exact .inl hseen
    · omega
    · omega
  · exact .inr hb

/-- A call that has just been enqueued. -/
theorem nothing_waits_enqueued : 0 ∈ (new.enqueue "host" false).unseen ∨ Promoting (new.enqueue "host" false) := by
  have hr : (lts.restrict Calm).Reachable (new.enqueue "host" false) :=
    .step (a := .enqueue "host" false) (.init rfl) ⟨trivial, rfl⟩
  exact nothing_waits hr 0 (by decide) (by decide) (by decide)

/-! ## The end of the calls -/

/-- The limits are at least one. -/
theorem limits_pos (h : (lts.restrict Calm).Reachable s) : 1 ≤ s.maxRequests ∧ 1 ≤ s.maxRequestsPerHost := by
  refine h.invariant (fun s hs => ?_) fun s a s' hr hpos hstep => ?_
  · obtain rfl : s = new := hs
    decide
  · rcases step_cases (quiet_of_reachable hr) hstep.1 hstep.2 with ⟨i, hthread⟩ | ⟨-, hmethod⟩
    · obtain ⟨hmax, hhost, -⟩ := hthread.same
      rw [hmax, hhost]
      exact hpos
    cases a with
    | enqueue => obtain rfl := Option.some.inj hmethod; exact hpos
    | execute => obtain rfl := Option.some.inj hmethod; exact hpos
    | setIdleCallback => obtain rfl := Option.some.inj hmethod; exact hpos
    | setMaxRequests n =>
      rw [callMethod] at hmethod
      split at hmethod
      · cases hmethod
      · obtain rfl := Option.some.inj hmethod
        exact ⟨by dsimp only; omega, hpos.2⟩
    | setMaxRequestsPerHost n =>
      rw [callMethod] at hmethod
      split at hmethod
      · cases hmethod
      · obtain rfl := Option.some.inj hmethod
        exact ⟨hpos.1, by dsimp only; omega⟩
    | thread => cases hmethod

/-- When all threads are done every call has been finished. -/
theorem finished_of_done (h : (lts.restrict Calm).Reachable s) (hdone : ∀ stack ∈ s.threads, stack = []) :
    s.readyAsyncCalls = [] ∧ s.runningAsyncCalls = [] ∧ s.runningSyncCalls = [] ∧
      ∀ c < s.calls.length, s.finished.count c = 1 := by
  have hc := conserved_of_reachable h
  have hscan : s.scan = none := by
    cases hscan : s.scan with
    | none => rfl
    | some scan =>
      obtain ⟨⟨idle, rest, hthread⟩, -⟩ := hc.scanning scan hscan
      exact absurd (hdone _ (List.mem_of_getElem? hthread)) (List.cons_ne_nil _ _)
  have hexecutable : s.executable = [] := by rw [executable, hscan]; rfl
  have hnone : ∀ f : Frame → List Nat, Stacks.held f s.threads = [] := by
    intro f
    refine List.flatMap_eq_nil_iff.mpr fun stack hstack => ?_
    rw [hdone stack hstack, List.flatMap_nil]
  have hheld : s.held = [] := by rw [held, hnone, hexecutable]; rfl
  have hcounted : s.counted = [] := by rw [counted, hnone, hexecutable]; rfl
  have hrunning : s.runningAsyncCalls = [] := List.eq_nil_iff_forall_not_mem.mpr fun c hmem => by
    have hcount := hc.running c
    rw [hheld, List.count_nil] at hcount
    exact List.count_eq_zero.mp hcount hmem
  have hsync : s.runningSyncCalls = [] := List.eq_nil_iff_forall_not_mem.mpr fun c hmem => by
    have hcount := hc.sync c
    rw [syncHeld, hnone, List.count_nil] at hcount
    exact List.count_eq_zero.mp hcount hmem
  have hready : s.readyAsyncCalls = [] := List.eq_nil_iff_forall_not_mem.mpr fun c hmem => by
    obtain ⟨hmax, hhost⟩ := limits_pos h
    have hcounter := hc.counters _ (hc.counter_lt (hc.lt_of_ready hmem))
    rw [hcounted, List.countP_nil] at hcounter
    rcases blocked_of_reachable h with hblocked | ⟨stack, hstack, frame, hframe, -⟩
    · have hb := hblocked c hmem
      rw [unseen, hscan, hrunning] at hb
      rcases hb with hseen | hfull | hfull
      · exact List.not_mem_nil hseen
      · rw [List.length_nil] at hfull
        omega
      · omega
    · rw [pending_of_none hscan] at hstack
      rw [hdone stack hstack] at hframe
      exact List.not_mem_nil hframe
  refine ⟨hready, hrunning, hsync, fun c hlt => ?_⟩
  have hplaces := hc.places c
  rw [if_pos hlt, hready, hheld, List.count_nil] at hplaces
  omega

/-- What a frame costs at most, when no more than `n` calls are ready. -/
def cost (n : Nat) : Frame → Nat
  | .promote _ => n + 3
  | .execute calls _ => (n + 7) * calls.length + 1
  | .call _ => n + 5
  | .remove _ => n + 4
  | .ran _ | .rethrow => 1
  | .syncCall _ => n + 4

/-- As many items as a frame costs. -/
def costs (n : Nat) (frame : Frame) : List Unit := List.replicate (cost n frame) ()

theorem length_costs (n : Nat) (frame : Frame) : (costs n frame).length = cost n frame := List.length_replicate

/-- What the loop costs at most. -/
def scanCost (n : Nat) : Option Scan → Nat
  | none => n + 1
  | some scan => scan.rest.length + (n + 7) * scan.executableCalls.length

/-- A bound for the steps that the threads still take. -/
def bound (n : Nat) (s : Dispatcher) : Nat :=
  (Stacks.held (costs n) s.threads).length + scanCost n s.scan +
    (n + 7) * s.readyAsyncCalls.length

/-- Every step of a thread makes it smaller. -/
theorem ThreadStep.bound_lt {i n : Nat} (hstep : ThreadStep s i s') (hc : Conserved s) (hn : s.readyAsyncCalls.length ≤ n) :
    s'.readyAsyncCalls.length ≤ n ∧ bound n s' < bound n s := by
  have hset : ∀ {stack : List Frame} (stack' : List Frame), s.threads[i]? = some stack →
      (Stacks.held (costs n) (s.threads.set i stack')).length +
          (stack.flatMap (costs n)).length =
        (Stacks.held (costs n) s.threads).length +
          (stack'.flatMap (costs n)).length :=
    fun stack' hi => Stacks.length_held_set stack' hi
  cases hstep with
  | begin hi hscan =>
    refine ⟨hn, ?_⟩
    simp only [bound, hscan, scanCost, List.length_nil]
    omega
  | @promote idle rest c ready executable hi hscan =>
    have hmem : c ∈ s.readyAsyncCalls := hc.mem_ready hscan List.mem_cons_self
    have hpos := List.length_pos_of_mem hmem
    have hlength : (s.readyAsyncCalls.erase c).length = s.readyAsyncCalls.length - 1 := List.length_erase_of_mem hmem
    refine ⟨?_, ?_⟩
    · change (s.readyAsyncCalls.erase c).length ≤ n
      omega
    · obtain ⟨m, hm⟩ : ∃ m, s.readyAsyncCalls.length = m + 1 := ⟨s.readyAsyncCalls.length - 1, by omega⟩
      have hlength : (s.readyAsyncCalls.erase c).length = m := by omega
      simp only [bound, Dispatcher.promote, hscan, scanCost, List.length_cons, List.length_append, List.length_nil, hlength, hm,
        Nat.mul_add, Nat.mul_one]
      omega
  | skip hi hscan =>
    refine ⟨hn, ?_⟩
    simp only [bound, hscan, scanCost, List.length_cons]
    omega
  | @finish idle rest ready executable hi hscan =>
    refine ⟨hn, ?_⟩
    have hset := hset (.execute executable (!decide (0 < s.runningCallsCount) && idle) :: rest) hi
    simp only [List.flatMap_cons, List.length_append, length_costs, cost] at hset
    simp only [bound, promoteEnd, hscan, scanCost]
    omega
  | @idle _ rest hi | @ran rest _ hi =>
    refine ⟨hn, ?_⟩
    have hset := hset rest hi
    simp only [List.flatMap_cons, List.length_append, length_costs, cost, List.length_nil, Nat.mul_zero] at hset
    simp only [bound]
    omega
  | @executeOn outcome idle rest c calls hi hscan hcalm =>
    have hrejected := hset (.call c :: .execute calls idle :: rest) hi
    have hran := hset (.call c :: .ran c :: .execute calls idle :: rest) hi
    have hset := hset (.execute calls idle :: rest) hi
    simp only [List.flatMap_cons, List.length_append, length_costs, cost, List.length_cons, Nat.mul_add,
      Nat.mul_one] at hset hrejected hran
    refine ⟨by cases outcome <;> exact hn, ?_⟩
    cases outcome with
    | threw | ranAndThrew => cases hcalm
    | started =>
      simp only [bound, Dispatcher.executeOn, Stacks.held_concat, List.length_append, List.flatMap_cons, List.flatMap_nil,
        List.append_nil, length_costs, cost]
      omega
    | rejected | ran =>
      simp only [bound, Dispatcher.executeOn]
      omega
  | @decrement rest c hi =>
    refine ⟨hn, ?_⟩
    have hset := hset (.remove c :: rest) hi
    simp only [List.flatMap_cons, List.length_append, length_costs, cost] at hset
    simp only [bound, Dispatcher.decrement]
    omega
  | @remove rest c hi hscan =>
    rw [(hc.remove_eq hi).2]
    refine ⟨hn, ?_⟩
    have hset := hset (.promote s.idleCallback :: rest) hi
    simp only [List.flatMap_cons, List.length_append, length_costs, cost] at hset
    simp only [bound]
    omega
  | @removeSync rest c hi hscan =>
    rw [(hc.removeSync_eq hi).2]
    refine ⟨hn, ?_⟩
    have hset := hset (.promote s.idleCallback :: rest) hi
    simp only [List.flatMap_cons, List.length_append, length_costs, cost] at hset
    simp only [bound]
    omega

/-- A thread goes on, without an exception. -/
def GoesOn (_ : Dispatcher) : Act → Prop
  | .thread _ outcome => outcome.throws = false
  | _ => False

/-- If no thread can go on, all are done: the one in the loop could, or else any other. -/
theorem done_of_stuck (hc : Conserved s) (hstuck : ∀ i outcome, s.stepThread i outcome = none) :
    ∀ stack ∈ s.threads, stack = [] := by
  intro stack hstack
  obtain ⟨i, hi⟩ := List.mem_iff_getElem?.mp hstack
  cases hscan : s.scan with
  | some scan =>
    obtain ⟨⟨idle, rest, hthread⟩, -⟩ := hc.scanning scan hscan
    have hnone := hstuck scan.thread .started
    rw [stepThread, hthread, hscan] at hnone
    dsimp only at hnone
    rw [if_pos rfl] at hnone
    cases hnone
  | none =>
    have hnone := hstuck i .started
    rw [stepThread, hi, hscan] at hnone
    cases stack with
    | nil => rfl
    | cons frame rest =>
      cases frame with
      | execute calls idle => cases calls <;> cases hnone
      | promote => cases hnone
      | call => cases hnone
      | remove => cases hnone
      | ran => cases hnone
      | rethrow => cases hnone
      | syncCall => cases hnone

/-- From any state of a run without an exception, if no more methods are called and no exception comes, the threads take only
finitely many steps, in whatever order they come; and when none can go on, nothing is left to do: no call is ready or running,
and every one that was enqueued has been finished. -/
theorem calls_finish (h : (lts.restrict Calm).Reachable s) : (lts.restrict GoesOn).Halts s ∧
    ((∀ i outcome, s.stepThread i outcome = none) → s.readyAsyncCalls = [] ∧ s.runningAsyncCalls = [] ∧
      s.runningSyncCalls = [] ∧ ∀ c < s.calls.length, s.finished.count c = 1) := by
  refine ⟨?_, fun hstuck => finished_of_done h (done_of_stuck (conserved_of_reachable h) hstuck)⟩
  refine Lts.halts_of_measure
    (I := fun t => (Conserved t ∧ Quiet t) ∧ t.readyAsyncCalls.length ≤ s.readyAsyncCalls.length)
    (bound s.readyAsyncCalls.length) (fun t a t' hI hstep => ?_) ⟨conserved_quiet_of_reachable h, Nat.le_refl _⟩
  obtain ⟨⟨hc, hquiet⟩, hle⟩ := hI
  obtain ⟨hgoes, hstep⟩ := hstep
  cases a with
  | thread i outcome =>
    have hthread := threadStep_of_stepThread hquiet hgoes hstep
    obtain ⟨hlength, hlt⟩ := hthread.bound_lt hc hle
    exact ⟨⟨⟨hc.threadStep hthread, hthread.quiet hc hquiet⟩, hlength⟩, hlt⟩
  | enqueue => exact hgoes.elim
  | execute => exact hgoes.elim
  | setMaxRequests => exact hgoes.elim
  | setMaxRequestsPerHost => exact hgoes.elim
  | setIdleCallback => exact hgoes.elim

/-- One call from its beginning to its end, in two threads. -/
def oneCallActs : List Act :=
  .enqueue "host" false :: List.replicate 4 (.thread 0 .started) ++ List.replicate 5 (.thread 1 .started) ++ [.thread 0 .started]

theorem calls_finish_one_call : ∃ s, (lts.restrict Calm).Reachable s ∧ (lts.restrict GoesOn).Halts s ∧ s.readyAsyncCalls = [] ∧
    s.runningAsyncCalls = [] ∧ s.runningSyncCalls = [] ∧ ∀ c < s.calls.length, s.finished.count c = 1 := by
  have hrun : (Lts.replayIf step (fun s a => decide (Calm s a)) new oneCallActs).map (·.threads) = some [[], []] := by
    decide +kernel
  obtain ⟨s, hs, hthreads⟩ := Option.map_eq_some_iff.mp hrun
  have hr : (lts.restrict Calm).Reachable s :=
    Lts.replayIf_reachable (fun _ _ _ => id) (fun _ _ => of_decide_eq_true) _ (.init rfl) hs
  have hstuck : ∀ i outcome, s.stepThread i outcome = none := by
    intro i outcome
    rw [stepThread, hthreads]
    rcases i with _ | _ | i <;> rfl
  exact ⟨s, hr, (calls_finish hr).1, (calls_finish hr).2 hstuck⟩

/-! ## The limits -/

/-- No call is for a web socket, no limit is lowered, and no exception comes. -/
def Gentle (s : Dispatcher) : Act → Prop
  | .enqueue _ forWebSocket => forWebSocket = false
  | .setMaxRequests n => s.maxRequests ≤ n
  | .setMaxRequestsPerHost n => s.maxRequestsPerHost ≤ n
  | .thread _ outcome => outcome.throws = false
  | _ => True

instance (s : Dispatcher) : DecidablePred (Gentle s)
  | .enqueue _ _ => inferInstanceAs (Decidable (_ = _))
  | .setMaxRequests _ => inferInstanceAs (Decidable (_ ≤ _))
  | .setMaxRequestsPerHost _ => inferInstanceAs (Decidable (_ ≤ _))
  | .execute => inferInstanceAs (Decidable True)
  | .setIdleCallback _ => inferInstanceAs (Decidable True)
  | .thread _ _ => inferInstanceAs (Decidable (_ = _))

theorem Gentle.calm {a : Act} (h : Gentle s a) : Calm s a := by
  cases a with
  | thread => exact h
  | _ => exact trivial

/-- The calls of one host that are ready or running refer to one `AtomicInteger`, and the limits are kept. -/
structure Limited (s : Dispatcher) : Prop where
  shared : ∀ c ∈ s.readyAsyncCalls ++ s.runningAsyncCalls, ∀ d ∈ s.readyAsyncCalls ++ s.runningAsyncCalls,
    s.host c = s.host d → s.counterOf c = s.counterOf d
  capacity : s.runningAsyncCalls.length ≤ s.maxRequests
  perHost : ∀ k, s.counters.getD k 0 ≤ s.maxRequestsPerHost

theorem host_congr (h : s'.calls = s.calls) : s'.host = s.host := by
  funext c
  rw [host, h, host]

/-- A step that takes no call in, puts none among the running ones and counts none. -/
theorem Limited.of_le (h : Limited s) (hcalls : s'.calls = s.calls)
    (hmem : ∀ c ∈ s'.readyAsyncCalls ++ s'.runningAsyncCalls, c ∈ s.readyAsyncCalls ++ s.runningAsyncCalls)
    (hlength : s'.runningAsyncCalls.length ≤ s.runningAsyncCalls.length)
    (hcounters : ∀ k, s'.counters.getD k 0 ≤ s.counters.getD k 0) (hmax : s.maxRequests ≤ s'.maxRequests)
    (hhost : s.maxRequestsPerHost ≤ s'.maxRequestsPerHost) : Limited s' where
  shared := by
    rw [host_congr hcalls, counterOf_congr hcalls]
    exact fun c hc d hd => h.shared c (hmem c hc) d (hmem d hd)
  capacity := by
    have := h.capacity
    omega
  perHost k := by
    have := hcounters k
    have := h.perHost k
    omega

/-- The loop takes a call that there is room for. -/
theorem Limited.promote {i c : Nat} {ready executable : List Nat} (h : Limited s) (hc : Conserved s)
    (hscan : s.scan = some ⟨i, c :: ready, executable⟩) (hmax : s.runningAsyncCalls.length < s.maxRequests)
    (hhost : s.counters.getD (s.counterOf c) 0 < s.maxRequestsPerHost) :
    Limited (s.promote ⟨i, c :: ready, executable⟩ c ready) := by
  have hready : c ∈ s.readyAsyncCalls := hc.mem_ready hscan List.mem_cons_self
  have hcounter := hc.counter_lt (hc.lt_of_ready hready)
  have hmem : ∀ x ∈ s.readyAsyncCalls.erase c ++ (s.runningAsyncCalls ++ [c]), x ∈ s.readyAsyncCalls ++ s.runningAsyncCalls := by
    intro x hx
    rcases List.mem_append.mp hx with hx | hx
    · exact List.mem_append_left _ (List.mem_of_mem_erase hx)
    · rcases List.mem_append.mp hx with hx | hx
      · exact List.mem_append_right _ hx
      · obtain rfl := List.mem_singleton.mp hx
        exact List.mem_append_left _ hready
  refine ⟨fun x hx y hy => h.shared x (hmem x hx) y (hmem y hy), ?_, fun k => ?_⟩
  · change ((s.runningAsyncCalls ++ [c]).length : Int) ≤ s.maxRequests
    rw [List.length_append, List.length_singleton]
    omega
  · change (s.counters.modify (s.counterOf c) (· + 1)).getD k 0 ≤ s.maxRequestsPerHost
    rw [getD_modify hcounter]
    have hk := h.perHost k
    split
    · rename_i heq
      subst heq
      omega
    · exact hk

/-- A new call refers to the `AtomicInteger` of the other calls of its host. -/
theorem Limited.enqueue (h : Limited s) (hc : Conserved s) (hpos : 1 ≤ s.maxRequestsPerHost) (host : String) :
    Limited (s.enqueue host false) := by
  have hlt : ∀ c ∈ s.readyAsyncCalls ++ s.runningAsyncCalls, c < s.calls.length := by
    intro c hmem
    rcases List.mem_append.mp hmem with hready | hrunning
    · exact hc.lt_of_ready hready
    · refine hc.lt_of_held ?_
      rw [← List.count_pos_iff, ← hc.running, List.count_pos_iff]
      exact hrunning
  have hold : ∀ c ∈ s.readyAsyncCalls ++ s.runningAsyncCalls,
      (s.enqueue host false).host c = s.host c ∧ (s.enqueue host false).counterOf c = s.counterOf c := by
    intro c hmem
    have hget : (s.enqueue host false).calls[c]? = s.calls[c]? := by
      change (s.calls ++ [_])[c]? = _
      rw [List.getElem?_append_left (hlt c hmem)]
    rw [Dispatcher.host, counterOf, hget]
    exact ⟨rfl, rfl⟩
  have hget : (s.enqueue host false).calls[s.calls.length]? =
      some ⟨host, false, (s.findExistingCallWithHost host).elim s.calls.length s.counterOf⟩ := by
    change (s.calls ++ [_])[s.calls.length]? = _
    rw [List.getElem?_append_right (Nat.le_refl _), Nat.sub_self]
    cases s.findExistingCallWithHost host <;> rfl
  have hnewHost : (s.enqueue host false).host s.calls.length = some host := by
    rw [Dispatcher.host, hget]
    rfl
  -- The first call of the host that is found stands for all of them.
  have hnew : ∀ d ∈ s.readyAsyncCalls ++ s.runningAsyncCalls, s.host d = some host →
      (s.enqueue host false).counterOf s.calls.length = s.counterOf d := by
    intro d hd hhost
    have hswap : ∀ c, c ∈ s.runningAsyncCalls ++ s.readyAsyncCalls → c ∈ s.readyAsyncCalls ++ s.runningAsyncCalls :=
      fun c hmem => List.mem_append.mpr (List.mem_append.mp hmem).symm
    cases hfind : s.findExistingCallWithHost host with
    | none =>
      have hnone := List.find?_eq_none.mp hfind d (List.mem_append.mpr (List.mem_append.mp hd).symm)
      exact absurd (decide_eq_true hhost) hnone
    | some existing =>
      have hexisting : s.host existing = some host := by
        rw [findExistingCallWithHost] at hfind
        simpa using List.find?_some hfind
      rw [counterOf, hget, hfind]
      exact h.shared existing (hswap _ (List.mem_of_find?_eq_some hfind)) d hd (hexisting.trans hhost.symm)
  refine ⟨fun c hmemc d hmemd hsame => ?_, h.capacity, fun k => ?_⟩
  · have hsplit : ∀ c ∈ (s.readyAsyncCalls ++ [s.calls.length]) ++ s.runningAsyncCalls,
        c ∈ s.readyAsyncCalls ++ s.runningAsyncCalls ∨ c = s.calls.length := by
      intro c hmem
      simp only [List.mem_append, List.mem_singleton] at hmem ⊢
      tauto
    rcases hsplit c hmemc with hmemc | rfl <;> rcases hsplit d hmemd with hmemd | rfl
    · rw [(hold c hmemc).1, (hold d hmemd).1] at hsame
      rw [(hold c hmemc).2, (hold d hmemd).2]
      exact h.shared c hmemc d hmemd hsame
    · rw [(hold c hmemc).1, hnewHost] at hsame
      rw [(hold c hmemc).2, hnew c hmemc hsame]
    · rw [(hold d hmemd).1, hnewHost] at hsame
      rw [(hold d hmemd).2, hnew d hmemd hsame.symm]
    · rfl
  · change (s.counters ++ [0]).getD k 0 ≤ s.maxRequestsPerHost
    have hk := h.perHost k
    rw [List.getD_eq_getElem?_getD] at hk ⊢
    rcases Nat.lt_or_ge k s.counters.length with hlt | hge
    · rw [List.getElem?_append_left hlt]
      exact hk
    · rw [List.getElem?_append_right hge]
      cases k - s.counters.length with
      | zero => simp; omega
      | succ n => simp; omega

theorem ThreadStep.limited {i : Nat} (hstep : ThreadStep s i s') (h : Limited s) (hc : Conserved s) : Limited s' := by
  cases hstep with
  | promote hi hscan hmax hhost => exact h.promote hc hscan hmax hhost
  | @executeOn outcome => cases outcome <;> exact ⟨h.shared, h.capacity, h.perHost⟩
  | ran => exact ⟨h.shared, h.capacity, h.perHost⟩
  | @decrement rest c hi =>
    have hmem : c ∈ s.held := List.mem_append_left _ (Stacks.mem_held hi (List.mem_append_left _ List.mem_cons_self))
    have hcounter := hc.counter_lt (hc.lt_of_held hmem)
    refine h.of_le rfl (fun _ => id) (Nat.le_refl _) (fun k => ?_) (Int.le_refl _) (Int.le_refl _)
    change (s.counters.modify _ _).getD k 0 ≤ _
    rw [getD_modify hcounter]
    split <;> omega
  | @remove rest c hi =>
    rw [(hc.remove_eq hi).2]
    refine h.of_le rfl (fun c hmem => ?_) List.length_erase_le (fun k => Int.le_refl _) (Int.le_refl _) (Int.le_refl _)
    rcases List.mem_append.mp hmem with hready | hrunning
    · exact List.mem_append_left _ hready
    · exact List.mem_append_right _ (List.mem_of_mem_erase hrunning)
  | removeSync hi =>
    rw [(hc.removeSync_eq hi).2]
    exact ⟨h.shared, h.capacity, h.perHost⟩
  | begin => exact ⟨h.shared, h.capacity, h.perHost⟩
  | skip => exact ⟨h.shared, h.capacity, h.perHost⟩
  | finish => exact ⟨h.shared, h.capacity, h.perHost⟩
  | idle => exact ⟨h.shared, h.capacity, h.perHost⟩

theorem limited_of_reachable (h : (lts.restrict Gentle).Reachable s) : Limited s := by
  refine h.invariant (fun s hs => ?_) ?_
  · obtain rfl : s = new := hs
    exact ⟨fun c hc => absurd hc List.not_mem_nil, by decide, fun k => by simp [new]⟩
  · rintro s a s' hr hl ⟨hgentle, hstep⟩
    have hcalm := hr.restrict_mono fun _ _ => Gentle.calm
    have hc := conserved_of_reachable hcalm
    have hpos := limits_pos hcalm
    rcases step_cases (quiet_of_reachable hcalm) hgentle.calm hstep with ⟨i, hthread⟩ | ⟨-, hmethod⟩
    · exact hthread.limited hl hc
    cases a with
    | enqueue host forWebSocket =>
      obtain rfl : forWebSocket = false := hgentle
      obtain rfl := Option.some.inj hmethod
      exact hl.enqueue hc hpos.2 host
    | execute =>
      obtain rfl := Option.some.inj hmethod
      exact ⟨hl.shared, hl.capacity, hl.perHost⟩
    | setMaxRequests n =>
      rw [callMethod] at hmethod
      split at hmethod
      · cases hmethod
      · obtain rfl := Option.some.inj hmethod
        exact hl.of_le rfl (fun _ => id) (Nat.le_refl _) (fun k => Int.le_refl _) hgentle (Int.le_refl _)
    | setMaxRequestsPerHost n =>
      rw [callMethod] at hmethod
      split at hmethod
      · cases hmethod
      · obtain rfl := Option.some.inj hmethod
        exact hl.of_le rfl (fun _ => id) (Nat.le_refl _) (fun k => Int.le_refl _) (Int.le_refl _) hgentle
    | setIdleCallback idleCallback =>
      obtain rfl := Option.some.inj hmethod
      exact ⟨hl.shared, hl.capacity, hl.perHost⟩
    | thread => cases hmethod

/-- In every run without calls for web sockets and without an exception in which the limits are not lowered, at every moment
at most `maxRequests` calls are running, and for each host at most `maxRequestsPerHost` calls have been promoted and not come
to the end of their work. -/
theorem limits_kept (h : (lts.restrict Gentle).Reachable s) :
    s.runningAsyncCalls.length ≤ s.maxRequests ∧
      ∀ host : String, (s.counted.countP fun c => s.host c = some host : Nat) ≤ s.maxRequestsPerHost := by
  have hl := limited_of_reachable h
  have hcalm := h.restrict_mono fun _ _ => Gentle.calm
  have hc := conserved_of_reachable hcalm
  refine ⟨hl.capacity, fun host => ?_⟩
  rcases Nat.eq_zero_or_pos (s.counted.countP fun c => s.host c = some host) with hzero | hpos
  · rw [hzero]
    have := (limits_pos hcalm).2
    omega
  -- One of these calls stands for all: they refer to the same `AtomicInteger`, and it counts them.
  obtain ⟨c, hcounted, hhost⟩ := List.countP_pos_iff.mp hpos
  have hhost : s.host c = some host := of_decide_eq_true hhost
  have hrunning : ∀ {d}, d ∈ s.counted → d ∈ s.readyAsyncCalls ++ s.runningAsyncCalls := by
    intro d hd
    refine List.mem_append_right _ ?_
    rw [← List.count_pos_iff, hc.running, List.count_pos_iff]
    exact held_of_counted hd
  have hle : (s.counted.countP fun d => s.host d = some host) ≤ s.counted.countP fun d => s.counterOf d = s.counterOf c := by
    refine List.countP_mono_left fun d hd hsame => ?_
    have hsame : s.host d = some host := of_decide_eq_true hsame
    exact decide_eq_true (hl.shared d (hrunning hd) c (hrunning hcounted) (hsame.trans hhost.symm))
  have hlt : s.counterOf c < s.counters.length :=
    hc.counter_lt (hc.lt_of_held (held_of_counted hcounted))
  have hcounter := hc.counters _ hlt
  have hlimit := hl.perHost (s.counterOf c)
  omega

/-- Seven calls to one host, whose executor has not come to any of them. -/
def sevenCallsActs : List Act :=
  List.replicate 7 (.enqueue "host" false) ++ List.replicate 9 (.thread 0 .started)

/-- Five of them are promoted, and two have to wait. -/
theorem limits_kept_seven_calls : ∃ s, (lts.restrict Gentle).Reachable s ∧ s.readyAsyncCalls = [5, 6] ∧
    (s.runningAsyncCalls.length ≤ s.maxRequests ∧
      ∀ host : String, (s.counted.countP fun c => s.host c = some host : Nat) ≤ s.maxRequestsPerHost) := by
  have hrun : (Lts.replayIf step (fun s a => decide (Gentle s a)) new sevenCallsActs).map (·.readyAsyncCalls) =
      some [5, 6] := by decide +kernel
  obtain ⟨s, hs, hready⟩ := Option.map_eq_some_iff.mp hrun
  have hr : (lts.restrict Gentle).Reachable s :=
    Lts.replayIf_reachable (fun _ _ _ => id) (fun _ _ => of_decide_eq_true) _ (.init rfl) hs
  exact ⟨s, hr, hready, limits_kept hr⟩

end Dispatcher

end Okhttp3

end LibraLive

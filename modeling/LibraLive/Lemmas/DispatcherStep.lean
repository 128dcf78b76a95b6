import LibraLive.Okhttp3.Dispatcher

/-!
# Where the calls are

What a step of a thread can be, if no exception comes from an executor or a callback, is said once (`ThreadStep`). Each
asynchronous call is ready, or held by one frame of one thread or by the loop of `promoteAndExecute`, or finished, and an
`AtomicInteger` counts the calls that refer to it and are held by something that has not come to its decrement (`Conserved`).
-/

namespace LibraLive

namespace Okhttp3

open Stacks

/-- The asynchronous calls that a frame holds. -/
def Frame.calls : Frame → List Nat
  | .execute calls _ => calls
  | .call c => [c]
  | .remove c => [c]
  | _ => []

/-- Those of them that the `AtomicInteger`s count. -/
def Frame.counted : Frame → List Nat
  | .execute calls _ => calls
  | .call c => [c]
  | _ => []

/-- The synchronous call of a frame. -/
def Frame.syncCalls : Frame → List Nat
  | .syncCall c => [c]
  | _ => []

namespace Dispatcher

variable {s s' : Dispatcher}

/-! ## Steps of a thread -/

/-- What a step of thread `i` can be. -/
inductive ThreadStep (s : Dispatcher) (i : Nat) : Dispatcher → Prop where
  | begin {idle : Bool} {rest : List Frame} : s.threads[i]? = some (.promote idle :: rest) → s.scan = none →
    ThreadStep s i { s with scan := some ⟨i, s.readyAsyncCalls, []⟩ }
  | promote {idle : Bool} {rest : List Frame} {call : Nat} {ready executable : List Nat} :
    s.threads[i]? = some (.promote idle :: rest) → s.scan = some ⟨i, call :: ready, executable⟩ →
    s.runningAsyncCalls.length < s.maxRequests → s.counters.getD (s.counterOf call) 0 < s.maxRequestsPerHost →
    ThreadStep s i (s.promote ⟨i, call :: ready, executable⟩ call ready)
  | skip {idle : Bool} {rest : List Frame} {call : Nat} {ready executable : List Nat} :
    s.threads[i]? = some (.promote idle :: rest) → s.scan = some ⟨i, call :: ready, executable⟩ →
    s.maxRequestsPerHost ≤ s.counters.getD (s.counterOf call) 0 →
    ThreadStep s i { s with scan := some ⟨i, ready, executable⟩ }
  | finish {idle : Bool} {rest : List Frame} {ready executable : List Nat} :
    s.threads[i]? = some (.promote idle :: rest) → s.scan = some ⟨i, ready, executable⟩ →
    (ready = [] ∨ s.maxRequests ≤ s.runningAsyncCalls.length) →
    ThreadStep s i (s.promoteEnd ⟨i, ready, executable⟩ idle rest)
  | idle {idle : Bool} {rest : List Frame} : s.threads[i]? = some (.execute [] idle :: rest) →
    ThreadStep s i { s with idled := if idle then s.idled + 1 else s.idled, threads := s.threads.set i rest }
  | ran {rest : List Frame} {c : Nat} : s.threads[i]? = some (.ran c :: rest) →
    ThreadStep s i { s with threads := s.threads.set i rest }
  | executeOn {outcome : Outcome} {idle : Bool} {rest : List Frame} {c : Nat} {calls : List Nat} :
    s.threads[i]? = some (.execute (c :: calls) idle :: rest) → s.scan = none → outcome.throws = false →
    ThreadStep s i (s.executeOn i outcome c calls idle rest)
  | decrement {rest : List Frame} {c : Nat} : s.threads[i]? = some (.call c :: rest) → ThreadStep s i (s.decrement i c rest)
  | remove {rest : List Frame} {c : Nat} : s.threads[i]? = some (.remove c :: rest) → s.scan = none →
    ThreadStep s i (s.remove i c rest)
  | removeSync {rest : List Frame} {c : Nat} : s.threads[i]? = some (.syncCall c :: rest) → s.scan = none →
    ThreadStep s i (s.removeSync i c rest)

/-- A round of the loop takes the next call, or passes it, or ends the loop. -/
theorem ThreadStep.of_round {scan : Scan} {idle : Bool} {rest : List Frame}
    (hi : s.threads[scan.thread]? = some (.promote idle :: rest)) (hscan : s.scan = some scan) :
    ThreadStep s scan.thread (s.promoteAndExecute scan idle rest) := by
  obtain ⟨i, ready, executable⟩ := scan
  cases ready with
  | nil => exact .finish hi hscan (.inl rfl)
  | cons call ready =>
    rw [promoteAndExecute]
    dsimp only
    by_cases hfull : s.maxRequests ≤ s.runningAsyncCalls.length
    · rw [if_pos hfull]
      exact .finish hi hscan (.inr hfull)
    rw [if_neg hfull]
    by_cases hhost : s.maxRequestsPerHost ≤ s.counters.getD (s.counterOf call) 0
    · rw [if_pos hhost]
      exact .skip hi hscan hhost
    · rw [if_neg hhost]
      exact .promote hi hscan (Int.not_le.mp hfull) (Int.not_le.mp hhost)

/-- No thread has an exception on its way. -/
def Quiet (s : Dispatcher) : Prop := ∀ stack ∈ s.threads, Frame.rethrow ∉ stack

theorem threadStep_of_stepThread {i : Nat} {outcome : Outcome} (hquiet : Quiet s) (hcalm : outcome.throws = false)
    (hstep : s.stepThread i outcome = some s') : ThreadStep s i s' := by
  rw [stepThread] at hstep
  split at hstep
  · cases hstep
  · cases hstep
  · rename_i hi
    obtain rfl := Option.some.inj hstep
    exact .decrement hi
  · rename_i hi
    rw [hcalm, Bool.and_false, if_neg Bool.false_ne_true] at hstep
    obtain rfl := Option.some.inj hstep
    exact .idle hi
  · rename_i hi
    obtain rfl := Option.some.inj hstep
    exact .ran hi
  · rename_i hi
    exact absurd List.mem_cons_self (hquiet _ (List.mem_of_getElem? hi))
  · rename_i hi hscan
    split at hstep
    · rename_i hthread
      obtain rfl := hthread
      obtain rfl := Option.some.inj hstep
      exact .of_round hi hscan
    · cases hstep
  · rename_i hi hscan
    obtain rfl := Option.some.inj hstep
    exact .begin hi hscan
  · rename_i hi hscan
    obtain rfl := Option.some.inj hstep
    exact .executeOn hi hscan hcalm
  · rename_i hi hscan
    obtain rfl := Option.some.inj hstep
    exact .remove hi hscan
  · rename_i hi hscan
    obtain rfl := Option.some.inj hstep
    exact .removeSync hi hscan
  · cases hstep

/-- No exception leaves an `executeOn` or the idle callback. -/
def Calm (_ : Dispatcher) : Act → Prop
  | .thread _ outcome => outcome.throws = false
  | _ => True

instance (s : Dispatcher) : DecidablePred (Calm s)
  | .thread _ _ => inferInstanceAs (Decidable (_ = _))
  | .enqueue _ _ => inferInstanceAs (Decidable True)
  | .execute => inferInstanceAs (Decidable True)
  | .setMaxRequests _ => inferInstanceAs (Decidable True)
  | .setMaxRequestsPerHost _ => inferInstanceAs (Decidable True)
  | .setIdleCallback _ => inferInstanceAs (Decidable True)

/-- What a step can be: a step of a thread, or, when no thread has the lock, a new one that calls a method. -/
theorem step_cases {a : Act} (hquiet : Quiet s) (hcalm : Calm s a) (hstep : s.step a = some s') :
    (∃ i, ThreadStep s i s') ∨ (s.scan = none ∧ s.callMethod a = some s') := by
  have hmethod : (if s.scan.isSome then none else s.callMethod a) = some s' → s.scan = none ∧ s.callMethod a = some s' := by
    intro h
    cases hscan : s.scan with
    | none =>
      rw [hscan] at h
      exact ⟨rfl, h⟩
    | some scan =>
      rw [hscan] at h
      cases h
  cases a with
  | thread i outcome => exact .inl ⟨i, threadStep_of_stepThread hquiet hcalm hstep⟩
  | enqueue => exact .inr (hmethod hstep)
  | execute => exact .inr (hmethod hstep)
  | setMaxRequests => exact .inr (hmethod hstep)
  | setMaxRequestsPerHost => exact .inr (hmethod hstep)
  | setIdleCallback => exact .inr (hmethod hstep)

/-- A thread that goes on changes neither the limits nor the calls. -/
theorem ThreadStep.same {i : Nat} (hstep : ThreadStep s i s') :
    s'.maxRequests = s.maxRequests ∧ s'.maxRequestsPerHost = s.maxRequestsPerHost ∧ s'.calls = s.calls := by
  cases hstep with
  | @executeOn outcome => cases outcome <;> exact ⟨rfl, rfl, rfl⟩
  | remove =>
    unfold Dispatcher.remove
    split <;> exact ⟨rfl, rfl, rfl⟩
  | removeSync =>
    unfold Dispatcher.removeSync
    split <;> exact ⟨rfl, rfl, rfl⟩
  | _ => exact ⟨rfl, rfl, rfl⟩

/-! ## What is held -/

/-- What the loop of `promoteAndExecute` took. -/
def executable (s : Dispatcher) : List Nat := (s.scan.map (·.executableCalls)).getD []

/-- The calls that the loop has not come to. -/
def unseen (s : Dispatcher) : List Nat := (s.scan.map (·.rest)).getD []

/-- The calls that threads hold. -/
def held (s : Dispatcher) : List Nat := Stacks.held Frame.calls s.threads ++ s.executable

/-- The calls that are counted. -/
def counted (s : Dispatcher) : List Nat := Stacks.held Frame.counted s.threads ++ s.executable

/-- The synchronous calls that threads hold. -/
def syncHeld (s : Dispatcher) : List Nat := Stacks.held Frame.syncCalls s.threads

theorem counterOf_congr (h : s'.calls = s.calls) : s'.counterOf = s.counterOf := by
  funext c
  rw [counterOf, h, counterOf]

/-- What is counted is held. -/
theorem held_of_counted {c : Nat} (hc : c ∈ s.counted) : c ∈ s.held := by
  rcases List.mem_append.mp hc with hc | hc
  · obtain ⟨stack, hstack, hc⟩ := List.mem_flatMap.mp hc
    obtain ⟨frame, hframe, hc⟩ := List.mem_flatMap.mp hc
    refine List.mem_append_left _ (List.mem_flatMap.mpr ⟨stack, hstack, List.mem_flatMap.mpr ⟨frame, hframe, ?_⟩⟩)
    cases frame with
    | execute => exact hc
    | call => exact hc
    | remove => exact absurd hc List.not_mem_nil
    | promote => exact absurd hc List.not_mem_nil
    | ran => exact absurd hc List.not_mem_nil
    | rethrow => exact absurd hc List.not_mem_nil
    | syncCall => exact absurd hc List.not_mem_nil
  · exact List.mem_append_right _ hc

/-- A counter after a change. -/
theorem getD_modify {counters : List Int} {j : Nat} (hj : j < counters.length) (f : Int → Int) (k : Nat) :
    (counters.modify j f).getD k 0 = if k = j then f (counters.getD k 0) else counters.getD k 0 := by
  rw [List.getD_eq_getElem?_getD, List.getD_eq_getElem?_getD, List.getElem?_modify]
  by_cases hk : k = j
  · subst hk
    simp [List.getElem?_eq_getElem hj]
  · simp [hk, Ne.symm hk]

section
variable {i : Nat} {stack stack' : List Frame}

/-- What is held when a thread replaces its stack. -/
theorem held_set (s' : Dispatcher) (hi : s.threads[i]? = some stack) (ht : s'.threads = s.threads.set i stack')
    (hscan : s'.scan = s.scan) (c : Nat) :
    s'.held.count c + (stack.flatMap Frame.calls).count c = s.held.count c + (stack'.flatMap Frame.calls).count c := by
  have hset := Stacks.count_held_set (f := Frame.calls) stack' c hi
  rw [held, held, ht, executable, hscan, ← executable, List.count_append, List.count_append]
  omega

theorem counted_set (s' : Dispatcher) (hi : s.threads[i]? = some stack) (ht : s'.threads = s.threads.set i stack')
    (hscan : s'.scan = s.scan) (p : Nat → Bool) :
    s'.counted.countP p + (stack.flatMap Frame.counted).countP p =
      s.counted.countP p + (stack'.flatMap Frame.counted).countP p := by
  have hset := Stacks.countP_held_set (f := Frame.counted) stack' p hi
  rw [counted, counted, ht, executable, hscan, ← executable, List.countP_append, List.countP_append]
  omega

theorem syncHeld_set (s' : Dispatcher) (hi : s.threads[i]? = some stack) (ht : s'.threads = s.threads.set i stack') (c : Nat) :
    s'.syncHeld.count c + (stack.flatMap Frame.syncCalls).count c =
      s.syncHeld.count c + (stack'.flatMap Frame.syncCalls).count c := by
  rw [syncHeld, ht]
  exact Stacks.count_held_set stack' c hi

end

/-! ## Conservation -/

/-- The thread whose loop it is has the block before it, and the loop has only calls before it that are ready. -/
def Scanning (s : Dispatcher) : Prop :=
  ∀ scan, s.scan = some scan → (∃ idle rest, s.threads[scan.thread]? = some (.promote idle :: rest)) ∧
    ∀ c, scan.rest.count c ≤ s.readyAsyncCalls.count c

/-- Each asynchronous call has one place: it is ready, or held once, or finished. The calls that are running are those that are
held, and an `AtomicInteger` is the number of those that refer to it and have not come to their decrement. -/
structure Conserved (s : Dispatcher) : Prop where
  places : ∀ c, s.readyAsyncCalls.count c + s.held.count c + s.finished.count c = if c < s.calls.length then 1 else 0
  running : ∀ c, s.runningAsyncCalls.count c = s.held.count c
  sync : ∀ c, s.runningSyncCalls.count c = s.syncHeld.count c
  counters_length : s.counters.length = s.calls.length
  counterOf_lt : ∀ c < s.calls.length, s.counterOf c < s.calls.length
  counters : ∀ k < s.counters.length, s.counters.getD k 0 = (s.counted.countP fun c => s.counterOf c = k : Nat)
  scanning : Scanning s
  no_fault : s.fault = false

namespace Conserved

/-- A call that has a place was made. -/
theorem lt_of_held (h : Conserved s) {c : Nat} (hc : c ∈ s.held) : c < s.calls.length := by
  have hplaces := h.places c
  have hpos := List.count_pos_iff.mpr hc
  split at hplaces
  · assumption
  · omega

theorem lt_of_ready (h : Conserved s) {c : Nat} (hc : c ∈ s.readyAsyncCalls) : c < s.calls.length := by
  have hplaces := h.places c
  have hpos := List.count_pos_iff.mpr hc
  split at hplaces
  · assumption
  · omega

/-- The `AtomicInteger` of a call that was made exists. -/
theorem counter_lt (h : Conserved s) {c : Nat} (hc : c < s.calls.length) : s.counterOf c < s.counters.length :=
  h.counters_length ▸ h.counterOf_lt c hc

/-- A call that the loop comes to is ready. -/
theorem mem_ready (h : Conserved s) {scan : Scan} (hscan : s.scan = some scan) {c : Nat} (hc : c ∈ scan.rest) :
    c ∈ s.readyAsyncCalls := by
  have := (h.scanning scan hscan).2 c
  rw [← List.count_pos_iff] at hc ⊢
  omega

theorem new : Conserved .new :=
  ⟨fun _ => rfl, fun _ => rfl, fun _ => rfl, rfl, fun c hc => absurd hc (Nat.not_lt_zero c),
    fun k hk => absurd hk (Nat.not_lt_zero k), nofun, rfl⟩

/-- The calls move, none is lost, and what is counted stays the same. -/
theorem of_counts (h : Conserved s) (hcalls : s'.calls = s.calls) (hcounters : s'.counters = s.counters)
    (hfault : s'.fault = s.fault) (hscanning : Scanning s')
    (hplaces : ∀ c, s'.readyAsyncCalls.count c + s'.held.count c + s'.finished.count c =
      s.readyAsyncCalls.count c + s.held.count c + s.finished.count c)
    (hrunning : ∀ c, s'.runningAsyncCalls.count c + s.held.count c = s.runningAsyncCalls.count c + s'.held.count c)
    (hsync : ∀ c, s'.runningSyncCalls.count c + s.syncHeld.count c = s.runningSyncCalls.count c + s'.syncHeld.count c)
    (hcounted : ∀ p, s'.counted.countP p = s.counted.countP p) : Conserved s' where
  places c := by rw [hplaces, hcalls]; exact h.places c
  running c := by
    have := h.running c
    have := hrunning c
    omega
  sync c := by
    have := h.sync c
    have := hsync c
    omega
  counters_length := by rw [hcounters, hcalls]; exact h.counters_length
  counterOf_lt := by rw [hcalls, counterOf_congr hcalls]; exact h.counterOf_lt
  counters := by
    rw [hcounters, counterOf_congr hcalls]
    intro k hk
    rw [hcounted]
    exact h.counters k hk
  scanning := hscanning
  no_fault := hfault.trans h.no_fault

/-- A step after which the same is held. -/
theorem of_same (h : Conserved s) (hready : s'.readyAsyncCalls = s.readyAsyncCalls)
    (hrunning : s'.runningAsyncCalls = s.runningAsyncCalls) (hsync : s'.runningSyncCalls = s.runningSyncCalls)
    (hcalls : s'.calls = s.calls) (hcounters : s'.counters = s.counters) (hfinished : s'.finished = s.finished)
    (hfault : s'.fault = s.fault) (hscanning : Scanning s') (hheld : ∀ c, s'.held.count c = s.held.count c)
    (hcounted : ∀ p, s'.counted.countP p = s.counted.countP p) (hsyncHeld : ∀ c, s'.syncHeld.count c = s.syncHeld.count c) :
    Conserved s' :=
  h.of_counts hcalls hcounters hfault hscanning (fun c => by rw [hready, hheld, hfinished]) (fun c => by rw [hrunning, hheld])
    (fun c => by rw [hsync, hsyncHeld]) hcounted

variable {i c : Nat} {rest : List Frame} {calls ready executable : List Nat} {idle : Bool} {outcome : Outcome}

/-- Where no thread is in the loop. -/
theorem scanning_of_none (h : s.scan = none) : Scanning s := by
  intro scan hscan
  rw [h] at hscan
  cases hscan

/-- A thread whose next thing is another is not in the loop. -/
theorem ne_thread {frame : Frame} (h : Conserved s) (hi : s.threads[i]? = some (frame :: rest))
    (hframe : ∀ idle, frame ≠ .promote idle) : ∀ scan, s.scan = some scan → i ≠ scan.thread := by
  rintro scan hscan rfl
  obtain ⟨⟨idle, rest', hthread⟩, -⟩ := h.scanning scan hscan
  obtain ⟨rfl, -⟩ := List.cons.inj (Option.some.inj (hi.symm.trans hthread))
  exact hframe idle rfl

/-- A step of a thread that is not in the loop. -/
theorem scanning_set {frame : Frame} {stack' : List Frame} (h : Conserved s) (hi : s.threads[i]? = some (frame :: rest))
    (hframe : ∀ idle, frame ≠ .promote idle) (hscan : s'.scan = s.scan) (hready : s'.readyAsyncCalls = s.readyAsyncCalls)
    (ht : s'.threads = s.threads.set i stack') : Scanning s' := by
  intro scan hs
  rw [hscan] at hs
  obtain ⟨⟨idle, rest', hthread⟩, hcount⟩ := h.scanning scan hs
  refine ⟨⟨idle, rest', ?_⟩, hready ▸ hcount⟩
  rw [ht, List.getElem?_set_ne (h.ne_thread hi hframe scan hs), hthread]

/-- A thread that replaces its stack by one that holds the same. -/
theorem set_same {stack stack' : List Frame} (h : Conserved s) (hi : s.threads[i]? = some stack)
    (hscanning : Scanning { s with threads := s.threads.set i stack' })
    (hcalls : stack'.flatMap Frame.calls = stack.flatMap Frame.calls)
    (hcounted : stack'.flatMap Frame.counted = stack.flatMap Frame.counted)
    (hsync : stack'.flatMap Frame.syncCalls = stack.flatMap Frame.syncCalls) :
    Conserved { s with threads := s.threads.set i stack' } := by
  refine h.of_same rfl rfl rfl rfl rfl rfl rfl hscanning (fun c => ?_) (fun p => ?_) fun c => ?_
  · have hset := held_set { s with threads := s.threads.set i stack' } hi rfl rfl c
    rw [hcalls] at hset
    omega
  · have hset := counted_set { s with threads := s.threads.set i stack' } hi rfl rfl p
    rw [hcounted] at hset
    omega
  · have hset := syncHeld_set { s with threads := s.threads.set i stack' } hi rfl c
    rw [hsync] at hset
    omega

/-- The loop begins. -/
theorem begin (h : Conserved s) (hi : s.threads[i]? = some (.promote idle :: rest)) (hscan : s.scan = none) :
    Conserved { s with scan := some ⟨i, s.readyAsyncCalls, []⟩ } := by
  have hexecutable : s.executable = [] := by rw [executable, hscan]; rfl
  refine h.of_same rfl rfl rfl rfl rfl rfl rfl ?_ (fun c => ?_) (fun p => ?_) fun _ => rfl
  · intro scan hs
    obtain rfl := Option.some.inj hs
    exact ⟨⟨idle, rest, hi⟩, fun _ => Nat.le_refl _⟩
  · rw [held, held, hexecutable]
    rfl
  · rw [counted, counted, hexecutable]
    rfl

/-- The loop takes a call. -/
theorem promote (h : Conserved s) (hi : s.threads[i]? = some (.promote idle :: rest))
    (hscan : s.scan = some ⟨i, c :: ready, executable⟩) : Conserved (s.promote ⟨i, c :: ready, executable⟩ c ready) := by
  have hmem : c ∈ s.readyAsyncCalls := h.mem_ready hscan List.mem_cons_self
  have hcounter := h.counter_lt (h.lt_of_ready hmem)
  have hexecutable : s.executable = executable := by rw [Dispatcher.executable, hscan]; rfl
  have hheld : (s.promote ⟨i, c :: ready, executable⟩ c ready).held = s.held ++ [c] := by
    rw [held, held, hexecutable, List.append_assoc]
    rfl
  have hcounted : (s.promote ⟨i, c :: ready, executable⟩ c ready).counted = s.counted ++ [c] := by
    rw [counted, counted, hexecutable, List.append_assoc]
    rfl
  have hpos := List.count_pos_iff.mpr hmem
  refine ⟨fun x => ?_, fun x => ?_, h.sync, ?_, h.counterOf_lt, fun k hk => ?_, ?_, h.no_fault⟩
  · have hplaces := h.places x
    change (s.readyAsyncCalls.erase c).count x + _ + s.finished.count x = if x < s.calls.length then 1 else 0
    rw [hheld, List.count_append, List.count_singleton, List.count_erase]
    by_cases hx : c = x
    · subst hx
      simp only [beq_self_eq_true, if_true]
      omega
    · simp only [beq_iff_eq, hx, if_false]
      omega
  · change (s.runningAsyncCalls ++ [c]).count x = _
    rw [hheld, List.count_append, List.count_append, h.running]
  · change (s.counters.modify _ _).length = s.calls.length
    rw [List.length_modify, h.counters_length]
  · change k < (s.counters.modify _ _).length at hk
    rw [List.length_modify] at hk
    change (s.counters.modify _ _).getD k 0 =
      (((s.promote ⟨i, c :: ready, executable⟩ c ready).counted.countP fun c => s.counterOf c = k : Nat) : Int)
    rw [getD_modify hcounter, h.counters k hk, hcounted, List.countP_append, List.countP_singleton]
    by_cases hk : k = s.counterOf c
    · rw [if_pos hk, if_pos (decide_eq_true hk.symm)]
      push_cast
      rfl
    · rw [if_neg hk, if_neg (by simpa using Ne.symm hk)]
      rfl
  · intro scan hs
    obtain rfl := Option.some.inj hs
    refine ⟨⟨idle, rest, hi⟩, fun x => ?_⟩
    have hle := (h.scanning _ hscan).2 x
    change ready.count x ≤ (s.readyAsyncCalls.erase c).count x
    change (c :: ready).count x ≤ _ at hle
    rw [List.count_cons] at hle
    rw [List.count_erase]
    omega

/-- The loop passes a call. -/
theorem skip (h : Conserved s) (hi : s.threads[i]? = some (.promote idle :: rest))
    (hscan : s.scan = some ⟨i, c :: ready, executable⟩) : Conserved { s with scan := some ⟨i, ready, executable⟩ } := by
  have hexecutable : s.executable = executable := by rw [Dispatcher.executable, hscan]; rfl
  refine h.of_same rfl rfl rfl rfl rfl rfl rfl ?_ (fun x => ?_) (fun p => ?_) fun _ => rfl
  · intro scan hs
    obtain rfl := Option.some.inj hs
    refine ⟨⟨idle, rest, hi⟩, fun x => Nat.le_trans ?_ ((h.scanning _ hscan).2 x)⟩
    exact List.count_le_count_cons
  · rw [held, held, hexecutable]
    rfl
  · rw [counted, counted, hexecutable]
    rfl

/-- The loop ends. -/
theorem promoteEnd (h : Conserved s) (hi : s.threads[i]? = some (.promote idle :: rest))
    (hscan : s.scan = some ⟨i, ready, executable⟩) : Conserved (s.promoteEnd ⟨i, ready, executable⟩ idle rest) := by
  have hexecutable : s.executable = executable := by rw [Dispatcher.executable, hscan]; rfl
  have hnone : (s.promoteEnd ⟨i, ready, executable⟩ idle rest).executable = [] := rfl
  have hset : ∀ {f : Frame → List Nat} {isRunning : Bool}, f (.execute executable isRunning) = executable →
      f (.promote idle) = [] → ∀ p : Nat → Bool,
      (Stacks.held f (s.threads.set i (.execute executable isRunning :: rest)) ++ []).countP p =
        (Stacks.held f s.threads ++ executable).countP p := by
    intro f isRunning hexecute hpromote p
    have hset := Stacks.countP_held_set (f := f) (.execute executable isRunning :: rest) p hi
    simp only [List.flatMap_cons, hexecute, hpromote, List.nil_append, List.countP_append] at hset
    rw [List.countP_append, List.countP_append, List.countP_nil]
    omega
  refine h.of_same rfl rfl rfl rfl rfl rfl rfl (scanning_of_none rfl) (fun x => ?_) (fun p => ?_) fun x => ?_
  · rw [held, held, hexecutable, hnone]
    exact hset rfl rfl (· == x)
  · rw [counted, counted, hexecutable, hnone]
    exact hset rfl rfl p
  · have hsync := syncHeld_set (s.promoteEnd ⟨i, ready, executable⟩ idle rest) hi rfl x
    simp only [List.flatMap_cons, Frame.syncCalls, List.nil_append] at hsync
    omega

/-- `executeOn`. -/
theorem executeOn (h : Conserved s) (hi : s.threads[i]? = some (.execute (c :: calls) idle :: rest)) (hscan : s.scan = none)
    (hcalm : outcome.throws = false) : Conserved (s.executeOn i outcome c calls idle rest) := by
  cases outcome with
  | threw | ranAndThrew => cases hcalm
  | rejected | ran => exact h.set_same hi (scanning_of_none hscan) rfl rfl rfl
  | started =>
    have hset : ∀ {f : Frame → List Nat}, f (.execute (c :: calls) idle) = c :: f (.execute calls idle) →
        f (.call c) = [c] → ∀ p : Nat → Bool,
        (Stacks.held f (s.threads.set i (.execute calls idle :: rest) ++ [[.call c]]) ++ s.executable).countP p =
          (Stacks.held f s.threads ++ s.executable).countP p := by
      intro f hexecute hcall p
      have hset := Stacks.countP_held_set (f := f) (.execute calls idle :: rest) p hi
      simp only [List.flatMap_cons, hexecute, List.cons_append, List.countP_cons, List.countP_append] at hset
      rw [Stacks.held_concat, List.countP_append, List.countP_append, List.countP_append]
      simp only [List.flatMap_cons, hcall, List.flatMap_nil, List.append_nil, List.countP_cons, List.countP_nil]
      omega
    refine h.of_same rfl rfl rfl rfl rfl rfl rfl (scanning_of_none hscan) (fun x => hset rfl rfl (· == x))
      (fun p => hset rfl rfl p) fun x => ?_
    have hsync := Stacks.count_held_set (f := Frame.syncCalls) (.execute calls idle :: rest) x hi
    simp only [List.flatMap_cons, Frame.syncCalls, List.nil_append] at hsync
    change (Stacks.held Frame.syncCalls (s.threads.set i (.execute calls idle :: rest) ++ [[.call c]])).count x =
      (Stacks.held Frame.syncCalls s.threads).count x
    rw [Stacks.held_concat]
    simp only [List.flatMap_cons, Frame.syncCalls, List.flatMap_nil, List.append_nil]
    omega

/-- `callsPerHost().decrementAndGet()`. -/
theorem decrement (h : Conserved s) (hi : s.threads[i]? = some (.call c :: rest)) : Conserved (s.decrement i c rest) := by
  have hheld := held_set (s.decrement i c rest) hi rfl rfl
  have hcounted := counted_set (s.decrement i c rest) hi rfl rfl
  have hsync := syncHeld_set (s.decrement i c rest) hi rfl
  simp only [List.flatMap_cons, Frame.calls, Frame.counted, Frame.syncCalls, List.nil_append, List.count_append,
    List.countP_append] at hheld hcounted hsync
  have hmem : c ∈ s.held := List.mem_append_left _ (Stacks.mem_held hi (List.mem_append_left _ List.mem_cons_self))
  have hcounter := h.counter_lt (h.lt_of_held hmem)
  refine ⟨fun x => ?_, fun x => ?_, fun x => ?_, ?_, h.counterOf_lt, fun k hk => ?_, ?_, h.no_fault⟩
  · have := h.places x
    have := hheld x
    change s.readyAsyncCalls.count x + _ + s.finished.count x = if x < s.calls.length then 1 else 0
    omega
  · have := h.running x
    have := hheld x
    change s.runningAsyncCalls.count x = _
    omega
  · have := h.sync x
    have := hsync x
    change s.runningSyncCalls.count x = _
    omega
  · change (s.counters.modify _ _).length = s.calls.length
    rw [List.length_modify, h.counters_length]
  · change k < (s.counters.modify _ _).length at hk
    rw [List.length_modify] at hk
    change (s.counters.modify _ _).getD k 0 = (((s.decrement i c rest).counted.countP fun c => s.counterOf c = k : Nat) : Int)
    have := hcounted fun c => s.counterOf c = k
    rw [getD_modify hcounter, h.counters k hk]
    rw [List.countP_singleton] at this
    by_cases hk : k = s.counterOf c
    · rw [if_pos (decide_eq_true hk.symm)] at this
      rw [if_pos hk]
      omega
    · rw [if_neg (by simpa using Ne.symm hk)] at this
      rw [if_neg hk]
      omega
  · exact h.scanning_set hi (fun _ => nofun) rfl rfl rfl

/-- The block of `finished` finds its call. -/
theorem remove_eq (h : Conserved s) (hi : s.threads[i]? = some (.remove c :: rest)) :
    c ∈ s.runningAsyncCalls ∧ s.remove i c rest = { s with
      runningAsyncCalls := s.runningAsyncCalls.erase c
      finished := s.finished ++ [c]
      threads := s.threads.set i (.promote s.idleCallback :: rest) } := by
  have hmem : c ∈ s.held := List.mem_append_left _ (Stacks.mem_held hi (List.mem_append_left _ List.mem_cons_self))
  have hrunning : c ∈ s.runningAsyncCalls := by
    rw [← List.count_pos_iff, h.running, List.count_pos_iff]
    exact hmem
  exact ⟨hrunning, if_pos hrunning⟩

theorem remove (h : Conserved s) (hi : s.threads[i]? = some (.remove c :: rest)) (hscan : s.scan = none) :
    Conserved (s.remove i c rest) := by
  obtain ⟨hrunning, hremove⟩ := h.remove_eq hi
  have hthreads : (s.remove i c rest).threads = s.threads.set i (.promote s.idleCallback :: rest) := by rw [hremove]
  have hsame : (s.remove i c rest).scan = s.scan := by rw [hremove]
  have hheld := held_set (s.remove i c rest) hi hthreads hsame
  have hcounted := counted_set (s.remove i c rest) hi hthreads hsame
  have hsync := syncHeld_set (s.remove i c rest) hi hthreads
  simp only [List.flatMap_cons, Frame.calls, Frame.counted, Frame.syncCalls, List.nil_append, List.count_append,
    List.count_singleton] at hheld hcounted hsync
  refine h.of_counts ?_ ?_ ?_ (scanning_of_none (hsame.trans hscan)) (fun x => ?_) (fun x => ?_) (fun x => ?_) fun p => ?_
  · rw [hremove]
  · rw [hremove]
  · rw [hremove]
  · have := hheld x
    have hready : (s.remove i c rest).readyAsyncCalls = s.readyAsyncCalls := by rw [hremove]
    have hfinished : (s.remove i c rest).finished = s.finished ++ [c] := by rw [hremove]
    rw [hready, hfinished, List.count_append, List.count_singleton]
    omega
  · have := hheld x
    have herase : (s.remove i c rest).runningAsyncCalls = s.runningAsyncCalls.erase c := by rw [hremove]
    have hpos := List.count_pos_iff.mpr hrunning
    rw [herase, List.count_erase]
    by_cases hx : c = x
    · subst hx
      simp only [beq_self_eq_true, if_true] at this ⊢
      omega
    · simp only [beq_iff_eq, hx, if_false] at this ⊢
      omega
  · have := hsync x
    have hsame : (s.remove i c rest).runningSyncCalls = s.runningSyncCalls := by rw [hremove]
    rw [hsame]
    omega
  · have := hcounted p
    omega

/-- The block of `finished` finds a synchronous call. -/
theorem removeSync_eq (h : Conserved s) (hi : s.threads[i]? = some (.syncCall c :: rest)) :
    c ∈ s.runningSyncCalls ∧ s.removeSync i c rest = { s with
      runningSyncCalls := s.runningSyncCalls.erase c
      threads := s.threads.set i (.promote s.idleCallback :: rest) } := by
  have hmem : c ∈ s.syncHeld := Stacks.mem_held hi (List.mem_append_left _ List.mem_cons_self)
  have hrunning : c ∈ s.runningSyncCalls := by
    rw [← List.count_pos_iff, h.sync, List.count_pos_iff]
    exact hmem
  exact ⟨hrunning, if_pos hrunning⟩

theorem removeSync (h : Conserved s) (hi : s.threads[i]? = some (.syncCall c :: rest)) (hscan : s.scan = none) :
    Conserved (s.removeSync i c rest) := by
  obtain ⟨hrunning, hremove⟩ := h.removeSync_eq hi
  have hthreads : (s.removeSync i c rest).threads = s.threads.set i (.promote s.idleCallback :: rest) := by rw [hremove]
  have hsame : (s.removeSync i c rest).scan = s.scan := by rw [hremove]
  have hheld := held_set (s.removeSync i c rest) hi hthreads hsame
  have hcounted := counted_set (s.removeSync i c rest) hi hthreads hsame
  have hsync := syncHeld_set (s.removeSync i c rest) hi hthreads
  simp only [List.flatMap_cons, Frame.calls, Frame.counted, Frame.syncCalls, List.nil_append, List.count_append,
    List.count_singleton] at hheld hcounted hsync
  refine h.of_counts ?_ ?_ ?_ (scanning_of_none (hsame.trans hscan)) (fun x => ?_) (fun x => ?_) (fun x => ?_) fun p => ?_
  · rw [hremove]
  · rw [hremove]
  · rw [hremove]
  · have := hheld x
    have hready : (s.removeSync i c rest).readyAsyncCalls = s.readyAsyncCalls := by rw [hremove]
    have hfinished : (s.removeSync i c rest).finished = s.finished := by rw [hremove]
    rw [hready, hfinished]
    omega
  · have := hheld x
    have hsame : (s.removeSync i c rest).runningAsyncCalls = s.runningAsyncCalls := by rw [hremove]
    rw [hsame]
    omega
  · have := hsync x
    have herase : (s.removeSync i c rest).runningSyncCalls = s.runningSyncCalls.erase c := by rw [hremove]
    have hpos := List.count_pos_iff.mpr hrunning
    rw [herase, List.count_erase]
    by_cases hx : c = x
    · subst hx
      simp only [beq_self_eq_true, if_true] at this ⊢
      omega
    · simp only [beq_iff_eq, hx, if_false] at this ⊢
      omega
  · have := hcounted p
    omega

/-- The block of `enqueue`. -/
theorem enqueue (h : Conserved s) (hscan : s.scan = none) (host : String) (forWebSocket : Bool) :
    Conserved (s.enqueue host forWebSocket) := by
  have hold : ∀ c < s.calls.length, (s.enqueue host forWebSocket).counterOf c = s.counterOf c := by
    intro c hc
    change ((s.calls ++ [_])[c]?.map _).getD c = _
    rw [List.getElem?_append_left hc]
    rfl
  have hnew : (s.enqueue host forWebSocket).counterOf s.calls.length ≤ s.calls.length := by
    change ((s.calls ++ [_])[s.calls.length]?.map _).getD _ ≤ _
    rw [List.getElem?_append_right (Nat.le_refl _), Nat.sub_self]
    simp only [List.getElem?_cons_zero, Option.map_some, Option.getD_some]
    split
    · exact Nat.le_refl _
    · cases hfind : s.findExistingCallWithHost host with
      | none => exact Nat.le_refl _
      | some existing =>
        have hmem := List.mem_of_find?_eq_some hfind
        have hlt : existing < s.calls.length := by
          rcases List.mem_append.mp hmem with hrun | hready
          · refine h.lt_of_held ?_
            rw [← List.count_pos_iff, ← h.running, List.count_pos_iff]
            exact hrun
          · exact h.lt_of_ready hready
        exact Nat.le_of_lt (h.counterOf_lt existing hlt)
  have hheld : (s.enqueue host forWebSocket).held = s.held := by
    change Stacks.held Frame.calls (s.threads ++ [[.promote false]]) ++ s.executable = _
    simp [Frame.calls, held]
  have hcounted : (s.enqueue host forWebSocket).counted = s.counted := by
    change Stacks.held Frame.counted (s.threads ++ [[.promote false]]) ++ s.executable = _
    simp [Frame.counted, counted]
  have hsync : (s.enqueue host forWebSocket).syncHeld = s.syncHeld := by
    change Stacks.held Frame.syncCalls (s.threads ++ [[.promote false]]) = _
    simp [Frame.syncCalls, syncHeld]
  have hlength : (s.enqueue host forWebSocket).calls.length = s.calls.length + 1 := by
    change (s.calls ++ [_]).length = _
    rw [List.length_append, List.length_singleton]
  refine ⟨fun c => ?_, fun c => ?_, fun c => ?_, ?_, fun c hc => ?_, fun k hk => ?_, scanning_of_none hscan, h.no_fault⟩
  · have hplaces := h.places c
    rw [hheld, hlength]
    change (s.readyAsyncCalls ++ [s.calls.length]).count c + _ + s.finished.count c = _
    rw [List.count_append, List.count_singleton]
    by_cases hc : s.calls.length = c
    · subst hc
      simp only [beq_self_eq_true, if_true, Nat.lt_irrefl, if_false, Nat.lt_succ_self] at hplaces ⊢
      omega
    · simp only [beq_iff_eq, hc, if_false, Nat.add_zero]
      rw [hplaces]
      congr 1
      simp only [eq_iff_iff]
      omega
  · rw [hheld]
    exact h.running c
  · rw [hsync]
    exact h.sync c
  · rw [hlength, ← h.counters_length]
    change (s.counters ++ [0]).length = _
    rw [List.length_append, List.length_singleton]
  · rw [hlength] at hc ⊢
    rcases Nat.lt_succ_iff_lt_or_eq.mp hc with hc | rfl
    · rw [hold c hc]
      exact Nat.lt_succ_of_lt (h.counterOf_lt c hc)
    · exact Nat.lt_succ_of_le hnew
  · have hlt : ∀ c ∈ s.counted, c < s.calls.length := fun c hc => h.lt_of_held (held_of_counted hc)
    have hcongr : (s.enqueue host forWebSocket).counted.countP (fun c => (s.enqueue host forWebSocket).counterOf c = k) =
        s.counted.countP fun c => s.counterOf c = k := by
      rw [hcounted]
      exact List.countP_congr fun c hc => by rw [hold c (hlt c hc)]
    rw [hcongr]
    change k < (s.counters ++ [0]).length at hk
    change (s.counters ++ [0]).getD k 0 = _
    rw [List.length_append, List.length_singleton] at hk
    rw [List.getD_eq_getElem?_getD]
    rcases Nat.lt_succ_iff_lt_or_eq.mp hk with hk | rfl
    · rw [List.getElem?_append_left hk, ← List.getD_eq_getElem?_getD]
      exact h.counters k hk
    · have hnone : s.counted.countP (fun c => s.counterOf c = s.counters.length) = 0 := by
        rw [List.countP_eq_zero]
        intro c hc heq
        have := h.counterOf_lt c (hlt c hc)
        have := h.counters_length
        have := of_decide_eq_true heq
        omega
      rw [hnone, List.getElem?_append_right (Nat.le_refl _), Nat.sub_self]
      rfl

/-- A new thread that holds nothing. -/
theorem thread_new (h : Conserved s) (hscan : s.scan = none) (idle : Bool) :
    Conserved { s with threads := s.threads ++ [[.promote idle]] } :=
  h.of_same rfl rfl rfl rfl rfl rfl rfl (scanning_of_none hscan) (fun c => by simp [held, Frame.calls, Dispatcher.executable])
    (fun p => by simp [counted, Frame.counted, Dispatcher.executable]) (fun c => by simp [syncHeld, Frame.syncCalls])

/-- A method. -/
theorem callMethod (h : Conserved s) (hscan : s.scan = none) {a : Act} (hstep : s.callMethod a = some s') : Conserved s' := by
  cases a with
  | enqueue host forWebSocket =>
    obtain rfl := Option.some.inj hstep
    exact h.enqueue hscan host forWebSocket
  | execute =>
    obtain rfl := Option.some.inj hstep
    refine h.of_counts rfl rfl rfl (scanning_of_none hscan) (fun c => by simp [held, Frame.calls, Dispatcher.executable])
      (fun c => by simp [held, Frame.calls, Dispatcher.executable]) (fun c => ?_)
      fun p => by simp [counted, Frame.counted, Dispatcher.executable]
    simp only [syncHeld, Stacks.held_concat, List.count_append, List.flatMap_cons, Frame.syncCalls, List.flatMap_nil,
      List.append_nil]
    omega
  | setMaxRequests n =>
    rw [Dispatcher.callMethod] at hstep
    split at hstep
    · cases hstep
    · obtain rfl := Option.some.inj hstep
      exact (h.thread_new hscan false).of_same rfl rfl rfl rfl rfl rfl rfl (scanning_of_none hscan) (fun _ => rfl)
        (fun _ => rfl) fun _ => rfl
  | setMaxRequestsPerHost n =>
    rw [Dispatcher.callMethod] at hstep
    split at hstep
    · cases hstep
    · obtain rfl := Option.some.inj hstep
      exact (h.thread_new hscan false).of_same rfl rfl rfl rfl rfl rfl rfl (scanning_of_none hscan) (fun _ => rfl)
        (fun _ => rfl) fun _ => rfl
  | setIdleCallback idleCallback =>
    obtain rfl := Option.some.inj hstep
    exact h.of_same rfl rfl rfl rfl rfl rfl rfl (scanning_of_none hscan) (fun _ => rfl) (fun _ => rfl) fun _ => rfl
  | thread => cases hstep

/-- A step of a thread. -/
theorem threadStep (h : Conserved s) (hstep : ThreadStep s i s') : Conserved s' := by
  cases hstep with
  | begin hi hscan => exact h.begin hi hscan
  | promote hi hscan => exact h.promote hi hscan
  | skip hi hscan => exact h.skip hi hscan
  | finish hi hscan => exact h.promoteEnd hi hscan
  | @idle idle rest hi =>
    have hscanning : Scanning { s with threads := s.threads.set i rest } := h.scanning_set hi (fun _ => nofun) rfl rfl rfl
    have hsame : Conserved { s with threads := s.threads.set i rest } := h.set_same hi hscanning rfl rfl rfl
    exact hsame.of_same rfl rfl rfl rfl rfl rfl rfl hsame.scanning (fun _ => rfl) (fun _ => rfl) fun _ => rfl
  | ran hi => exact h.set_same hi (h.scanning_set hi (fun _ => nofun) rfl rfl rfl) rfl rfl rfl
  | executeOn hi hscan hcalm => exact h.executeOn hi hscan hcalm
  | decrement hi => exact h.decrement hi
  | remove hi hscan => exact h.remove hi hscan
  | removeSync hi hscan => exact h.removeSync hi hscan

end Conserved

/-! ## Runs without an exception -/

/-- A thread replaces its stack. -/
theorem Quiet.of_set {i : Nat} {stack stack' : List Frame} (h : Quiet s) (hi : s.threads[i]? = some stack)
    (ht : s'.threads = s.threads.set i stack') (hkeep : Frame.rethrow ∈ stack' → Frame.rethrow ∈ stack) : Quiet s' := by
  intro st hst
  rw [ht] at hst
  rcases List.mem_or_eq_of_mem_set hst with hst | rfl
  · exact h st hst
  · exact fun hmem => h stack (List.mem_of_getElem? hi) (hkeep hmem)

/-- There is a new thread. -/
theorem Quiet.concat {stack : List Frame} (h : Quiet s) (ht : s'.threads = s.threads ++ [stack])
    (hstack : Frame.rethrow ∉ stack) : Quiet s' := by
  intro st hst
  rw [ht] at hst
  rcases List.mem_append.mp hst with hst | hst
  · exact h st hst
  · rwa [List.mem_singleton.mp hst]

/-- A step of a thread: it finds its call, so it throws nothing. -/
theorem ThreadStep.quiet {i : Nat} (hstep : ThreadStep s i s') (hc : Conserved s) (h : Quiet s) : Quiet s' := by
  cases hstep with
  | begin | promote | skip => exact h
  | finish hi => exact h.of_set hi rfl (by simp)
  | idle hi => exact h.of_set hi rfl (by simp)
  | ran hi => exact h.of_set hi rfl (by simp)
  | decrement hi => exact h.of_set hi rfl (by simp)
  | remove hi =>
    rw [(hc.remove_eq hi).2]
    exact h.of_set hi rfl (by simp)
  | removeSync hi =>
    rw [(hc.removeSync_eq hi).2]
    exact h.of_set hi rfl (by simp)
  | @executeOn outcome idle rest c calls hi hscan hcalm =>
    cases outcome with
    | threw | ranAndThrew => cases hcalm
    | rejected | ran => exact h.of_set hi rfl (by simp)
    | started =>
      have hset : Quiet { s with threads := s.threads.set i (.execute calls idle :: rest) } := h.of_set hi rfl (by simp)
      exact hset.concat rfl (by simp)

/-- A method only begins a thread. -/
theorem Quiet.callMethod {a : Act} (h : Quiet s) (hstep : s.callMethod a = some s') : Quiet s' := by
  cases a with
  | enqueue | execute =>
    obtain rfl := Option.some.inj hstep
    exact h.concat rfl (by simp)
  | setMaxRequests n | setMaxRequestsPerHost n =>
    rw [Dispatcher.callMethod] at hstep
    split at hstep
    · cases hstep
    · obtain rfl := Option.some.inj hstep
      exact h.concat rfl (by simp)
  | setIdleCallback =>
    obtain rfl := Option.some.inj hstep
    exact h
  | thread => cases hstep

/-- In every run without an exception the calls are conserved. -/
theorem conserved_quiet_of_reachable (h : (lts.restrict Calm).Reachable s) : Conserved s ∧ Quiet s := by
  refine h.invariant (fun s hs => ?_) ?_
  · obtain rfl : s = new := hs
    exact ⟨Conserved.new, fun _ hmem => absurd hmem List.not_mem_nil⟩
  · rintro s a s' - ⟨hc, hquiet⟩ ⟨hcalm, hstep⟩
    rcases step_cases hquiet hcalm hstep with ⟨i, hthread⟩ | ⟨hscan, hmethod⟩
    · exact ⟨hc.threadStep hthread, hthread.quiet hc hquiet⟩
    · exact ⟨hc.callMethod hscan hmethod, hquiet.callMethod hmethod⟩

theorem conserved_of_reachable (h : (lts.restrict Calm).Reachable s) : Conserved s := (conserved_quiet_of_reachable h).1

theorem quiet_of_reachable (h : (lts.restrict Calm).Reachable s) : Quiet s := (conserved_quiet_of_reachable h).2

end Dispatcher

end Okhttp3

end LibraLive

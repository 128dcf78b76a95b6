import LibraLive.Theorems.Lifetime

/-!
# Which player the listener of `onPrepare` starts

`prepare` stores the handle after `native_prepare` has created the prepare thread, and the listener that this thread calls
reads whatever `playerHandle` holds by then: 0 or an older handle, if the thread was faster than the return of
`native_prepare`. The listener finds the handle of its own player exactly if that one is the last to have been stored and
was not released.
-/

namespace LibraLive

/-- The players whose handle `prepare` has stored: all of them, but for the one it is about to store. -/
def App.stored (s : App) : Nat :=
  match s.ui with
  | .storing handle => handle
  | _ => s.players.length

/-- The call of `prepare` that created the player is the last one that has stored its handle, and the player was not deleted. -/
def HandleStored (s : App) (player : Nat) : Prop := player + 1 = s.stored ∧ s.isDeleted player = false

/-- Whenever a listener reads the handle, `native_start` is called on the player that delivered the callback. -/
def StartsOwn (s : App) : Prop :=
  ∀ i player outcome s', s.threads[i]? = some (.onPrepare player) → s.step (.thread i outcome) = some s' →
    s'.threads[i]? = some (.start player player) ∧ s'.isDeleted player = false

/-- The prepare thread is done before `native_prepare` has returned: the listener reads handle 0, and nothing is started. -/
theorem prepared_player_not_started : ¬ ∀ s, App.lts.Reachable s → StartsOwn s := by
  intro hall
  have hrun : (Lts.replay App.step App.new [.call .prepare, .thread 0 .prepared]).map (fun s =>
      (s.threads[0]?, (s.step (.thread 0 .goesOn)).map (·.threads[0]?))) =
      some (some (.onPrepare 0), some (some .ended)) := rfl
  obtain ⟨s, hs, hrun⟩ := Option.map_eq_some_iff.mp hrun
  obtain ⟨hthread, hnext⟩ := Prod.mk.inj hrun
  obtain ⟨s', hs', hended⟩ := Option.map_eq_some_iff.mp hnext
  have hr : App.lts.Reachable s := Lts.replay_reachable (fun _ _ _ => id) _ (.init rfl) hs
  have hstart := (hall s hr 0 0 .goesOn s' hthread hs').1
  rw [hended] at hstart
  cases hstart

/-! ## What the stored handle is -/

/-- How `playerHandle` follows the calls of `prepare` and `release` on the UI thread. -/
structure HandleInv (s : App) : Prop where
  storing : ∀ handle, s.ui = .storing handle → handle + 1 = s.players.length
  releasing : ∀ handle, s.ui = .releasing handle → s.playerHandle = some handle
  zeroing : ∀ handle, s.ui = .zeroing → s.playerHandle = some handle → s.isDeleted handle = true
  newest : ∀ handle, s.playerHandle = some handle → handle + 1 = s.stored
  released : ∀ handle, s.playerHandle = none → handle + 1 = s.stored → s.isDeleted handle = true

namespace HandleInv

variable {s s' : App}

/-- A step that neither moves the UI thread, nor stores a handle, nor creates or deletes a player. -/
theorem of_same (hs : HandleInv s) (hui : s'.ui = s.ui) (hhandle : s'.playerHandle = s.playerHandle)
    (hlen : s'.players.length = s.players.length) (hdel : ∀ handle, s'.isDeleted handle = s.isDeleted handle) :
    HandleInv s' := by
  have hstored : s'.stored = s.stored := by simp only [App.stored, hui, hlen]
  refine ⟨?_, ?_, ?_, ?_, ?_⟩
  · rw [hui, hlen]
    exact hs.storing
  · rw [hui, hhandle]
    exact hs.releasing
  · rw [hui, hhandle]
    simpa only [hdel] using hs.zeroing
  · rw [hhandle, hstored]
    exact hs.newest
  · rw [hhandle, hstored]
    simpa only [hdel] using hs.released

/-- The UI thread is outside `prepare` and `release` before and after the step. -/
theorem of_idle (hs : HandleInv s) (hui : ∀ handle, s.ui ≠ .storing handle)
    (hui' : s'.ui = .idle ∨ ∃ handle, s'.ui = .starting handle ∨ s'.ui = .stopping handle)
    (hhandle : s'.playerHandle = s.playerHandle) (hlen : s'.players.length = s.players.length)
    (hdel : ∀ handle, s'.isDeleted handle = s.isDeleted handle) : HandleInv s' := by
  have hstored : s.stored = s.players.length := by
    unfold App.stored
    cases h : s.ui <;> first | rfl | exact absurd h (hui _)
  have hstored' : s'.stored = s.stored := by
    rw [hstored, ← hlen]
    unfold App.stored
    rcases hui' with h | ⟨handle, h | h⟩ <;> rw [h]
  refine ⟨?_, ?_, ?_, ?_, ?_⟩
  · intro handle h
    rcases hui' with h' | ⟨handle', h' | h'⟩ <;> rw [h'] at h <;> cases h
  · intro handle h
    rcases hui' with h' | ⟨handle', h' | h'⟩ <;> rw [h'] at h <;> cases h
  · intro handle h
    rcases hui' with h' | ⟨handle', h' | h'⟩ <;> rw [h'] at h <;> cases h
  · rw [hhandle, hstored']
    exact hs.newest
  · rw [hhandle, hstored']
    simpa only [hdel] using hs.released

/-- A call of `native_prepare`. -/
theorem nativePrepare (hs : HandleInv s) (hui : s.ui = .idle) : HandleInv s.nativePrepare := by
  have hstored : s.stored = s.players.length := by rw [App.stored, hui]
  refine ⟨?_, ?_, ?_, ?_, ?_⟩
  · intro handle h
    cases h
    simp [App.nativePrepare]
  · intro handle h
    cases h
  · intro handle h
    cases h
  · intro handle h
    rw [show s.nativePrepare.stored = s.players.length from rfl, ← hstored]
    exact hs.newest handle h
  · intro handle h hlast
    rw [show s.nativePrepare.stored = s.players.length from rfl] at hlast
    have hdel := hs.released handle h (hlast.trans hstored.symm)
    rw [App.isDeleted, App.nativePrepare, List.getElem?_append_left (by omega)]
    exact hdel

/-- The handle that was returned is stored. -/
theorem store (hs : HandleInv s) {handle : Nat} (hui : s.ui = .storing handle) :
    HandleInv { s with playerHandle := some handle, ui := .idle } := by
  refine ⟨by simp, by simp, by simp, ?_, by simp⟩
  intro handle' h
  obtain rfl := Option.some.inj h
  exact hs.storing handle hui

/-- `release` reads the handle. -/
theorem release (hs : HandleInv s) (hui : s.ui = .idle) :
    HandleInv { s with ui := s.playerHandle.elim .zeroing .releasing } := by
  have hstored : s.stored = s.players.length := by rw [App.stored, hui]
  have hstored' : App.stored { s with ui := s.playerHandle.elim .zeroing .releasing } = s.stored := by
    rw [hstored]
    cases s.playerHandle <;> simp [App.stored]
  refine ⟨?_, ?_, ?_, ?_, ?_⟩
  · intro handle h
    cases hh : s.playerHandle <;> simp [hh] at h
  · intro handle h
    cases hh : s.playerHandle <;> simp [hh] at h ⊢
    exact h
  · intro handle h hsome
    rw [show s.playerHandle = some handle from hsome] at h
    cases h
  · rw [hstored']
    exact hs.newest
  · rw [hstored']
    exact hs.released

/-- `native_release` deletes the player the handle stands for. -/
theorem delete (hs : HandleInv s) {handle : Nat} (hui : s.ui = .releasing handle) :
    HandleInv { s.delete handle with ui := .zeroing } := by
  have hsome := hs.releasing handle hui
  have hstored : s.stored = s.players.length := by rw [App.stored, hui]
  have hlast := hs.newest handle hsome
  have hdel : (s.delete handle).isDeleted handle = true := by
    rw [App.isDeleted, App.delete, List.getElem?_modify, List.getElem?_eq_getElem (by omega)]
    simp
  refine ⟨by simp, by simp, ?_, ?_, ?_⟩
  · intro handle' _ h
    obtain rfl : handle = handle' := Option.some.inj (hsome.symm.trans h)
    exact hdel
  · intro handle' h
    rw [show App.stored { s.delete handle with ui := .zeroing } = s.players.length by simp [App.stored, App.delete], ← hstored]
    exact hs.newest handle' h
  · intro handle' h
    exact absurd (h.symm.trans hsome) (by simp)

/-- The handle is set to zero. -/
theorem zero (hs : HandleInv s) (hui : s.ui = .zeroing) : HandleInv { s with playerHandle := none, ui := .idle } := by
  have hstored : s.stored = s.players.length := by rw [App.stored, hui]
  refine ⟨by simp, by simp, by simp, by simp, ?_⟩
  intro handle _ hlast
  have hlast : handle + 1 = s.stored := hlast.trans hstored.symm
  -- the handle that is lost is that of the last player, and `native_release` has deleted it
  cases hh : s.playerHandle with
  | none => exact hs.released handle hh hlast
  | some handle' =>
    have hnewest := hs.newest handle' hh
    obtain rfl : handle' = handle := by omega
    exact hs.zeroing handle' hui hh

/-- Only the UI thread stores handles and creates or deletes players. -/
theorem thread_step (hs : HandleInv s) {i : Nat} {thread : AppThread} {outcome : Outcome}
    (h : s.threadStep i thread outcome = some s') : HandleInv s' := by
  cases thread with
  | initPrepare player => cases outcome <;> cases h <;> exact hs.of_same rfl rfl rfl (fun _ => rfl)
  | onPrepare player =>
    cases h
    exact hs.of_same rfl rfl rfl (fun _ => rfl)
  | start player handle =>
    cases h
    split
    · exact hs
    · exact hs.of_same rfl rfl (by simp [App.setThread, App.createPlay]) (fun handle' => App.isDeleted_createPlay (s := s))
  | initStart player =>
    cases h
    split
    · exact hs
    · exact hs.of_same rfl rfl rfl (fun _ => rfl)
  | initStop player pc =>
    rcases App.initStop_cases h with rfl | ⟨pc', rfl⟩ <;> exact hs.of_same rfl rfl rfl (fun _ => rfl)
  | ended => cases h

/-- A step of the UI thread in a method. -/
theorem ui_step (hs : HandleInv s) {outcome : Outcome} (h : s.uiStep outcome = some s') : HandleInv s' := by
  unfold App.uiStep at h
  split at h
  case h_1 => cases h
  case h_2 handle hui =>
    cases h
    exact hs.store hui
  case h_3 handle hui =>
    cases h
    split
    · exact hs
    · exact hs.of_idle (by simp [hui]) (Or.inl rfl) rfl (by simp [App.createPlay])
        (fun handle' => App.isDeleted_createPlay (s := s))
  case h_4 handle hui =>
    cases h
    split
    · exact hs
    · exact hs.of_idle (by simp [hui]) (Or.inl rfl) rfl (by simp [App.createStop])
        (fun handle' => App.isDeleted_createStop (s := s))
  case h_5 handle hui =>
    cases h
    exact hs.delete hui
  case h_6 hui =>
    cases h
    exact hs.zero hui

/-- The UI thread enters a method. -/
theorem call (hs : HandleInv s) (hui : s.ui = .idle) (method : Call) : HandleInv (s.call method) := by
  cases method with
  | prepare => exact hs.nativePrepare hui
  | start =>
    refine hs.of_idle (by simp [hui]) ?_ rfl rfl (fun _ => rfl)
    cases h : s.playerHandle with
    | none => exact Or.inl (by simp [App.call, h])
    | some handle => exact Or.inr ⟨handle, Or.inl (by simp [App.call, h])⟩
  | stop =>
    refine hs.of_idle (by simp [hui]) ?_ rfl rfl (fun _ => rfl)
    cases h : s.playerHandle with
    | none => exact Or.inl (by simp [App.call, h])
    | some handle => exact Or.inr ⟨handle, Or.inr (by simp [App.call, h])⟩
  | release => exact hs.release hui

end HandleInv

namespace App

variable {s s' : App}

/-- A step uses a deleted player, or does what it does to live objects. -/
theorem step_cases {a : AppAct} (h : s.step a = some s') : (∃ handle, s' = { s with fault := some handle }) ∨ s.act a = some s' := by
  unfold step at h
  split at h
  · cases h
  · split at h
    · exact Or.inr h
    · split at h
      · cases h
        exact Or.inl ⟨_, rfl⟩
      · exact Or.inr h

/-- The stored handle in every state of every run. -/
theorem handleInv_of_reachable (h : lts.Reachable s) : HandleInv s := by
  refine Lts.Reachable.invariant ?_ ?_ h
  · rintro s rfl
    exact ⟨by simp [new], by simp [new], by simp [new], by simp [new], by simp [new, stored]⟩
  · intro s a s' _ hs hstep
    rcases step_cases hstep with ⟨handle, rfl⟩ | hact
    · exact hs.of_same rfl rfl rfl (fun _ => rfl)
    · cases a with
      | call method =>
        simp only [act, Option.ite_none_right_eq_some, Option.some.injEq] at hact
        obtain ⟨hui, rfl⟩ := hact
        exact hs.call hui method
      | ui outcome => exact hs.ui_step hact
      | thread i outcome =>
        obtain ⟨thread, -, hthread⟩ := Option.bind_eq_some_iff.mp hact
        exact hs.thread_step hthread

/-- A live player has its handle stored exactly if it is the last one whose handle was. -/
theorem playerHandle_eq_iff (hs : HandleInv s) (player : Nat) :
    s.playerHandle = some player ∧ s.isDeleted player = false ↔ HandleStored s player := by
  constructor
  · rintro ⟨hh, hlive⟩
    exact ⟨hs.newest player hh, hlive⟩
  · rintro ⟨hlast, hlive⟩
    refine ⟨?_, hlive⟩
    cases hh : s.playerHandle with
    | none =>
      rw [hs.released player hh hlast] at hlive
      cases hlive
    | some handle =>
      have hnewest := hs.newest handle hh
      obtain rfl : handle = player := by omega
      rfl

/-- The step of a listener that reads the handle. -/
theorem step_onPrepare {i player : Nat} {outcome : Outcome} (hi : s.threads[i]? = some (.onPrepare player))
    (h : s.step (.thread i outcome) = some s') : s' = s.setThread i (s.playerHandle.elim .ended (.start player)) := by
  unfold step at h
  split at h
  · cases h
  · simp only [usedBy, hi, Option.bind_some, AppThread.uses, act, threadStep, Option.some.injEq] at h
    exact h.symm

/-- Where a listener goes that reads the handle of its own live player. -/
theorem starts_own_iff (hs : HandleInv s) {i player : Nat} {outcome : Outcome}
    (hi : s.threads[i]? = some (.onPrepare player)) (h : s.step (.thread i outcome) = some s') :
    s'.threads[i]? = some (.start player player) ∧ s'.isDeleted player = false ↔ HandleStored s player := by
  obtain ⟨hlt, -⟩ := List.getElem?_eq_some_iff.mp hi
  rw [step_onPrepare hi h, ← playerHandle_eq_iff hs player, setThread, List.getElem?_set_self hlt]
  cases hh : s.playerHandle with
  | none => simp
  | some handle =>
    simp only [Option.elim_some, Option.some.injEq, AppThread.start.injEq, true_and]
    rfl

end App

/-! ## Runs in which the listeners come when the handle is stored -/

/-- A listener reads the handle only when `prepare` has stored that of its player last, and the player was not deleted. -/
def ReadsStored (s : App) (a : AppAct) : Prop :=
  ∀ i outcome player, a = .thread i outcome → s.threads[i]? = some (.onPrepare player) → HandleStored s player

/-- Every `native_start` that a listener has called is on the player that delivered the callback. -/
def StartedOwn (s : App) : Prop := ∀ player handle, .start player handle ∈ s.threads → handle = player

namespace StartedOwn

variable {s s' : App}

/-- What a step has to keep: a thread in `native_start` was there before, or is on the player that delivered the callback. -/
theorem of_threads (hs : StartedOwn s)
    (ht : ∀ thread ∈ s'.threads, thread ∈ s.threads ∨ ∀ player handle, thread = .start player handle → handle = player) :
    StartedOwn s' := by
  intro player handle hmem
  rcases ht _ hmem with hold | hnew
  · exact hs player handle hold
  · exact hnew player handle rfl

/-- One thread comes to another place. -/
theorem setThread (hs : StartedOwn s) (i : Nat) {thread : AppThread}
    (ht : ∀ player handle, thread = .start player handle → handle = player) : StartedOwn (s.setThread i thread) := by
  refine hs.of_threads ?_
  intro t hmem
  rcases List.mem_or_eq_of_mem_set hmem with hold | rfl
  · exact Or.inl hold
  · exact Or.inr ht

/-- A thread is created, in another function. -/
theorem append (hs : StartedOwn s) {thread : AppThread} (ht : ∀ player handle, thread ≠ .start player handle)
    (hs' : s'.threads = s.threads ++ [thread]) : StartedOwn s' := by
  refine hs.of_threads ?_
  intro t hmem
  rw [hs', List.mem_append, List.mem_singleton] at hmem
  rcases hmem with hold | rfl
  · exact Or.inl hold
  · exact Or.inr fun player handle h => absurd h (ht player handle)

/-- A step of a thread; the one that calls `native_start` finds the handle of its own player. -/
theorem thread_step (hs : StartedOwn s) {i : Nat} {thread : AppThread} {outcome : Outcome}
    (hown : ∀ player, thread = .onPrepare player → s.playerHandle = some player)
    (h : s.threadStep i thread outcome = some s') : StartedOwn s' := by
  cases thread with
  | initPrepare player =>
    cases outcome <;> cases h
    · exact hs
    · exact hs.setThread i (by simp)
    · exact hs.setThread i (by simp)
  | onPrepare player =>
    cases h
    rw [hown player rfl]
    exact hs.setThread i (by simp)
  | start player handle =>
    cases h
    split
    · exact hs
    · have hcreated : StartedOwn (s.createPlay handle) := hs.append (by simp) rfl
      exact hcreated.setThread i (by simp)
  | initStart player =>
    cases h
    split
    · exact hs
    · exact hs.setThread i (by simp)
  | initStop player pc =>
    rcases App.initStop_cases h with rfl | ⟨pc', rfl⟩ <;> exact hs.setThread i (by simp)
  | ended => cases h

/-- Every step in which listeners read stored handles keeps it so. -/
theorem step (hs : StartedOwn s) (hinv : HandleInv s) {a : AppAct} (hP : ReadsStored s a) (h : s.step a = some s') :
    StartedOwn s' := by
  rcases App.step_cases h with ⟨handle, rfl⟩ | hact
  · exact hs
  · cases a with
    | call method =>
      simp only [App.act, Option.ite_none_right_eq_some, Option.some.injEq] at hact
      obtain ⟨-, rfl⟩ := hact
      cases method with
      | prepare => exact hs.append (by simp) rfl
      | start | stop | release => exact hs
    | ui outcome =>
      simp only [App.act, App.uiStep] at hact
      split at hact
      case h_1 => cases hact
      case h_2 | h_5 | h_6 =>
        cases hact
        exact hs
      case h_3 handle _ =>
        cases hact
        split
        · exact hs
        · exact hs.append (by simp) rfl
      case h_4 handle _ =>
        cases hact
        split
        · exact hs
        · exact hs.append (by simp) rfl
    | thread i outcome =>
      obtain ⟨thread, hi, hthread⟩ := Option.bind_eq_some_iff.mp hact
      refine hs.thread_step ?_ hthread
      rintro player rfl
      exact ((App.playerHandle_eq_iff hinv player).mpr (hP i outcome player rfl hi)).1

end StartedOwn

/-- In every run, with any calls of `prepare`, `start`, `stop` and `release` and any interleaving of the threads, in which a
listener reads the handle only when `prepare` has stored that of its player last and the player was not deleted, every
`native_start` a listener calls is on the player that delivered the callback. And in every state reached the listener that
reads the handle next gets to call `native_start` on its own, live player if and only if that condition holds. -/
theorem prepared_player_started {s : App} (h : (App.lts.restrict ReadsStored).Reachable s) :
    StartedOwn s ∧ ∀ i player outcome s', s.threads[i]? = some (.onPrepare player) →
      s.step (.thread i outcome) = some s' →
      (s'.threads[i]? = some (.start player player) ∧ s'.isDeleted player = false ↔ HandleStored s player) := by
  refine ⟨?_, fun i player outcome s' hi hs => App.starts_own_iff (App.handleInv_of_reachable h.of_restrict) hi hs⟩
  refine Lts.Reachable.restrict_invariant ?_ ?_ h
  · rintro s rfl
    simp [StartedOwn, App.new]
  · intro s a s' hr hP hs hstep
    exact hs.step (App.handleInv_of_reachable hr) hP hstep

/-- The decidable form of `ReadsStored`, for a given state and step. -/
def readsStored (s : App) : AppAct → Bool
  | .thread i _ =>
    match s.threads[i]? with
    | some (.onPrepare player) => player + 1 = s.stored && !s.isDeleted player
    | _ => true
  | _ => true

theorem readsStored_sound (s : App) (a : AppAct) (h : readsStored s a = true) : ReadsStored s a := by
  rintro i outcome player rfl hi
  simpa [readsStored, hi, HandleStored] using h

/-- A player that was stored before its source was opened is started by its own listener. -/
theorem prepared_player_started_stored : ∃ s, (App.lts.restrict ReadsStored).Reachable s ∧
    s.threads[0]? = some (.start 0 0) ∧ StartedOwn s := by
  have hrun : (Lts.replayIf App.step readsStored App.new [.call .prepare, .ui .returns, .thread 0 .prepared,
      .thread 0 .goesOn]).map (·.threads[0]?) = some (some (.start 0 0)) := rfl
  obtain ⟨s, hs, hthread⟩ := Option.map_eq_some_iff.mp hrun
  have hr := Lts.replayIf_reachable (L := App.lts) (fun _ _ _ => id) readsStored_sound _ (.init rfl) hs
  exact ⟨s, hr, hthread, (prepared_player_started hr).1⟩

end LibraLive

import LibraLive.App

/-!
# Who may still use a player that `native_release` deletes

`native_release` deletes the player on the UI thread, while the thread that `stop` has created still waits for the others and
frees what the player owns; its comment says that this is a problem. A player is deleted safely if at that moment no thread
works on it, and if no listener gets hold of the stale handle before `release` sets it to zero.
-/

namespace LibraLive

/-- The thread works on the player: it will read or write it, unless it ends or waits for ever before. -/
def AppThread.worksOn (handle : Nat) : AppThread → Bool
  | .initPrepare player | .initStart player | .initStop player _ => player = handle
  | .start _ handle' => handle' = handle
  | .onPrepare _ | .ended => false

/-- The UI thread is in a method that has the player's handle. -/
def AppUi.worksOn (handle : Nat) : AppUi → Bool
  | .storing handle' | .starting handle' | .stopping handle' | .releasing handle' => handle' = handle
  | .idle | .zeroing => false

attribute [simp] AppThread.worksOn AppUi.worksOn AppThread.uses AppUi.uses

/-- `stop` precedes `release`: when `release` is called, `native_stop` was called on the player the handle stands for. -/
def stopsFirst (s : App) : AppAct → Bool
  | .call .release => s.playerHandle.all fun handle => (s.players[handle]?).any (·.stopCalled)
  | _ => true

/-- A player is deleted only while no thread works on it, and no listener reads the handle of a deleted player. -/
def releasesUnused (s : App) : AppAct → Bool
  | .ui _ =>
    match s.ui with
    | .releasing handle => s.threads.all fun thread => !thread.worksOn handle
    | _ => true
  | .thread i _ =>
    match s.threads[i]? with
    | some (.onPrepare _) => !s.playerHandle.any s.isDeleted
    | _ => true
  | .call _ => true

/-! ## A run that uses a deleted player -/

/-- `prepare`, `stop` and `release` are called one after the other, and then the thread `stop` has created takes its first
step: it uses the player that was deleted. -/
theorem deleted_player_used : ¬ ∀ s, (App.lts.restrict fun s a => stopsFirst s a = true).Reachable s → s.fault = none := by
  intro hall
  have hrun : (Lts.replayIf App.step stopsFirst App.new [.call .prepare, .ui .returns, .call .stop, .ui .returns,
      .call .release, .ui .returns, .ui .returns, .thread 1 .goesOn]).map (·.fault) = some (some 0) := rfl
  obtain ⟨s, hs, hfault⟩ := Option.map_eq_some_iff.mp hrun
  have hr := Lts.replayIf_reachable (L := App.lts) (P := fun s a => stopsFirst s a = true) (fun _ _ _ => id)
    (fun _ _ => id) _ (.init rfl) hs
  rw [hall s hr] at hfault
  cases hfault

/-! ## Nothing leads to a deleted player -/

/-- No thread works on the player, and nobody will find its handle. -/
structure Disowned (s : App) (handle : Nat) : Prop where
  threads : ∀ thread ∈ s.threads, thread.worksOn handle = false
  ui : s.ui.worksOn handle = false
  handle : s.playerHandle = some handle → s.ui = .zeroing

/-- No deleted player was used, and nothing leads to one. -/
structure Lifetimes (s : App) : Prop where
  fault : s.fault = none
  disowned : ∀ handle, s.isDeleted handle = true → Disowned s handle

/-- A thread works on the player it uses. -/
theorem AppThread.worksOn_of_uses {thread : AppThread} {handle : Nat} (h : thread.uses = some handle) :
    thread.worksOn handle = true := by
  cases thread with
  | initStop player pc => cases pc <;> simp at h ⊢ <;> exact h
  | _ => simp at h ⊢ <;> exact h

/-- So does the UI thread. -/
theorem AppUi.worksOn_of_uses {ui : AppUi} {handle : Nat} (h : ui.uses = some handle) : ui.worksOn handle = true := by
  cases ui <;> simp at h ⊢ <;> exact h

namespace App

variable {s : App} {handle handle' : Nat}

/-- A player that is deleted exists. -/
theorem lt_of_isDeleted (h : s.isDeleted handle = true) : handle < s.players.length := by
  by_contra hlt
  rw [isDeleted, List.getElem?_eq_none (Nat.le_of_not_lt hlt)] at h
  cases h

/-- An update of one player that does not delete it deletes none. -/
theorem any_deleted_modify {players : List NativePlayer} {f : NativePlayer → NativePlayer}
    (hf : ∀ p, (f p).deleted = p.deleted) (handle handle' : Nat) :
    ((players.modify handle f)[handle']?).any (·.deleted) = (players[handle']?).any (·.deleted) := by
  rw [List.getElem?_modify]
  by_cases hh : handle = handle'
  · cases players[handle']? <;> simp [hh, hf]
  · cases players[handle']? <;> simp [hh]

@[simp] theorem isDeleted_createPlay : (s.createPlay handle).isDeleted handle' = s.isDeleted handle' :=
  any_deleted_modify (f := fun p => { p with pid_play := some s.threads.length }) (fun _ => rfl) handle handle'

@[simp] theorem isDeleted_createStop : (s.createStop handle).isDeleted handle' = s.isDeleted handle' :=
  any_deleted_modify (f := fun p => { p with stopCalled := true }) (fun _ => rfl) handle handle'

/-- A player is deleted after `delete` only if it is the one that was, or was deleted before. -/
theorem isDeleted_delete (h : (s.delete handle).isDeleted handle' = true) :
    handle' = handle ∨ s.isDeleted handle' = true := by
  by_cases hh : handle = handle'
  · exact Or.inl hh.symm
  · refine Or.inr ?_
    rw [isDeleted, delete, List.getElem?_modify] at h
    simpa [isDeleted, hh] using h

/-- A new player is not deleted. -/
theorem isDeleted_nativePrepare (h : s.nativePrepare.isDeleted handle = true) : s.isDeleted handle = true := by
  rw [isDeleted, nativePrepare, List.getElem?_append] at h
  by_cases hlt : handle < s.players.length
  · rw [if_pos hlt] at h
    exact h
  · rw [if_neg hlt] at h
    cases hn : handle - s.players.length <;> simp [hn] at h

/-- `init_stop` moves from one of its places to another, or ends. -/
theorem initStop_cases {s' : App} {i player : Nat} {pc : InitStopPc} (h : s.initStop i player pc = some s') :
    s' = s.setThread i .ended ∨ ∃ pc', s' = s.setThread i (.initStop player pc') := by
  cases pc with
  | readPre | readPlay =>
    obtain ⟨p, -, rfl⟩ := Option.map_eq_some_iff.mp h
    exact Or.inr ⟨_, rfl⟩
  | joinPre thread | joinPlay thread =>
    simp only [initStop, Option.ite_none_right_eq_some, Option.some.injEq] at h
    obtain ⟨-, rfl⟩ := h
    exact Or.inr ⟨_, rfl⟩
  | deleteVideo | deleteAudio | deleteHelper =>
    cases h
    exact Or.inr ⟨_, rfl⟩
  | closeFormat =>
    cases h
    exact Or.inl rfl

end App

namespace Disowned

variable {s s' : App} {handle : Nat}

/-- What a step has to keep: the threads are those of before, or do not work on the player. -/
theorem of_threads (hs : Disowned s handle)
    (ht : ∀ thread ∈ s'.threads, thread ∈ s.threads ∨ thread.worksOn handle = false) (hui : s'.ui.worksOn handle = false)
    (hh : s'.playerHandle = some handle → s'.ui = .zeroing) : Disowned s' handle := by
  refine ⟨?_, hui, hh⟩
  intro thread hmem
  rcases ht thread hmem with hold | hnew
  · exact hs.threads thread hold
  · exact hnew

/-- One thread comes to another place. -/
theorem setThread (hs : Disowned s handle) (i : Nat) {thread : AppThread} (ht : thread.worksOn handle = false) :
    Disowned (s.setThread i thread) handle := by
  refine hs.of_threads ?_ hs.ui hs.handle
  intro t hmem
  rcases List.mem_or_eq_of_mem_set hmem with hold | rfl
  · exact Or.inl hold
  · exact Or.inr ht

/-- One more thread that works on another player. -/
theorem addThread (hs : Disowned s handle) {thread : AppThread} (hthread : thread.worksOn handle = false)
    (hui : s'.ui = s.ui) (hhandle : s'.playerHandle = s.playerHandle) (hthreads : s'.threads = s.threads ++ [thread]) :
    Disowned s' handle := by
  refine hs.of_threads ?_ (hui ▸ hs.ui) (fun h => hui ▸ hs.handle (hhandle ▸ h))
  intro t hmem
  rw [hthreads] at hmem
  rcases List.mem_append.mp hmem with hold | hnew
  · exact Or.inl hold
  · rw [List.mem_singleton.mp hnew]
    exact Or.inr hthread

/-- A thread is created that works on another player. -/
theorem createPlay (hs : Disowned s handle) {handle' : Nat} (hne : handle' ≠ handle) :
    Disowned (s.createPlay handle') handle :=
  hs.addThread (by simpa using hne) rfl rfl rfl

/-- A stop thread is created that works on another player. -/
theorem createStop (hs : Disowned s handle) {handle' : Nat} (hne : handle' ≠ handle) :
    Disowned (s.createStop handle') handle :=
  hs.addThread (by simpa using hne) rfl rfl rfl

/-- The UI thread leaves its call without having assigned the handle. -/
theorem idle (hs : Disowned s handle) (hui : s.ui ≠ .zeroing) : Disowned { s with ui := .idle } handle :=
  hs.of_threads (fun _ => Or.inl) rfl (fun hh => absurd (hs.handle hh) hui)

/-- A call finds another handle, or none. -/
theorem call (hs : Disowned s handle) (hlt : handle < s.players.length) (hui : s.ui = .idle) (method : Call) :
    Disowned (s.call method) handle := by
  have hnot : s.playerHandle ≠ some handle := by
    intro hh
    have hz := hs.handle hh
    rw [hui] at hz
    cases hz
  cases method with
  | prepare =>
    refine hs.of_threads ?_ ?_ (fun hh => absurd hh hnot)
    · intro t hmem
      rcases List.mem_append.mp hmem with hold | hnew
      · exact Or.inl hold
      · obtain rfl := List.mem_singleton.mp hnew
        exact Or.inr (by simpa using Nat.ne_of_gt hlt)
    · simpa [App.call, App.nativePrepare] using Nat.ne_of_gt hlt
  | start | stop | release =>
    refine hs.of_threads (fun _ => Or.inl) ?_ (fun hh => absurd hh hnot)
    cases hh : s.playerHandle with
    | none => simp [App.call, hh]
    | some handle' =>
      have hne : handle' ≠ handle := by
        rintro rfl
        exact hnot hh
      simpa [App.call, hh] using hne

end Disowned

namespace Lifetimes

variable {s s' : App}

/-- A step of the UI thread in a method. -/
theorem ui_step (hs : Lifetimes s) {outcome : Outcome} (hP : releasesUnused s (.ui outcome) = true)
    (h : s.uiStep outcome = some s') : Lifetimes s' := by
  unfold App.uiStep at h
  split at h
  case h_1 => cases h
  case h_2 handle hui =>
    cases h
    refine ⟨hs.fault, ?_⟩
    intro handle' hdel
    have hd := hs.disowned handle' hdel
    have hne : handle ≠ handle' := by simpa [hui] using hd.ui
    refine hd.of_threads (fun _ => Or.inl) rfl ?_
    intro hh
    exact absurd (Option.some.inj hh) hne
  case h_3 handle hui =>
    cases h
    by_cases hgo : outcome = .goesOn
    · rw [if_pos hgo]
      exact hs
    · rw [if_neg hgo]
      refine ⟨hs.fault, ?_⟩
      intro handle' hdel
      have hd := hs.disowned handle' ((App.isDeleted_createPlay (s := s)).symm.trans hdel)
      have hne : handle ≠ handle' := by simpa [hui] using hd.ui
      exact (hd.createPlay hne).idle (by simp [App.createPlay, hui])
  case h_4 handle hui =>
    cases h
    by_cases hgo : outcome = .goesOn
    · rw [if_pos hgo]
      exact hs
    · rw [if_neg hgo]
      refine ⟨hs.fault, ?_⟩
      intro handle' hdel
      have hd := hs.disowned handle' ((App.isDeleted_createStop (s := s)).symm.trans hdel)
      have hne : handle ≠ handle' := by simpa [hui] using hd.ui
      exact (hd.createStop hne).idle (by simp [App.createStop, hui])
  case h_5 handle hui =>
    cases h
    rw [releasesUnused, hui] at hP
    refine ⟨hs.fault, ?_⟩
    intro handle' hdel
    rcases App.isDeleted_delete (s := s) hdel with rfl | hold
    · refine ⟨?_, rfl, fun _ => rfl⟩
      intro thread hmem
      simpa using List.all_eq_true.mp hP thread hmem
    · exact (hs.disowned handle' hold).of_threads (fun _ => Or.inl) rfl (fun _ => rfl)
  case h_6 =>
    cases h
    refine ⟨hs.fault, ?_⟩
    intro handle' hdel
    exact (hs.disowned handle' hdel).of_threads (fun _ => Or.inl) rfl (by simp)

/-- A step of a thread. -/
theorem thread_step (hs : Lifetimes s) {i : Nat} {thread : AppThread} {outcome : Outcome}
    (hi : s.threads[i]? = some thread) (hP : releasesUnused s (.thread i outcome) = true)
    (h : s.threadStep i thread outcome = some s') : Lifetimes s' := by
  have hmem : thread ∈ s.threads := List.mem_of_getElem? hi
  cases thread with
  | initPrepare player =>
    cases outcome with
    | goesOn =>
      cases h
      exact hs
    | returns | prepared =>
      cases h
      exact ⟨hs.fault, fun handle' hdel => (hs.disowned handle' hdel).setThread i rfl⟩
  | onPrepare player =>
    cases h
    refine ⟨hs.fault, ?_⟩
    intro handle' hdel
    rw [releasesUnused, hi] at hP
    refine (hs.disowned handle' hdel).setThread i ?_
    cases hh : s.playerHandle with
    | none => rfl
    | some handle =>
      have hlive : s.isDeleted handle = false := by simpa [hh] using hP
      have hne : handle ≠ handle' := by
        rintro rfl
        rw [show s.isDeleted handle = true from hdel] at hlive
        cases hlive
      simpa using hne
  | start player handle =>
    cases h
    by_cases hgo : outcome = .goesOn
    · rw [if_pos hgo]
      exact hs
    · rw [if_neg hgo]
      refine ⟨hs.fault, ?_⟩
      intro handle' hdel
      have hd := hs.disowned handle' ((App.isDeleted_createPlay (s := s)).symm.trans hdel)
      have hne : handle ≠ handle' := by simpa using hd.threads _ hmem
      exact (hd.createPlay hne).setThread i rfl
  | initStart player =>
    cases h
    by_cases hgo : outcome = .goesOn
    · rw [if_pos hgo]
      exact hs
    · rw [if_neg hgo]
      exact ⟨hs.fault, fun handle' hdel => (hs.disowned handle' hdel).setThread i rfl⟩
  | initStop player pc =>
    have hne : ∀ handle', s.isDeleted handle' = true → player ≠ handle' := fun handle' hdel => by
      simpa using (hs.disowned handle' hdel).threads _ hmem
    rcases App.initStop_cases h with rfl | ⟨pc', rfl⟩
    · exact ⟨hs.fault, fun handle' hdel => (hs.disowned handle' hdel).setThread i rfl⟩
    · exact ⟨hs.fault, fun handle' hdel => (hs.disowned handle' hdel).setThread i (by simpa using hne handle' hdel)⟩
  | ended => cases h

/-- A step of live objects. -/
theorem act_step (hs : Lifetimes s) {a : AppAct} (hP : releasesUnused s a = true) (h : s.act a = some s') :
    Lifetimes s' := by
  cases a with
  | call method =>
    simp only [App.act, Option.ite_none_right_eq_some, Option.some.injEq] at h
    obtain ⟨hui, rfl⟩ := h
    refine ⟨by cases method <;> exact hs.fault, ?_⟩
    intro handle' hdel
    have hold : s.isDeleted handle' = true := by
      cases method with
      | prepare => exact App.isDeleted_nativePrepare hdel
      | start | stop | release => exact hdel
    exact (hs.disowned handle' hold).call (App.lt_of_isDeleted hold) hui method
  | ui outcome => exact hs.ui_step hP h
  | thread i outcome =>
    obtain ⟨thread, hi, hstep⟩ := Option.bind_eq_some_iff.mp h
    exact hs.thread_step hi hP hstep

/-- Every step that meets the condition uses no deleted player and leaves nothing that leads to one. -/
theorem step (hs : Lifetimes s) {a : AppAct} (hP : releasesUnused s a = true) (h : s.step a = some s') :
    Lifetimes s' := by
  have hlive : ∀ handle, s.usedBy a = some handle → s.isDeleted handle = false := by
    intro handle huse
    by_contra hdel
    have hd := hs.disowned handle (by simpa using hdel)
    cases a with
    | call method => cases huse
    | ui outcome =>
      have hworks := AppUi.worksOn_of_uses huse
      rw [hd.ui] at hworks
      cases hworks
    | thread i outcome =>
      obtain ⟨thread, hi, huse⟩ := Option.bind_eq_some_iff.mp huse
      have hworks := AppThread.worksOn_of_uses huse
      rw [hd.threads thread (List.mem_of_getElem? hi)] at hworks
      cases hworks
  rw [App.step, hs.fault, if_neg (by simp)] at h
  split at h
  · exact hs.act_step hP h
  · rename_i handle huse
    rw [if_neg (by simp [hlive handle huse])] at h
    exact hs.act_step hP h

end Lifetimes

/-! ## Runs that release unused players only -/

/-- `stop` precedes `release`, a player is deleted only while no thread works on it, and no listener reads the handle of a
deleted player. -/
def ReleasesUnused (s : App) (a : AppAct) : Prop := stopsFirst s a = true ∧ releasesUnused s a = true

/-- In every run of an app, with any calls of `prepare`, `start`, `stop` and `release` and any interleaving of the threads, in
which a player is deleted only while no thread works on it and no listener reads the handle of a deleted player, no thread
uses a player that was deleted. -/
theorem deleted_player_unused {s : App} (h : (App.lts.restrict ReleasesUnused).Reachable s) : s.fault = none := by
  have hlife : Lifetimes s := by
    refine Lts.Reachable.restrict_invariant ?_ ?_ h
    · rintro s rfl
      exact ⟨rfl, fun handle hdel => absurd (App.lt_of_isDeleted hdel) (Nat.not_lt_zero handle)⟩
    · intro s a s' _ hP hs hstep
      exact hs.step hP.2 hstep
  exact hlife.fault

/-- The calls of an activity whose source cannot be opened: `stop` and `release` come late enough for all threads to have
ended when the player is deleted. -/
def lateReleaseActs : List AppAct :=
  [AppAct.call .prepare, .ui .returns, .thread 0 .returns, .call .stop, .ui .returns] ++
  List.replicate 8 (AppAct.thread 1 .goesOn) ++ [AppAct.call .release, .ui .returns, .ui .returns]

/-- The player was deleted, and nobody has used it since. -/
theorem deleted_player_unused_late_release : ∃ s, (App.lts.restrict ReleasesUnused).Reachable s ∧
    s.isDeleted 0 = true ∧ s.playerHandle = none ∧ s.fault = none := by
  have hrun : (Lts.replayIf App.step (fun s a => stopsFirst s a && releasesUnused s a) App.new lateReleaseActs).map
      (fun s => (s.isDeleted 0, s.playerHandle)) = some (true, none) := rfl
  obtain ⟨s, hs, hrun⟩ := Option.map_eq_some_iff.mp hrun
  obtain ⟨hdel, hhandle⟩ := Prod.mk.inj hrun
  have hr := Lts.replayIf_reachable (L := App.lts) (P := ReleasesUnused) (fun _ _ _ => id)
    (fun s a => by simp [ReleasesUnused]) _ (.init rfl) hs
  exact ⟨s, hr, hdel, hhandle, deleted_player_unused hr⟩

end LibraLive

import LibraLive.App
import LibraLive.Lemmas.PlayerPhase

/-!
# A player is a player object of an app

`Player` follows what the threads do to the members of one player, `App` only which thread works on which player. Up to the
destructor every run of `Player` is a run of an `App` whose one `LibraLivePlayer` has prepared one player: where `Player` has
the prepare, the demux, the stop and the UI thread, the app has them too.
-/

namespace LibraLive

/-- The prepare thread as a thread of the app; it has left `init_prepare` for good when it is back from its last callback. -/
def PreparePc.inApp : PreparePc → AppThread
  | .start _ => .start 0 0
  | .errorReported | .detach | .ended => .ended
  | _ => .initPrepare 0

/-- The demux thread, once it was created. -/
def DemuxPc.inApp : DemuxPc → AppThread
  | .ended => .ended
  | _ => .initStart 0

/-- The stop thread, once it was created. -/
def StopPc.inApp : StopPc → AppThread
  | .joinPrepare => .initStop 0 .readPre
  | .joinPlay => .initStop 0 .readPlay
  | .deleteVideo => .initStop 0 .deleteVideo
  | .deleteAudio => .initStop 0 .deleteAudio
  | .deleteHelper => .initStop 0 .deleteHelper
  | .closeFormat => .initStop 0 .closeFormat
  | .notCreated | .ended => .ended

/-- The UI thread, up to the destructor. -/
def UiPc.inApp : UiPc → AppUi
  | .cleared | .helperZero => .stopping 0
  | .idle | .stopped | .released => .idle

attribute [simp] PreparePc.inApp DemuxPc.inApp StopPc.inApp UiPc.inApp

/-- The app is at the places of the player: the object `p` is alive, the prepare thread is the first thread, `pid_play` names
the demux thread, and the stop thread is another one. -/
structure Represents (s : Player) (x : App) (p : NativePlayer) : Prop where
  fault : x.fault = none
  handle : x.playerHandle = some 0
  ui : x.ui = s.ui.inApp
  players : x.players = [p]
  alive : p.deleted = false
  pid_pre : p.pid_pre = 0
  prepare : x.threads[0]? = some s.prepare.inApp
  notStarted : s.demux = .notCreated → p.pid_play = none
  play : s.demux ≠ .notCreated → ∃ i, p.pid_play = some i ∧ i ≠ 0 ∧ x.threads[i]? = some s.demux.inApp
  stopper : s.stopper ≠ .notCreated → ∃ j, p.pid_play ≠ some j ∧ j ≠ 0 ∧ x.threads[j]? = some s.stopper.inApp

/-- Some reachable state of an app represents the player. -/
def Represented (s : Player) : Prop := ∃ x p, App.lts.Reachable x ∧ Represents s x p

/-! ## Steps of the app -/

namespace App

variable {x x' : App}

/-- Nothing was used after its end, and the first object is alive. -/
def Alive (x : App) : Prop := x.fault = none ∧ x.isDeleted 0 = false

/-- A step that uses no object, or the first one while it is alive. -/
theorem step_reachable (hr : lts.Reachable x) (hlive : x.Alive) {a : AppAct} (huse : x.usedBy a = none ∨ x.usedBy a = some 0)
    (h : x.act a = some x') : lts.Reachable x' := by
  refine hr.step (a := a) ?_
  change x.step a = some x'
  rw [step, hlive.1, if_neg (by simp)]
  rcases huse with huse | huse
  · rw [huse]
    exact h
  · rw [huse]
    dsimp only
    rw [if_neg (by simp [hlive.2])]
    exact h

/-- A step of a thread that uses the first object at most. -/
theorem thread_reachable (hr : lts.Reachable x) (hlive : x.Alive) {i : Nat} {thread : AppThread} (outcome : Outcome)
    (hi : x.threads[i]? = some thread) (huse : thread.uses = none ∨ thread.uses = some 0)
    (h : x.threadStep i thread outcome = some x') : lts.Reachable x' := by
  refine step_reachable hr hlive (a := .thread i outcome) ?_ ?_
  · rw [usedBy, hi]
    exact huse
  · rw [act, hi]
    exact h

/-- The place of a thread that was moved. -/
theorem threads_setThread {i : Nat} {old : AppThread} (hi : x.threads[i]? = some old) (thread : AppThread) :
    (x.setThread i thread).threads[i]? = some thread := by
  obtain ⟨hlt, -⟩ := List.getElem?_eq_some_iff.mp hi
  rw [setThread, List.getElem?_set_self hlt]

/-- The other threads stay. -/
theorem threads_setThread_of_ne {i j : Nat} (h : i ≠ j) (thread : AppThread) :
    (x.setThread i thread).threads[j]? = x.threads[j]? := List.getElem?_set_ne h

/-- A thread that exists stays when another one is created. -/
theorem threads_append {i : Nat} {thread : AppThread} (hi : x.threads[i]? = some thread) (new : AppThread) :
    (x.threads ++ [new])[i]? = some thread ∧ i ≠ x.threads.length := by
  obtain ⟨hlt, -⟩ := List.getElem?_eq_some_iff.mp hi
  exact ⟨by rw [List.getElem?_append_left hlt, hi], Nat.ne_of_lt hlt⟩

end App

namespace Represents

variable {s s' : Player} {x : App} {p : NativePlayer}

/-- The app is alive. -/
theorem app_alive (hx : Represents s x p) : x.Alive := by
  refine ⟨hx.fault, ?_⟩
  simp [App.isDeleted, hx.players, hx.alive]

/-- Where the places of the four threads in the app are the same, the app need not step. -/
theorem congr (hx : Represents s x p) (hui : s'.ui.inApp = s.ui.inApp) (hprepare : s'.prepare.inApp = s.prepare.inApp)
    (hdemux : s'.demux = .notCreated ↔ s.demux = .notCreated) (hplay : s'.demux.inApp = s.demux.inApp)
    (hstopper : s'.stopper = s.stopper) : Represents s' x p := by
  refine ⟨hx.fault, hx.handle, hui ▸ hx.ui, hx.players, hx.alive, hx.pid_pre, hprepare ▸ hx.prepare, ?_, ?_, ?_⟩
  · rw [hdemux]
    exact hx.notStarted
  · rw [Ne, hdemux, hplay]
    exact hx.play
  · rw [hstopper]
    exact hx.stopper

/-- The prepare thread comes to another place. -/
theorem setPrepare (hx : Represents s x p) (hui : s'.ui = s.ui) (hdemux : s'.demux = s.demux)
    (hstopper : s'.stopper = s.stopper) : Represents s' (x.setThread 0 s'.prepare.inApp) p := by
  refine ⟨hx.fault, hx.handle, hui ▸ hx.ui, hx.players, hx.alive, hx.pid_pre, App.threads_setThread hx.prepare _, ?_, ?_, ?_⟩
  · rw [hdemux]
    exact hx.notStarted
  · rw [hdemux]
    intro hne
    obtain ⟨i, hpid, hi, hthread⟩ := hx.play hne
    exact ⟨i, hpid, hi, by rw [App.threads_setThread_of_ne (Ne.symm hi), hthread]⟩
  · rw [hstopper]
    intro hne
    obtain ⟨j, hpid, hj, hthread⟩ := hx.stopper hne
    exact ⟨j, hpid, hj, by rw [App.threads_setThread_of_ne (Ne.symm hj), hthread]⟩

/-! ### The prepare thread -/

/-- The prepare thread leaves `init_prepare`, or is back from a callback for good. -/
theorem prepare_ended (hr : App.lts.Reachable x) (hx : Represents s x p) (hpc : s.prepare.inApp = .initPrepare 0)
    (hpc' : s'.prepare.inApp = .ended) (hui : s'.ui = s.ui) (hdemux : s'.demux = s.demux)
    (hstopper : s'.stopper = s.stopper) : Represented s' := by
  have hmoved : Represents s' (x.setThread 0 .ended) p := hpc' ▸ hx.setPrepare hui hdemux hstopper
  have hthread : x.threads[0]? = some (.initPrepare 0) := hpc ▸ hx.prepare
  exact ⟨_, p, App.thread_reachable hr hx.app_alive .returns hthread (Or.inr rfl) rfl, hmoved⟩

/-- The listener is called and calls `start`, which reads the handle of this player. -/
theorem onPrepare (hr : App.lts.Reachable x) (hx : Represents s x p) (hpc : s.prepare = .onPrepare) {pc : StartPc}
    (hpc' : s'.prepare = .start pc) (hui : s'.ui = s.ui) (hdemux : s'.demux = s.demux)
    (hstopper : s'.stopper = s.stopper) : Represented s' := by
  have hmoved : Represents s' (x.setThread 0 (.start 0 0)) p := by
    have hset : Represents s' (x.setThread 0 s'.prepare.inApp) p := hx.setPrepare hui hdemux hstopper
    rwa [hpc'] at hset
  have hthread : x.threads[0]? = some (.initPrepare 0) := by
    rw [hx.prepare, hpc]
    rfl
  have hr₁ : App.lts.Reachable (x.setThread 0 (.onPrepare 0)) :=
    App.thread_reachable hr hx.app_alive .prepared hthread (Or.inr rfl) rfl
  have hr₂ : App.lts.Reachable ((x.setThread 0 (.onPrepare 0)).setThread 0 (.start 0 0)) := by
    refine App.thread_reachable hr₁ hx.app_alive .goesOn (App.threads_setThread hthread _) (Or.inl rfl) ?_
    simp [App.threadStep, App.setThread, hx.handle]
  refine ⟨_, p, ?_, hmoved⟩
  simpa [App.setThread] using hr₂

/-- `start` creates the demux thread. -/
theorem createPlay (hr : App.lts.Reachable x) (hx : Represents s x p) (hpc : s.prepare = .start .createPlay)
    (hpc' : s'.prepare = .detach) (hd' : s'.demux = .whileTest) (hui : s'.ui = s.ui)
    (hstopper : s'.stopper = s.stopper) : Represented s' := by
  have hthread : x.threads[0]? = some (.start 0 0) := by
    rw [hx.prepare, hpc]
    rfl
  have hr' : App.lts.Reachable ((x.createPlay 0).setThread 0 .ended) :=
    App.thread_reachable hr hx.app_alive .returns hthread (Or.inr rfl) rfl
  obtain ⟨hfirst, hne⟩ := App.threads_append hthread (.initStart 0)
  refine ⟨_, { p with pid_play := some x.threads.length }, hr', hx.fault, hx.handle, hui ▸ hx.ui, ?_, hx.alive,
    hx.pid_pre, ?_, ?_, ?_, ?_⟩
  · simp [App.setThread, App.createPlay, hx.players]
  · rw [hpc']
    exact App.threads_setThread hfirst _
  · simp [hd']
  · intro _
    refine ⟨x.threads.length, rfl, Ne.symm hne, ?_⟩
    rw [App.threads_setThread_of_ne hne, hd']
    exact List.getElem?_concat_length
  · rw [hstopper]
    intro hcreated
    obtain ⟨j, -, hj, hstop⟩ := hx.stopper hcreated
    obtain ⟨hstays, hnej⟩ := App.threads_append hstop (.initStart 0)
    exact ⟨j, by simpa using Ne.symm hnej, hj, by rw [App.threads_setThread_of_ne (Ne.symm hj)]; exact hstays⟩

/-- In the scan and at its end the prepare thread is in `init_prepare`. -/
theorem inApp_of_scans {pc : PreparePc} (h : pc.scans = true) : pc.inApp = .initPrepare 0 := by
  cases pc <;> simp at h ⊢

/-- Every step of the prepare thread is represented. -/
theorem prepare_step (hr : App.lts.Reachable x) (hx : Represents s x p) (h : s.PrepareStep s') :
    Represented s' := by
  have hsame : s'.ui = s.ui → s'.prepare.inApp = s.prepare.inApp → s'.demux = s.demux → s'.stopper = s.stopper →
      Represented s' := by
    intro hui hprepare hdemux hstopper
    exact ⟨x, p, hr, hx.congr (by rw [hui]) hprepare (by rw [hdemux]) (by rw [hdemux]) hstopper⟩
  cases h with
  | scan next hpc hnext =>
    refine hsame rfl ?_ rfl rfl
    rw [inApp_of_scans hpc]
    rcases hnext with ⟨hn, -⟩ | ⟨code, rfl⟩
    · exact inApp_of_scans hn
    · rfl
  | scanned i hpc | skip i hpc | accept k hpc | setPlaying hpc | noVideo hpc | started k hpc | reported hpc
  | detach hpc => exact hsame rfl (by rw [hpc]; rfl) rfl rfl
  | makeChannel i k hpc | setAudioChannel c c' hpc => exact hsame (by simp) (by rw [hpc]; rfl) (by simp) (by simp)
  | startChannel k c c' hpc => exact hsame (by simp) (by simp) (by simp) (by simp)
  | nullHelper | deletedHelper => exact hsame rfl rfl rfl rfl
  | report code next _ hpc =>
    rcases hpc with ⟨hpc, rfl⟩ | ⟨hpc, rfl⟩
    · exact hsame rfl (by rw [hpc]; rfl) rfl rfl
    · exact hx.prepare_ended hr (by rw [hpc]; rfl) rfl rfl rfl rfl
  | onPrepare _ hpc => exact hx.onPrepare hr hpc rfl rfl rfl rfl
  | createPlay hpc => exact hx.createPlay hr hpc rfl rfl rfl rfl

/-! ### The demux thread -/

/-- Before its return the demux thread is in `init_start`. -/
theorem inApp_of_ne_ended {pc : DemuxPc} (h : pc ≠ .ended) : pc.inApp = .initStart 0 := by
  cases pc <;> simp at h ⊢

/-- Every step of the demux thread is represented. -/
theorem demux_step (hr : App.lts.Reachable x) (hx : Represents s x p) (h : s.DemuxStep s') : Represented s' := by
  obtain ⟨hstopper, hui, hprepare, -⟩ := PlayerPhased.demux_keeps h
  obtain ⟨hcreated, hended⟩ := PlayerPhased.demux_runs h
  have hcreated' := PlayerPhased.demux_created h
  by_cases hreturns : s'.demux = .ended
  · obtain ⟨i, hpid, hi, hthread⟩ := hx.play hcreated
    rw [inApp_of_ne_ended hended] at hthread
    have hr' : App.lts.Reachable (x.setThread i .ended) :=
      App.thread_reachable hr hx.app_alive .returns hthread (Or.inr rfl) rfl
    refine ⟨_, p, hr', hx.fault, hx.handle, hui ▸ hx.ui, hx.players, hx.alive, hx.pid_pre, ?_, ?_, ?_, ?_⟩
    · rw [App.threads_setThread_of_ne hi, hprepare]
      exact hx.prepare
    · exact fun hd => absurd hd hcreated'
    · exact fun _ => ⟨i, hpid, hi, by rw [App.threads_setThread hthread, hreturns]; rfl⟩
    · rw [hstopper]
      intro hstop
      obtain ⟨j, hne, hj, hstays⟩ := hx.stopper hstop
      refine ⟨j, hne, hj, ?_⟩
      have hij : i ≠ j := by
        rintro rfl
        exact hne hpid
      rw [App.threads_setThread_of_ne hij, hstays]
  · refine ⟨x, p, hr, hx.congr (by rw [hui]) (by rw [hprepare]) ⟨fun hd => absurd hd hcreated', fun hd => absurd hd hcreated⟩
      ?_ hstopper⟩
    rw [inApp_of_ne_ended hreturns, inApp_of_ne_ended hended]

/-! ### The stop thread -/

/-- The stop thread comes to another place, in one step of the app or in several. -/
theorem setStopper (hx : Represents s x p) {j : Nat} (hpid : p.pid_play ≠ some j) (hj : j ≠ 0)
    (hthread : x.threads[j]? = some s.stopper.inApp) (hui : s'.ui = s.ui) (hprepare : s'.prepare = s.prepare)
    (hdemux : s'.demux = s.demux) : Represents s' (x.setThread j s'.stopper.inApp) p := by
  refine ⟨hx.fault, hx.handle, hui ▸ hx.ui, hx.players, hx.alive, hx.pid_pre, ?_, ?_, ?_, ?_⟩
  · rw [App.threads_setThread_of_ne hj, hprepare]
    exact hx.prepare
  · rw [hdemux]
    exact hx.notStarted
  · rw [hdemux]
    intro hcreated
    obtain ⟨i, hi, hne, hplay⟩ := hx.play hcreated
    refine ⟨i, hi, hne, ?_⟩
    have hij : j ≠ i := by
      rintro rfl
      exact hpid hi
    rw [App.threads_setThread_of_ne hij, hplay]
  · exact fun _ => ⟨j, hpid, hj, App.threads_setThread hthread _⟩

/-- Both steps of a join: the id is read, and the thread it names has ended. -/
theorem join (hr : App.lts.Reachable x) (hx : Represents s x p) {j : Nat} {read next : InitStopPc}
    (join : InitStopPc) (hthread : x.threads[j]? = some (.initStop 0 read))
    (hread : x.initStop j 0 read = some (x.setThread j (.initStop 0 join)))
    (huse : (AppThread.initStop 0 join).uses = none)
    (hjoin : (x.setThread j (.initStop 0 join)).initStop j 0 join =
      some ((x.setThread j (.initStop 0 join)).setThread j (.initStop 0 next)))
    (huse' : (AppThread.initStop 0 read).uses = some 0) : App.lts.Reachable (x.setThread j (.initStop 0 next)) := by
  have hr₁ : App.lts.Reachable (x.setThread j (.initStop 0 join)) :=
    App.thread_reachable hr hx.app_alive .goesOn hthread (Or.inr huse') hread
  have hr₂ : App.lts.Reachable ((x.setThread j (.initStop 0 join)).setThread j (.initStop 0 next)) :=
    App.thread_reachable hr₁ hx.app_alive .goesOn (App.threads_setThread hthread _) (Or.inl huse) hjoin
  simpa [App.setThread] using hr₂

/-- Every step of the stop thread is represented. -/
theorem stopper_step (hr : App.lts.Reachable x) (hx : Represents s x p) (h : s.StopperStep s') : Represented s' := by
  have hcreated : s.stopper ≠ .notCreated := by
    cases h with
    | deleteChannel k hpc => cases k <;> simp [hpc, Kind.deletePc]
    | joinPrepare hpc | joinPlay hpc | deleteHelper hpc | closeFormat hpc => simp [hpc]
  obtain ⟨j, hpid, hj, hthread⟩ := hx.stopper hcreated
  have hui : s'.ui = s.ui := by cases h <;> simp
  have hprepare : s'.prepare = s.prepare := by cases h <;> simp
  have hdemux : s'.demux = s.demux := by cases h <;> simp
  have hmoved : App.lts.Reachable (x.setThread j s'.stopper.inApp) → Represented s' := fun hr' =>
    ⟨_, p, hr', hx.setStopper hpid hj hthread hui hprepare hdemux⟩
  have hset : ∀ {pc : InitStopPc} {thread : AppThread}, s.stopper.inApp = .initStop 0 pc →
      (AppThread.initStop 0 pc).uses = some 0 → x.initStop j 0 pc = some (x.setThread j thread) →
      App.lts.Reachable (x.setThread j thread) := by
    intro pc thread hpc huse hstep
    rw [hpc] at hthread
    exact App.thread_reachable hr hx.app_alive .goesOn hthread (Or.inr huse) hstep
  have hplayers : x.players[0]? = some p := by rw [hx.players]; rfl
  cases h with
  | joinPrepare hpc hended =>
    rw [hpc] at hthread
    refine hmoved (hx.join hr (.joinPre 0) hthread ?_ rfl ?_ rfl)
    · simp [App.initStop, hplayers, hx.pid_pre]
    · have hfirst : (x.setThread j (.initStop 0 (.joinPre 0))).hasEnded 0 = true := by
        rw [App.hasEnded, App.threads_setThread_of_ne hj, hx.prepare, hended]
        rfl
      simp [App.initStop, hfirst]
  | joinPlay hpc hended =>
    rw [hpc] at hthread
    refine hmoved (hx.join hr (.joinPlay p.pid_play) hthread ?_ rfl ?_ rfl)
    · simp [App.initStop, hplayers]
    · have hplay : p.pid_play.all (x.setThread j (.initStop 0 (.joinPlay p.pid_play))).hasEnded = true := by
        rcases hended with hd | hd
        · obtain ⟨i, hi, -, hplay⟩ := hx.play (by simp [hd])
          have hij : j ≠ i := by
            rintro rfl
            exact hpid hi
          rw [hi, Option.all_some, App.hasEnded, App.threads_setThread_of_ne hij, hplay, hd]
          rfl
        · rw [hx.notStarted hd]
          rfl
      simp [App.initStop, hplay]
  | deleteChannel k hpc =>
    refine hmoved ?_
    cases k <;> exact hset (by rw [hpc]; rfl) rfl rfl
  | deleteHelper hpc | closeFormat hpc => exact hmoved (hset (by rw [hpc]; rfl) rfl rfl)

/-! ### The UI thread -/

/-- Every statement of `stop` is represented. -/
theorem stop_step (hr : App.lts.Reachable x) (hx : Represents s x p) (hph : PlayerPhased s) (h : s.UiStep .stop s') :
    Represented s' := by
  cases h with
  | clear hui =>
    have hidle : x.ui = .idle := by rw [hx.ui, hui]; rfl
    have hr' : App.lts.Reachable { x with ui := .stopping 0 } := by
      refine App.step_reachable hr hx.app_alive (a := .call .stop) (Or.inl rfl) ?_
      simp [App.act, App.call, hidle, hx.handle]
    exact ⟨_, p, hr', hx.fault, hx.handle, rfl, hx.players, hx.alive, hx.pid_pre, hx.prepare, hx.notStarted, hx.play,
      hx.stopper⟩
  | zeroHelper hui => exact ⟨x, p, hr, hx.congr (by rw [hui]; rfl) rfl Iff.rfl rfl rfl⟩
  | createStop hui =>
    have hstopping : x.ui = .stopping 0 := by rw [hx.ui, hui]; rfl
    have hnone : s.stopper = .notCreated := by
      by_contra hne
      rcases hph.stopCreated hne with h' | h' <;> rw [hui] at h' <;> cases h'
    have hr' : App.lts.Reachable { x.createStop 0 with ui := .idle } := by
      refine App.step_reachable hr hx.app_alive (a := .ui .returns) (Or.inr ?_) ?_
      · rw [App.usedBy, hstopping]
        rfl
      · simp [App.act, App.uiStep, hstopping]
    refine ⟨_, { p with stopCalled := true }, hr', hx.fault, hx.handle, rfl, ?_, hx.alive, hx.pid_pre, ?_, hx.notStarted,
      ?_, ?_⟩
    · simp [App.createStop, hx.players]
    · exact (App.threads_append hx.prepare _).1
    · intro hcreated
      obtain ⟨i, hi, hne, hplay⟩ := hx.play hcreated
      exact ⟨i, hi, hne, (App.threads_append hplay _).1⟩
    · intro _
      refine ⟨x.threads.length, ?_, Ne.symm (App.threads_append hx.prepare (.initStop 0 .readPre)).2,
        List.getElem?_concat_length⟩
      intro hpid
      by_cases hd : s.demux = .notCreated
      · rw [hx.notStarted hd] at hpid
        cases hpid
      · obtain ⟨i, hi, -, hplay⟩ := hx.play hd
        rw [hi] at hpid
        exact (App.threads_append hplay (.initStop 0 .readPre)).2 (Option.some.inj hpid)

end Represents

/-! ## The runs up to the destructor -/

/-- The app after `prepare` represents the player after its constructor and `prepare()`. -/
theorem represented_new (streams : List AVMediaType) : Represented (Player.new streams) := by
  have hrun : Lts.replay App.step App.new [.call .prepare, .ui .returns] =
      some ⟨some 0, [⟨0, none, false, false⟩], [.initPrepare 0], .idle, none⟩ := rfl
  refine ⟨_, ⟨0, none, false, false⟩, Lts.replay_reachable (fun _ _ _ => id) _ (.init rfl) hrun, ?_⟩
  exact ⟨rfl, rfl, rfl, rfl, rfl, rfl, rfl, fun _ => rfl, fun hne => absurd rfl hne, fun hne => absurd rfl hne⟩

/-- Whatever a player's threads do up to its destructor, an app with that player does too. -/
theorem represented_of_reachable {streams : List AVMediaType} {s : Player}
    (h : ((Player.lts streams).restrict fun _ a => a ≠ .destroy).Reachable s) : Represented s := by
  have hsim : ∃ x, App.lts.Reachable x ∧ ∃ p, Represents s x p := by
    refine h.simulated (R := fun s x => ∃ p, Represents s x p) ?_ ?_
    · rintro s rfl
      obtain ⟨x, p, hr, hx⟩ := represented_new streams
      exact ⟨x, hr, p, hx⟩
    · rintro s a s' x hreach ⟨hne, hstep⟩ hr ⟨p, hx⟩
      obtain ⟨-, -, hstep⟩ := Player.step_cases hstep
      have hrep : Represented s' := by
        cases hstep with
        | prepare h => exact hx.prepare_step hr h
        | demux h => exact hx.demux_step hr h
        | stopper h => exact hx.stopper_step hr h
        | ui h =>
          cases a with
          | stop => exact hx.stop_step hr (playerPhased_of_reachable hreach.of_restrict) h
          | destroy => exact absurd rfl hne
          | _ => cases h
        | channel => exact ⟨x, p, hr, hx.congr (by simp) (by simp) (by simp) (by simp) (by simp)⟩
      obtain ⟨x', p', hr', hx'⟩ := hrep
      exact ⟨x', hr', p', hx'⟩
  obtain ⟨x, hr, p, hx⟩ := hsim
  exact ⟨x, p, hr, hx⟩

end LibraLive

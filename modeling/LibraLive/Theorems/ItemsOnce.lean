import LibraLive.Fragments

/-!
# Items are shown once

As long as no delivery reaches an adapter that has items already: both observers add to the items that there are, while
what they are given is all there is to show.
-/

namespace LibraLive

open LiveData

namespace Viewed

variable {T : Type*} {s : Viewed T} {last : Int} {state : State} {value : T}

/-- The view has the only observer, which has seen the version `last`. -/
structure Single (s : Viewed T) (last : Int) : Prop where
  observers : s.data.mObservers = if s.state = .DESTROYED then [] else [⟨s.view, s.view, s.state.isStarted, last⟩]
  start : START_VERSION ≤ last
  le : last ≤ s.data.mVersion
  seen : s.state.isStarted = true → last = s.data.mVersion
  data : s.data.mData.isSome ↔ START_VERSION < s.data.mVersion

/-- The observer has not seen the value. -/
def unseen (s : Viewed T) : Bool := s.data.mObservers.any fun w => w.mLastVersion < s.data.mVersion

theorem setValue_started (h : s.Single last) (hstarted : s.state.isStarted = true) :
    s.setValue value =
      ({ s with data := ⟨some value, s.data.mVersion + 1, [⟨s.view, s.view, true, s.data.mVersion + 1⟩]⟩ },
        [⟨s.view, s.data.mVersion + 1, value⟩]) := by
  have hunseen : ¬ s.data.mVersion + 1 ≤ last := by
    have := h.le
    omega
  have hcall := @considerNotify_unseen T Nat Nat ⟨some value, s.data.mVersion + 1, [⟨s.view, s.view, true, last⟩]⟩ s.lifecycle
    ⟨s.view, s.view, true, last⟩ (by simp) (by simp [lifecycle, hstarted]) hunseen
  simp [setValue, LiveData.setValue, dispatchingValue, h.observers, State.isStarted_ne hstarted, hstarted, hcall]

theorem setValue_stopped (h : s.Single last) (hstopped : s.state.isStarted = false) :
    s.setValue value = ({ s with data := ⟨some value, s.data.mVersion + 1, s.data.mObservers⟩ }, []) := by
  by_cases hdestroyed : s.state = .DESTROYED
  · simp [setValue, LiveData.setValue, dispatchingValue, h.observers, hdestroyed]
  · simp [setValue, LiveData.setValue, dispatchingValue, h.observers, hdestroyed, considerNotify, hstopped]

theorem onViewCreated_eq (h : s.Single last) (hdestroyed : s.state = .DESTROYED) :
    s.onViewCreated = some
      ({ data := { s.data with mObservers := [⟨s.view + 1, s.view + 1, false, START_VERSION⟩] }
         view := s.view + 1
         state := .INITIALIZED }, []) := by
  simp [onViewCreated, hdestroyed, observe, find, h.observers, lifecycle, State.isStarted, activeStateChanged]

theorem moveTo_destroyed (h : s.Single last) (halive : s.state ≠ .DESTROYED) :
    s.moveTo .DESTROYED = some ({ s with
      data := { s.data with mObservers := [] }
      state := .DESTROYED }, []) := by
  simp [moveTo, halive, onStateChanged, h.observers, lifecycle]

theorem moveTo_unseen (h : s.Single last) (halive : s.state ≠ .DESTROYED) (hstarted : state.isStarted = true)
    (hunseen : last < s.data.mVersion) (hdata : s.data.mData = some value) :
    s.moveTo state = some
      ({ s with
        data := { s.data with mObservers := [⟨s.view, s.view, true, s.data.mVersion⟩] }
        state }, [⟨s.view, s.data.mVersion, value⟩]) := by
  have hstopped : s.state.isStarted = false := by
    by_contra hstarted
    have := h.seen (by simpa using hstarted)
    omega
  simp [moveTo, halive, onStateChanged, h.observers, lifecycle, State.isStarted_ne hstarted, stateChanged,
    activeStateChanged, hstarted, hstopped, considerNotify, hdata, Int.not_le.mpr hunseen]

theorem moveTo_quiet (h : s.Single last) (halive : s.state ≠ .DESTROYED) (hstate : state ≠ .DESTROYED)
    (hseen : state.isStarted = true → last = s.data.mVersion) :
    s.moveTo state = some
      ({ s with
        data := { s.data with mObservers := [⟨s.view, s.view, state.isStarted, last⟩] }
        state }, []) := by
  have hseen : state.isStarted = true → s.data.mVersion ≤ last := fun hstarted => Int.le_of_eq (hseen hstarted).symm
  cases hstarted : state.isStarted <;> cases hbefore : s.state.isStarted <;>
    simp [moveTo, halive, onStateChanged, h.observers, lifecycle, hstate, stateChanged, activeStateChanged, hstarted, hbefore,
      considerNotify, hseen]

/-- What an operation leads to: the observer is not called, or it is called with the value. -/
inductive Outcome (last : Int) (s : Viewed T) : List (Notification T Nat) → Prop where
  | quiet : s.Single last → Outcome last s []
  | called (value : T) : s.Single s.data.mVersion → s.data.mData = some value →
      Outcome last s [⟨s.view, s.data.mVersion, value⟩]

variable {s' : Viewed T} {calls : List (Notification T Nat)}

theorem Outcome.mData (h : Outcome last s calls) : ∀ call ∈ calls, s.data.mData = some call.value := by
  intro call hcall
  cases h with
  | quiet => cases hcall
  | called value _ hvalue => rw [List.mem_singleton.mp hcall, hvalue]

theorem Single.unseen_iff (h : s.Single last) (halive : s.state ≠ .DESTROYED) : s.unseen = true ↔ last < s.data.mVersion := by
  simp [unseen, h.observers, halive]

theorem setValue_outcome (h : s.Single last) (hset : s.setValue value = (s', calls)) :
    Outcome last s' calls ∧ s'.data.mData = some value ∧ s'.data.mVersion = s.data.mVersion + 1 ∧
      (calls ≠ [] ↔ s.state.isStarted = true) := by
  obtain ⟨hobservers, hstart, hle, hseen, hdata⟩ := h
  cases hstarted : s.state.isStarted with
  | false =>
    rw [setValue_stopped ⟨hobservers, hstart, hle, hseen, hdata⟩ hstarted] at hset
    cases hset
    refine ⟨.quiet ⟨hobservers, hstart, by dsimp only; omega, fun h => by simp [hstarted] at h, ?_⟩, rfl, rfl, by simp⟩
    exact iff_of_true rfl (by dsimp only; omega)
  | true =>
    rw [setValue_started ⟨hobservers, hstart, hle, hseen, hdata⟩ hstarted] at hset
    cases hset
    refine ⟨.called value ⟨?_, by dsimp only; omega, Int.le_refl _, fun _ => rfl, ?_⟩ rfl, rfl, rfl, by simp⟩
    · simp [State.isStarted_ne hstarted, hstarted]
    · exact iff_of_true rfl (by dsimp only; omega)

theorem onViewCreated_outcome (h : s.Single last) (hcreated : s.onViewCreated = some (s', calls)) :
    s'.Single START_VERSION ∧ calls = [] ∧ s'.data.mData = s.data.mData ∧ s'.data.mVersion = s.data.mVersion := by
  have hdestroyed : s.state = .DESTROYED := by
    by_contra halive
    rw [onViewCreated, if_pos halive] at hcreated
    cases hcreated
  rw [onViewCreated_eq h hdestroyed] at hcreated
  cases hcreated
  exact ⟨⟨rfl, Int.le_refl _, Int.le_trans h.start h.le, fun h => absurd h Bool.false_ne_true, h.data⟩, rfl, rfl, rfl⟩

theorem moveTo_outcome (h : s.Single last) (hmove : s.moveTo state = some (s', calls)) :
    Outcome last s' calls ∧ s'.data.mData = s.data.mData ∧ s'.data.mVersion = s.data.mVersion ∧
      (calls ≠ [] ↔ state.isStarted = true ∧ s.unseen = true) := by
  have halive : s.state ≠ .DESTROYED := by
    intro hdestroyed
    rw [moveTo, if_pos hdestroyed] at hmove
    cases hmove
  rw [h.unseen_iff halive]
  by_cases hstate : state = .DESTROYED
  · subst hstate
    rw [moveTo_destroyed h halive] at hmove
    cases hmove
    exact ⟨.quiet ⟨rfl, h.start, h.le, fun h => absurd h Bool.false_ne_true, h.data⟩, rfl, rfl, by simp [State.isStarted]⟩
  by_cases hcall : state.isStarted = true ∧ last < s.data.mVersion
  · obtain ⟨hstarted, hunseen⟩ := hcall
    obtain ⟨value, hvalue⟩ := Option.isSome_iff_exists.mp (h.data.mpr (Int.lt_of_le_of_lt h.start hunseen))
    rw [moveTo_unseen h halive hstarted hunseen hvalue] at hmove
    cases hmove
    refine ⟨.called value ⟨?_, Int.le_trans h.start h.le, Int.le_refl _, fun _ => rfl, h.data⟩ hvalue, rfl, rfl,
      by simp [hstarted, hunseen]⟩
    simp [hstate, hstarted]
  · have hseen : state.isStarted = true → last = s.data.mVersion := fun hstarted =>
      Int.le_antisymm h.le (Int.not_lt.mp fun hlt => hcall ⟨hstarted, hlt⟩)
    rw [moveTo_quiet h halive hstate hseen] at hmove
    cases hmove
    exact ⟨.quiet ⟨by simp [hstate], h.start, h.le, hseen, h.data⟩, rfl, rfl, by simp [hcall]⟩

end Viewed

/-! ## Deliveries -/

namespace ListAdapter

variable {T Item : Type*} {adapter : ListAdapter Item} {content : List Item} {v : Viewed T} {last : Int}
  {calls : List (Notification T Nat)}

/-- The items are what was loaded when the adapter got some last. -/
def Once (adapter : ListAdapter Item) : Prop := adapter.items = adapter.loaded

/-- The content is added with every call. -/
def delivered (adapter : ListAdapter Item) (calls : List (Notification T Nat)) (content : List Item) : ListAdapter Item :=
  calls.foldl (fun adapter _ => adapter.addAll content content) adapter

/-- The content is what was loaded last, if the observer has seen the value. -/
def Shows (adapter : ListAdapter Item) (v : Viewed T) (content : List Item) : Prop :=
  ∃ last, v.Single last ∧ (last = v.data.mVersion → adapter.loaded = content)

theorem Shows.started (h : adapter.Shows v content) (hstarted : v.state.isStarted = true) : adapter.loaded = content := by
  obtain ⟨last, hsingle, hloaded⟩ := h
  exact hloaded (hsingle.seen hstarted)

theorem delivered_shows (hout : v.Outcome last calls) (hquiet : last = v.data.mVersion → adapter.loaded = content) :
    (adapter.delivered calls content).Shows v content := by
  cases hout with
  | quiet hsingle => exact ⟨last, hsingle, hquiet⟩
  | called value hsingle _ => exact ⟨_, hsingle, fun _ => rfl⟩

/-- A delivery is right if the adapter has no items yet. -/
theorem delivered_once (hout : v.Outcome last calls) (honce : adapter.Once) :
    (adapter.delivered calls content).Once ↔ (calls ≠ [] → adapter.items = []) := by
  cases hout with
  | quiet => exact iff_of_true honce fun h => absurd rfl h
  | called value => simp [delivered, addAll, Once]

end ListAdapter

/-! ## `HomeFragment` -/

namespace HomeFragment

open ListAdapter

variable {HomeBean : Type*} {s s' : HomeFragment HomeBean} {a : HomeAct HomeBean}
  {calls : List (Notification (List HomeBean) Nat)}

/-- The observer of the view is going to be called. -/
def delivers (s : HomeFragment HomeBean) : HomeAct HomeBean → Bool
  | .getArticleJson _ => s.mDataBeans.state.isStarted
  | .moveTo state => state.isStarted && s.mDataBeans.unseen
  | _ => false

/-- A delivery comes to an adapter without items. -/
def Expected (s : HomeFragment HomeBean) (a : HomeAct HomeBean) : Prop := s.delivers a = true → s.adapter.items = []

instance (s : HomeFragment HomeBean) (a : HomeAct HomeBean) : Decidable (s.Expected a) := inferInstanceAs (Decidable (_ → _))

/-- The value is the concatenation of the pages, and was delivered if the observer has seen it. -/
structure Accumulated (s : HomeFragment HomeBean) : Prop where
  shows : s.adapter.Shows s.mDataBeans s.pages.flatten
  beans : s.mHomeBeans = s.pages.flatten
  value : ∀ value, s.mDataBeans.data.mData = some value → value = s.pages.flatten
  none : s.mDataBeans.data.mVersion = START_VERSION → s.pages = []

theorem foldl_observer (hcalls : ∀ call ∈ calls, call.value = s.pages.flatten) :
    calls.foldl observer s = { s with adapter := s.adapter.delivered calls s.pages.flatten } := by
  induction calls generalizing s with
  | nil => rfl
  | cons call calls ih =>
    have hcall := hcalls call List.mem_cons_self
    have hrest := @ih (s.observer call) fun c hc => hcalls c (List.mem_cons_of_mem _ hc)
    rw [List.foldl_cons, hrest, observer, hcall]
    rfl

/-- Every step keeps that, and keeps the items right exactly if it is as expected. -/
theorem Accumulated.step (h : s.Accumulated) (hstep : s.step a = some s') :
    s'.Accumulated ∧ (s.adapter.Once → (s'.adapter.Once ↔ s.Expected a)) := by
  obtain ⟨⟨last, hsingle, hloaded⟩, hbeans, hvalue, hnone⟩ := h
  cases a with
  | getArticleJson datas =>
    cases hset : s.mDataBeans.setValue (s.mHomeBeans ++ datas) with
    | mk v calls =>
      rw [HomeFragment.step, hset] at hstep
      obtain ⟨hout, hdata, hversion, hcalls⟩ := Viewed.setValue_outcome hsingle hset
      have hflatten : s.mHomeBeans ++ datas = (s.pages ++ [datas]).flatten := by simp [hbeans]
      have hvalue : ∀ value, v.data.mData = some value → value = (s.pages ++ [datas]).flatten := fun value h => by
        rw [hdata, hflatten] at h
        exact (Option.some.inj h).symm
      cases hstep
      rw [foldl_observer fun call hcall => hvalue _ (hout.mData call hcall)]
      have hle := hsingle.le
      have hstart := hsingle.start
      refine ⟨⟨delivered_shows hout fun (hlast : last = v.data.mVersion) => ?_, hflatten, hvalue,
        fun (h : v.data.mVersion = START_VERSION) => ?_⟩, fun honce => ?_⟩
      · omega
      · omega
      · rw [delivered_once hout honce, hcalls]
        rfl
  | onCreate =>
    obtain ⟨-, heq⟩ := Option.ite_none_right_eq_some.mp hstep
    cases heq
    exact ⟨⟨⟨last, hsingle, hloaded⟩, hbeans, hvalue, hnone⟩, fun honce => iff_of_true honce fun h => by cases h⟩
  | onViewCreated =>
    obtain ⟨⟨v, calls⟩, hcreated, rfl⟩ := Option.map_eq_some_iff.mp hstep
    obtain ⟨hsingle, rfl, hdata, hversion⟩ := Viewed.onViewCreated_outcome hsingle hcreated
    refine ⟨⟨⟨_, hsingle, fun (hlast : START_VERSION = v.data.mVersion) => ?_⟩, hbeans, fun value h => hvalue value (hdata ▸ h),
      fun h => hnone (hversion ▸ h)⟩, fun _ => iff_of_true rfl fun h => by cases h⟩
    have hpages := hnone (hversion ▸ hlast.symm)
    exact (congrArg List.flatten hpages).symm
  | moveTo state =>
    obtain ⟨⟨v, calls⟩, hmove, rfl⟩ := Option.map_eq_some_iff.mp hstep
    obtain ⟨hout, hdata, hversion, hcalls⟩ := Viewed.moveTo_outcome hsingle hmove
    have hvalue : ∀ value, v.data.mData = some value → value = s.pages.flatten := fun value h => hvalue value (hdata ▸ h)
    dsimp only
    rw [foldl_observer (s := { s with mDataBeans := v }) fun call hcall => hvalue _ (hout.mData call hcall)]
    refine ⟨⟨delivered_shows hout fun (hlast : last = v.data.mVersion) => hloaded (hversion ▸ hlast), hbeans, hvalue,
      fun h => hnone (hversion ▸ h)⟩, fun honce => ?_⟩
    rw [delivered_once hout honce, hcalls, Expected, delivers, Bool.and_eq_true]

theorem accumulated (h : (lts HomeBean).Reachable s) : s.Accumulated := by
  refine Lts.Reachable.invariant ?_ (fun s a s' _ h hstep => (h.step hstep).1) h
  rintro s rfl
  refine ⟨⟨START_VERSION, ⟨rfl, Int.le_refl _, Int.le_refl _, fun h => absurd h Bool.false_ne_true, ?_⟩, fun _ => rfl⟩, rfl, ?_,
    fun _ => rfl⟩
  · simp [start, Viewed.ofData, LiveData.empty]
  · exact fun value h => absurd h (by simp [start, Viewed.ofData, LiveData.empty])

theorem once (h : ((lts HomeBean).restrict Expected).Reachable s) : s.adapter.Once := by
  refine Lts.Reachable.restrict_invariant ?_ (fun s a s' hr hexpected honce hstep => ?_) h
  · rintro s rfl
    rfl
  · exact (((accumulated hr).step hstep).2 honce).mpr hexpected

end HomeFragment

/-! ## `MsgFragment` -/

namespace MsgFragment

open ListAdapter

variable {Uri : Type*} {withAppendedId : Int64 → Uri} {s s' : MsgFragment Uri} {a : MsgAct}
  {calls : List (Notification (Option Int32) Nat)}

/-- The observer of the view is going to be called. -/
def delivers (s : MsgFragment Uri) : MsgAct → Bool
  | .posted => s.state.state.isStarted
  | .moveTo state => state.isStarted && s.state.unseen
  | _ => false

/-- A delivery comes to an adapter without items. -/
def Expected (s : MsgFragment Uri) (a : MsgAct) : Prop := s.delivers a = true → s.adapter.items = []

instance (s : MsgFragment Uri) (a : MsgAct) : Decidable (s.Expected a) := inferInstanceAs (Decidable (_ → _))

/-- There is a value always, and the videos were added if the observer has seen it. -/
structure Found (s : MsgFragment Uri) : Prop where
  shows : s.adapter.Shows s.state s.videos
  set : START_VERSION < s.state.data.mVersion

theorem foldl_observer : calls.foldl observer s = { s with adapter := s.adapter.delivered calls s.videos } := by
  induction calls generalizing s with
  | nil => rfl
  | cons call calls ih => exact ih

/-- Neither the value nor the adapter is touched. -/
theorem loadVideoData_state (s : MsgFragment Uri) (cursor : Option (List (Int64 × String))) :
    (s.loadVideoData withAppendedId cursor).state = s.state ∧ (s.loadVideoData withAppendedId cursor).adapter = s.adapter := by
  cases cursor <;> exact ⟨rfl, rfl⟩

/-- Every step keeps that, and keeps the items right exactly if it is as expected. -/
theorem Found.step (h : s.Found) (hstep : s.step withAppendedId a = some s') :
    s'.Found ∧ (s.adapter.Once → (s'.adapter.Once ↔ s.Expected a)) := by
  obtain ⟨⟨last, hsingle, hloaded⟩, hset⟩ := h
  cases a with
  | onCreate cursor =>
    obtain ⟨hdestroyed, heq⟩ := Option.ite_none_right_eq_some.mp hstep
    obtain ⟨hstate, hadapter⟩ := @loadVideoData_state _ withAppendedId { s with videos := [] } cursor
    cases heq
    have hsingle' : s.state.Single START_VERSION :=
      ⟨by rw [hsingle.observers, if_pos hdestroyed, if_pos hdestroyed], Int.le_refl _, Int.le_of_lt hset,
        fun h => by simp [hdestroyed, State.isStarted] at h, hsingle.data⟩
    refine ⟨⟨⟨START_VERSION, hstate.symm ▸ hsingle', fun hlast => ?_⟩, hstate.symm ▸ hset⟩, fun honce => ?_⟩
    · rw [hstate] at hlast
      exact absurd hset (Int.not_lt.mpr (Int.le_of_eq hlast.symm))
    · rw [hadapter]
      exact iff_of_true honce fun h => by cases h
  | onViewCreated =>
    obtain ⟨⟨v, calls⟩, hcreated, rfl⟩ := Option.map_eq_some_iff.mp hstep
    obtain ⟨hsingle, rfl, -, hversion⟩ := Viewed.onViewCreated_outcome hsingle hcreated
    have hset : START_VERSION < v.data.mVersion := hversion ▸ hset
    exact ⟨⟨⟨_, hsingle, fun hlast => absurd hset (Int.not_lt.mpr (Int.le_of_eq hlast.symm))⟩, hset⟩,
      fun _ => iff_of_true rfl fun h => by cases h⟩
  | moveTo state =>
    obtain ⟨⟨v, calls⟩, hmove, rfl⟩ := Option.map_eq_some_iff.mp hstep
    obtain ⟨hout, -, hversion, hcalls⟩ := Viewed.moveTo_outcome hsingle hmove
    dsimp only
    rw [foldl_observer]
    refine ⟨⟨delivered_shows hout fun (hlast : last = v.data.mVersion) => hloaded (hversion ▸ hlast), hversion ▸ hset⟩,
      fun honce => ?_⟩
    rw [delivered_once hout honce, hcalls, Expected, delivers, Bool.and_eq_true]
  | posted =>
    obtain ⟨value, -, heq⟩ := Option.map_eq_some_iff.mp hstep
    cases hvalue : s.state.setValue value with
    | mk v calls =>
      rw [hvalue] at heq
      obtain ⟨hout, -, hversion, hcalls⟩ := Viewed.setValue_outcome hsingle hvalue
      have hle := hsingle.le
      cases heq
      dsimp only
      rw [foldl_observer]
      refine ⟨⟨delivered_shows hout fun (hlast : last = v.data.mVersion) => ?_, ?_⟩, fun honce => ?_⟩
      · omega
      · show START_VERSION < v.data.mVersion
        omega
      · rw [delivered_once hout honce, hcalls]
        rfl

theorem found (h : (lts withAppendedId).Reachable s) : s.Found := by
  refine Lts.Reachable.invariant ?_ (fun s a s' _ h hstep => (h.step hstep).1) h
  rintro s rfl
  have hset : START_VERSION < START_VERSION + 1 := Int.lt_succ _
  exact ⟨⟨START_VERSION, ⟨rfl, Int.le_refl _, Int.le_of_lt hset, fun h => absurd h Bool.false_ne_true, iff_of_true rfl hset⟩,
    fun hlast => absurd hset (Int.not_lt.mpr (Int.le_of_eq hlast.symm))⟩, hset⟩

theorem once (h : ((lts withAppendedId).restrict Expected).Reachable s) : s.adapter.Once := by
  refine Lts.Reachable.restrict_invariant ?_ (fun s a s' hr hexpected honce hstep => ?_) h
  · rintro s rfl
    rfl
  · exact (((found hr).step hstep).2 honce).mpr hexpected

end MsgFragment

/-! ## Both -/

/-- Where every delivery comes to an adapter without items, the items are the ones that were loaded, once each. -/
theorem items_once {HomeBean Uri : Type*} (withAppendedId : Int64 → Uri) :
    (∀ s, ((HomeFragment.lts HomeBean).restrict HomeFragment.Expected).Reachable s →
      s.adapter.Once ∧ (s.mDataBeans.state.isStarted = true → s.adapter.items = s.pages.flatten)) ∧
    ∀ s, ((MsgFragment.lts withAppendedId).restrict MsgFragment.Expected).Reachable s →
      s.adapter.Once ∧ (s.state.state.isStarted = true → s.adapter.items = s.videos) := by
  refine ⟨fun s h => ?_, fun s h => ?_⟩
  · have honce := HomeFragment.once h
    exact ⟨honce, fun hstarted => honce.trans ((HomeFragment.accumulated h.of_restrict).shows.started hstarted)⟩
  · have honce := MsgFragment.once h
    exact ⟨honce, fun hstarted => honce.trans ((MsgFragment.found h.of_restrict).shows.started hstarted)⟩

/-- A view that was stopped before the second page came, and one that was made after it; and the videos, where the posted
value is set before the view is started. -/
theorem items_once_example :
    (∃ s : HomeFragment Nat, (s.adapter.Once ∧ (s.mDataBeans.state.isStarted = true → s.adapter.items = s.pages.flatten)) ∧
      s.pages = [[1, 2], [3]] ∧ s.adapter.items = [1, 2, 3]) ∧
    ∃ s : MsgFragment Int64, (s.adapter.Once ∧ (s.state.state.isStarted = true → s.adapter.items = s.videos)) ∧
      s.adapter.items.map Video.id = [7, 5] := by
  have hhome : (Lts.replayIf HomeFragment.step (fun s a => decide (s.Expected a)) HomeFragment.start
      [.onCreate, .onViewCreated, .moveTo .STARTED, .getArticleJson [1, 2], .moveTo .CREATED, .getArticleJson [3],
        .moveTo .DESTROYED, .onViewCreated, .moveTo .RESUMED]).map (fun s => (s.pages, s.adapter.items)) =
        some ([[1, 2], [3]], [1, 2, 3]) := by decide
  have hmsg : (Lts.replayIf (MsgFragment.step id) (fun s a => decide (s.Expected a)) MsgFragment.start
      [.onCreate (some [(7, "a"), (5, "b")]), .onViewCreated, .posted, .moveTo .STARTED]).map
        (fun s => s.adapter.items.map Video.id) = some [7, 5] := by decide
  obtain ⟨s, hs, heq⟩ := Option.map_eq_some_iff.mp hhome
  obtain ⟨t, ht, heq'⟩ := Option.map_eq_some_iff.mp hmsg
  obtain ⟨hpages, hitems⟩ := Prod.mk.inj heq
  obtain ⟨hhomes, hmsgs⟩ := @items_once Nat Int64 id
  refine ⟨⟨s, hhomes s ?_, hpages, hitems⟩, t, hmsgs t ?_, heq'⟩
  · exact Lts.replayIf_reachable (fun _ _ _ h => h) (fun _ _ h => of_decide_eq_true h) _ (Lts.Reachable.init rfl) hs
  · exact Lts.replayIf_reachable (fun _ _ _ h => h) (fun _ _ h => of_decide_eq_true h) _ (Lts.Reachable.init rfl) ht

/-- Two responses while a view is started, and a posted value that is set while it is. -/
theorem items_doubled :
    (∃ s, (HomeFragment.lts Nat).Reachable s ∧ s.pages = [[1], [2]] ∧ s.adapter.items = [1, 1, 2] ∧ ¬ s.adapter.Once) ∧
    ∃ s, (@MsgFragment.lts Int64 id).Reachable s ∧ s.videos.map Video.id = [5] ∧ s.adapter.items.map Video.id = [5, 5] ∧
      ¬ s.adapter.Once := by
  have hhome : (Lts.replay HomeFragment.step HomeFragment.start
      [.onCreate, .onViewCreated, .moveTo .STARTED, .getArticleJson [1], .getArticleJson [2]]).map
        (fun s => (s.pages, s.adapter.items, s.adapter.loaded)) = some ([[1], [2]], [1, 1, 2], [1, 2]) := by decide
  have hmsg : (Lts.replay (MsgFragment.step id) MsgFragment.start
      [.onCreate (some [(5, "a")]), .onViewCreated, .moveTo .STARTED, .posted]).map
        (fun s => (s.videos.map Video.id, s.adapter.items.map Video.id, s.adapter.loaded.map Video.id)) =
          some ([5], [5, 5], [5]) := by decide
  obtain ⟨s, hs, heq⟩ := Option.map_eq_some_iff.mp hhome
  obtain ⟨t, ht, heq'⟩ := Option.map_eq_some_iff.mp hmsg
  simp only [Prod.mk.injEq] at heq heq'
  obtain ⟨hpages, hitems, hloaded⟩ := heq
  obtain ⟨hvideos, hitems', hloaded'⟩ := heq'
  refine ⟨⟨s, ?_, hpages, hitems, fun honce => ?_⟩, t, ?_, hvideos, hitems', fun honce => ?_⟩
  · exact Lts.replay_reachable (fun _ _ _ h => h) _ (Lts.Reachable.init rfl) hs
  · rw [ListAdapter.Once, hitems, hloaded] at honce
    exact absurd honce (by decide)
  · exact Lts.replay_reachable (fun _ _ _ h => h) _ (Lts.Reachable.init rfl) ht
  · rw [ListAdapter.Once] at honce
    rw [honce, hloaded'] at hitems'
    exact absurd hitems' (by decide)

end LibraLive

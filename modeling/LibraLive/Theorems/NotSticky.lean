import LibraLive.BaseLiveDataKT
import LibraLive.SeenVersions

/-!
# An observer gets new values only

Of a `BaseLiveDataKT`: unless its owner is started already when it is registered and there is a value, which it gets
inside `observe` then, before the version that it has seen is set. An observer that is registered once more while it has a
value to come loses that.
-/

namespace LibraLive

open LiveData

variable {T K O : Type*} [DecidableEq K] [DecidableEq O]

namespace Entry

/-- Without the calls with a value that was set before the observer was registered. -/
def freshFrom (registered : K → Int) : List (Entry T K) → List (Entry T K)
  | [] => []
  | .registered observer version :: es =>
    .registered observer version :: freshFrom (Function.update registered observer version) es
  | .called call :: es =>
    if registered call.observer < call.version then .called call :: freshFrom registered es else freshFrom registered es

/-- The versions with which the observers were registered last. -/
def registeredAfter (registered : K → Int) : List (Entry T K) → K → Int
  | [] => registered
  | .registered observer version :: es => registeredAfter (Function.update registered observer version) es
  | .called _ :: es => registeredAfter registered es

def fresh (log : List (Entry T K)) : List (Entry T K) := freshFrom (fun _ => START_VERSION) log

theorem freshFrom_append (registered : K → Int) (es es' : List (Entry T K)) :
    freshFrom registered (es ++ es') = freshFrom registered es ++ freshFrom (registeredAfter registered es) es' := by
  induction es generalizing registered with
  | nil => rfl
  | cons e es ih =>
    cases e with
    | registered observer version => exact congrArg _ (ih _)
    | called call =>
      simp only [List.cons_append, freshFrom, registeredAfter, ih]
      split_ifs <;> rfl

theorem registeredAfter_append (registered : K → Int) (es es' : List (Entry T K)) :
    registeredAfter registered (es ++ es') = registeredAfter (registeredAfter registered es) es' := by
  induction es generalizing registered with
  | nil => rfl
  | cons e es ih =>
    cases e with
    | registered observer version => exact ih _
    | called call => exact ih _

theorem freshFrom_called (registered : K → Int) (calls : List (Notification T K)) :
    freshFrom registered (calls.map .called) = (calls.filter (isNew registered)).map .called := by
  induction calls with
  | nil => rfl
  | cons call calls ih =>
    simp only [List.map_cons, freshFrom, List.filter_cons, isNew, decide_eq_true_eq, ih]
    split_ifs <;> rfl

theorem registeredAfter_called (registered : K → Int) (calls : List (Notification T K)) :
    registeredAfter registered (calls.map .called) = registered := by
  induction calls with
  | nil => rfl
  | cons call calls ih => exact ih

/-- Nothing is left out twice. -/
theorem freshFrom_idem (registered : K → Int) (es : List (Entry T K)) :
    freshFrom registered (freshFrom registered es) = freshFrom registered es := by
  induction es generalizing registered with
  | nil => rfl
  | cons e es ih =>
    cases e with
    | registered observer version => exact congrArg (Entry.registered observer version :: ·) (ih _)
    | called call =>
      simp only [freshFrom]
      split_ifs with hnew
      · rw [freshFrom, if_pos hnew, ih]
      · exact ih _

theorem length_freshFrom_le (registered : K → Int) (es : List (Entry T K)) : (freshFrom registered es).length ≤ es.length := by
  induction es generalizing registered with
  | nil => exact Nat.le_refl _
  | cons e es ih =>
    cases e with
    | registered observer version => exact Nat.succ_le_succ (ih _)
    | called call =>
      rw [freshFrom]
      split_ifs
      · exact Nat.succ_le_succ (ih _)
      · exact Nat.le_succ_of_le (ih _)

end Entry

open Entry

namespace BaseLiveDataKT

variable {registered : K → Int} {d d' : LiveData T K O} {lifecycle : O → State} {owner : O} {observer : K}
  {calls : List (Notification T K)}

omit [DecidableEq O] in
/-- The wrapper of an observer that has seen the value is left as it is. -/
theorem check_seen (hlast : ∀ w ∈ d.mObservers, w.mLastVersion ≤ d.mVersion)
    (hseen : ∀ w ∈ d.mObservers, w.mObserver = observer → d.mVersion ≤ w.mLastVersion) (h : check d observer = some d') :
    d' = d := by
  unfold check at h
  split_ifs at h
  cases h
  refine congrArg (LiveData.mk d.mData d.mVersion) ((List.map_congr_left (g := id) fun w hw => ?_).trans (List.map_id _))
  split_ifs with hobserver
  · rw [← Int.le_antisymm (hlast w hw) (hseen w hw hobserver)]
    rfl
  · rfl

omit [DecidableEq O] in
/-- The wrapper of an observer that was registered last gets the present version. -/
theorem check_registered {w : ObserverWrapper K O} (hnone : d.find w.mObserver = none) :
    check { d with mObservers := d.mObservers ++ [w] } w.mObserver =
      some { d with mObservers := d.mObservers ++ [{ w with mLastVersion := d.mVersion }] } := by
  have hne : ∀ v ∈ d.mObservers, v.mObserver ≠ w.mObserver := fun v hv heq =>
    find_eq_none.mp hnone (List.mem_map.mpr ⟨v, hv, heq⟩)
  have hfind : ¬ (({ d with mObservers := d.mObservers ++ [w] } : LiveData T K O).find w.mObserver).isNone = true := by
    simp [find]
  have hrest : (d.mObservers.map fun v => if v.mObserver = w.mObserver then { v with mLastVersion := d.mVersion } else v) =
      d.mObservers :=
    (List.map_congr_left (g := id) fun v hv => if_neg (hne v hv)).trans (List.map_id _)
  rw [check, if_neg hfind]
  simp only [List.map_append, hrest, List.map_singleton, if_pos]

omit [DecidableEq O] in
theorem check_found (h : check d observer = some d') : (d'.find observer).isSome = true := by
  unfold check at h
  split_ifs at h with hnone
  cases h
  have hsame : ((fun w : ObserverWrapper K O => decide (w.mObserver = observer)) ∘
      fun w => if w.mObserver = observer then { w with mLastVersion := d.mVersion } else w) =
        fun w => decide (w.mObserver = observer) := by
    funext w
    dsimp only [Function.comp]
    split_ifs <;> rfl
  rw [find, List.find?_map, hsame, Option.isSome_map]
  rwa [Bool.not_eq_true, Option.isNone_eq_false_iff] at hnone

/-- The two `observe` alike, if a new observer has nothing to be called with. -/
theorem observe_registered (hversion : START_VERSION ≤ d.mVersion) (halive : lifecycle owner ≠ .DESTROYED)
    (hnone : d.find observer = none) (hquiet : (lifecycle owner).isStarted = true → d.mVersion = START_VERSION) :
    observe true (raiseAll registered d) lifecycle owner observer =
      some (raiseAll (Function.update registered observer d.mVersion)
        { d with mObservers := d.mObservers ++ [⟨observer, owner, (lifecycle owner).isStarted, START_VERSION⟩] }, []) := by
  have hnone' : (raiseAll registered d).find observer = none := by
    rw [find_raiseAll, hnone]
    rfl
  have hrest : d.mObservers.map (raised (Function.update registered observer d.mVersion)) =
      d.mObservers.map (raised registered) := by
    refine List.map_congr_left fun v hv => ?_
    have hne : v.mObserver ≠ observer := fun heq => find_eq_none.mp hnone (List.mem_map.mpr ⟨v, hv, heq⟩)
    rw [raised, raised, Function.update_of_ne hne]
  have hlist : (d.mObservers ++ [(⟨observer, owner, (lifecycle owner).isStarted, START_VERSION⟩ : ObserverWrapper K O)]).map
      (raised (Function.update registered observer d.mVersion)) =
        d.mObservers.map (raised registered) ++ [⟨observer, owner, (lifecycle owner).isStarted, d.mVersion⟩] := by
    rw [List.map_append, hrest, List.map_singleton, raised, Function.update_self, Int.max_eq_left hversion]
  rw [observe, observe_quiet halive hnone' hquiet, Option.bind_some]
  exact (congrArg (Option.map fun d => (d, [])) (check_registered hnone')).trans
    (congrArg (fun ws => some (LiveData.mk d.mData d.mVersion ws, [])) hlist.symm)

/-- A registered observer has seen the value afterwards. -/
theorem observe_raises (hlast : ∀ w ∈ d.mObservers, w.mLastVersion ≤ d.mVersion)
    (hknown : (d.find observer).isSome = true)
    (h : observe true (raiseAll registered d) lifecycle owner observer = some (d', calls)) :
    d' = raiseAll (Function.update registered observer d.mVersion) d ∧ calls = [] := by
  obtain ⟨⟨d₁, calls₁⟩, hsuper, hcheck⟩ := Option.bind_eq_some_iff.mp h
  have hknown' : ((raiseAll registered d).find observer).isSome = true := by
    rw [find_raiseAll, Option.isSome_map]
    exact hknown
  obtain ⟨rfl, rfl⟩ := observe_known (Or.inr hknown') hsuper
  obtain ⟨d₂, hd, heq⟩ := Option.map_eq_some_iff.mp hcheck
  cases heq
  refine ⟨?_, rfl⟩
  unfold check at hd
  split_ifs at hd
  cases hd
  refine congrArg (LiveData.mk d.mData d.mVersion) ((List.map_map ..).trans (List.map_congr_left fun w hw => ?_))
  have hlast := hlast w hw
  by_cases hobserver : w.mObserver = observer
  · subst hobserver
    simp [raised, raiseAll, Int.max_eq_left hlast]
  · simp [raised, hobserver]

/-- They do nothing, if the observer is not registered now, and has seen the value if it was registered before. -/
theorem observe_again (hlast : ∀ w ∈ d.mObservers, w.mLastVersion ≤ d.mVersion)
    (hseen : ∀ w ∈ d.mObservers, w.mObserver = observer → d.mVersion ≤ w.mLastVersion)
    (hknown : lifecycle owner = .DESTROYED ∨ (d.find observer).isSome)
    (h : observe true d lifecycle owner observer = some (d', calls)) : d' = d ∧ calls = [] := by
  obtain ⟨⟨d₁, calls₁⟩, hsuper, hcheck⟩ := Option.bind_eq_some_iff.mp h
  obtain ⟨rfl, rfl⟩ := observe_known hknown hsuper
  obtain ⟨d₂, hd, heq⟩ := Option.map_eq_some_iff.mp hcheck
  cases heq
  exact ⟨check_seen hlast hseen hd, rfl⟩

end BaseLiveDataKT

/-! ## Runs -/

namespace Scenes

open BaseLiveDataKT

/-- The observers are called with values that were set after they were registered only, and with every one of these that
they would get from a plain `LiveData`. -/
structure NotSticky (s : Scenes T K O) : Prop where
  later : fresh s.kt.log = s.kt.log
  missesNone : (fresh s.plain.log).Sublist s.kt.log

/-- No observer is registered with a started owner when there is a value, and none that is registered and has not seen the
value is registered once more. -/
def Expected (s : Scenes T K O) : Use T K O → Prop
  | .observe owner observer =>
    ((s.kt.liveData.find observer).isNone → (s.kt.lifecycle owner).isStarted → s.kt.liveData.mVersion = START_VERSION) ∧
      ∀ w ∈ s.kt.liveData.mObservers, w.mObserver = observer → s.kt.liveData.mVersion ≤ w.mLastVersion
  | _ => True

instance (s : Scenes T K O) : ∀ use, Decidable (Expected s use)
  | .observe _ _ => inferInstanceAs (Decidable (_ ∧ _))
  | .setValue _ => inferInstanceAs (Decidable True)
  | .stateChanged _ _ => inferInstanceAs (Decidable True)

/-- The versions with which the observers of the plain value were registered. -/
def registered (s : Scenes T K O) : K → Int := registeredAfter (fun _ => START_VERSION) s.plain.log

/-- The two scenes are alike, but for what the observers have seen and the calls they get because of that. -/
structure Related (s : Scenes T K O) : Prop where
  sound : Sound s.plain.lifecycle s.plain.liveData
  registered : Registered s.registered s.plain.liveData
  lifecycle : s.kt.lifecycle = s.plain.lifecycle
  liveData : s.kt.liveData = raiseAll s.registered s.plain.liveData
  log : s.kt.log = fresh s.plain.log

variable {s s' : Scenes T K O} {use : Use T K O} {d : LiveData T K O} {lifecycle : O → State} {calls : List (Notification T K)}

omit [DecidableEq O] in
/-- Where an observer was registered already, or is not registered now, nothing is noted. -/
theorem noteRegistered_known {s : Scene T K O} {observer : K}
    (hknown : (d.find observer).isSome = true → (s.liveData.find observer).isSome = true) :
    s.noteRegistered d observer = [] := by
  refine if_neg ?_
  rintro ⟨hnone, hsome⟩
  rw [Option.isNone_iff_eq_none.mp hnone] at hknown
  cases hknown hsome

omit [DecidableEq O] in
theorem noteRegistered_new {s : Scene T K O} {observer : K} (hnone : s.liveData.find observer = none)
    (hsome : (d.find observer).isSome = true) : s.noteRegistered d observer = [.registered observer s.liveData.mVersion] :=
  if_pos ⟨by rw [hnone, Option.isNone_none], hsome⟩

omit [DecidableEq O] in
/-- They stay so when observers are called, the ones of the `BaseLiveDataKT` with what is new to them. -/
theorem Related.called (h : Related s) (hsound : Sound lifecycle d) (hregistered : Registered s.registered d) :
    Related
      { plain :=
          { lifecycle
            liveData := d
            log := s.plain.log ++ calls.map .called }
        kt :=
          { lifecycle
            liveData := raiseAll s.registered d
            log := s.kt.log ++ (calls.filter (isNew s.registered)).map .called } } := by
  have hsame : registeredAfter (fun _ => START_VERSION) (s.plain.log ++ calls.map .called) = s.registered := by
    rw [registeredAfter_append, registeredAfter_called]
    rfl
  refine ⟨hsound, ?_, rfl, ?_, ?_⟩
  · rw [Scenes.registered, hsame]
    exact hregistered
  · exact congrArg (fun registered => raiseAll registered d) hsame.symm
  · rw [h.log, fresh, fresh, freshFrom_append, freshFrom_called]
    rfl

omit [DecidableEq O] in
/-- They stay so when an observer is registered. -/
theorem Related.noted {w : ObserverWrapper K O} (h : Related s)
    (hsound : Sound s.plain.lifecycle { s.plain.liveData with mObservers := s.plain.liveData.mObservers ++ [w] }) :
    Related
      { plain :=
          { s.plain with
            liveData := { s.plain.liveData with mObservers := s.plain.liveData.mObservers ++ [w] }
            log := s.plain.log ++ [.registered w.mObserver s.plain.liveData.mVersion] }
        kt :=
          { s.kt with
            liveData := raiseAll (Function.update s.registered w.mObserver s.plain.liveData.mVersion)
              { s.plain.liveData with mObservers := s.plain.liveData.mObservers ++ [w] }
            log := s.kt.log ++ [.registered w.mObserver s.plain.liveData.mVersion] } } := by
  have hsame : registeredAfter (fun _ => START_VERSION) (s.plain.log ++ [.registered w.mObserver s.plain.liveData.mVersion]) =
      Function.update s.registered w.mObserver s.plain.liveData.mVersion := by
    rw [registeredAfter_append]
    rfl
  refine ⟨hsound, ?_, h.lifecycle, ?_, ?_⟩
  · rw [Scenes.registered, hsame]
    exact h.registered.append w
  · exact congrArg (fun registered => raiseAll registered _) hsame.symm
  · rw [h.log, fresh, fresh, freshFrom_append]
    rfl

omit [DecidableEq O] in
/-- No observer has seen more than there was. -/
theorem Related.last_le (h : Related s) : ∀ w ∈ s.kt.liveData.mObservers, w.mLastVersion ≤ s.kt.liveData.mVersion := by
  rw [h.liveData]
  intro w hw
  obtain ⟨v, hv, rfl⟩ := List.mem_map.mp hw
  exact Int.max_le.mpr ⟨h.registered v hv, (h.sound.kept v hv).last⟩

omit [DecidableEq O] in
theorem Related.isSome_find (h : Related s) (observer : K) :
    (s.kt.liveData.find observer).isSome = (s.plain.liveData.find observer).isSome := by
  rw [h.liveData, find_raiseAll, Option.isSome_map]

/-- They stay so after `observe`, if it is called as expected. -/
theorem Related.observe {owner : O} {observer : K} {d' : LiveData T K O} {calls' : List (Notification T K)} (h : Related s)
    (hexpected : Expected s (.observe owner observer))
    (hobserve : s.plain.liveData.observe s.plain.lifecycle owner observer = some (d, calls))
    (hobserve' : BaseLiveDataKT.observe true s.kt.liveData s.kt.lifecycle owner observer = some (d', calls')) :
    Related
      { plain := { s.plain with
          liveData := d
          log := s.plain.log ++ (s.plain.noteRegistered d observer ++ calls.map .called) }
        kt := { s.kt with
          liveData := d'
          log := s.kt.log ++ (s.kt.noteRegistered d' observer ++ calls'.map .called) } } := by
  obtain ⟨hquiet, hseen⟩ := hexpected
  by_cases hknown : s.plain.lifecycle owner = .DESTROYED ∨ (s.plain.liveData.find observer).isSome
  · have hknown' : s.kt.lifecycle owner = .DESTROYED ∨ (s.kt.liveData.find observer).isSome := by
      rw [h.lifecycle, h.isSome_find]
      exact hknown
    obtain ⟨rfl, rfl⟩ := observe_known hknown hobserve
    obtain ⟨rfl, rfl⟩ := observe_again h.last_le hseen hknown' hobserve'
    simp only [noteRegistered_known id, List.map_nil, List.append_nil]
    exact h
  · rw [not_or, Bool.not_eq_true, Option.isSome_eq_false_iff, Option.isNone_iff_eq_none] at hknown
    obtain ⟨halive, hnone⟩ := hknown
    have hnone' : s.kt.liveData.find observer = none := by
      rw [h.liveData, find_raiseAll, hnone, Option.map_none]
    have hsound := h.sound.observe hobserve
    have hquiet := hquiet (by rw [hnone', Option.isNone_none])
    rw [h.liveData, h.lifecycle] at hquiet hobserve'
    rw [observe_registered h.sound.version halive hnone hquiet] at hobserve'
    rw [observe_quiet halive hnone hquiet] at hobserve
    obtain ⟨hd, rfl⟩ := Prod.mk.inj (Option.some.inj hobserve)
    obtain ⟨hd', rfl⟩ := Prod.mk.inj (Option.some.inj hobserve')
    have hsome : (d.find observer).isSome = true := by
      rw [← hd]
      simp [find]
    have hsome' : (d'.find observer).isSome = true := by
      rw [← hd', find_raiseAll, Option.isSome_map, hd]
      exact hsome
    rw [noteRegistered_new hnone hsome, noteRegistered_new hnone' hsome', h.liveData]
    subst hd
    subst hd'
    exact h.noted hsound

/-- A step that is expected keeps the two scenes alike. -/
theorem Related.step (h : Related s) (hexpected : Expected s use) (hstep : s.step use = some s') : Related s' := by
  obtain ⟨plain, hplain, hmap⟩ := Option.bind_eq_some_iff.mp hstep
  obtain ⟨kt, hkt, rfl⟩ := Option.map_eq_some_iff.mp hmap
  cases use with
  | setValue value =>
    rw [Scene.step, h.liveData, h.lifecycle, setValue_raised h.registered] at hkt
    obtain rfl := Option.some.inj hplain
    obtain rfl := Option.some.inj hkt
    exact h.called (h.sound.setValue value)
      (h.registered.of_observers (Int.le_of_lt (Int.lt_succ _)) fun _ => setValue_observers)
  | stateChanged owner state =>
    obtain ⟨halive, heq⟩ := Option.ite_none_left_eq_some.mp hplain
    rw [Scene.step, h.liveData, h.lifecycle, if_neg halive] at hkt
    dsimp only at hkt
    rw [onStateChanged_raised h.registered] at hkt
    obtain rfl := Option.some.inj heq
    obtain rfl := Option.some.inj hkt
    exact h.called (h.sound.onStateChanged fun o ho => Function.update_of_ne ho _ _)
      (h.registered.of_observers (Int.le_of_eq (onStateChanged_version _ _ _).symm) fun _ => onStateChanged_observers)
  | observe owner observer =>
    obtain ⟨⟨d, calls⟩, hobserve, rfl⟩ := Option.map_eq_some_iff.mp hplain
    obtain ⟨⟨d', calls'⟩, hobserve', rfl⟩ := Option.map_eq_some_iff.mp hkt
    exact h.observe hexpected hobserve hobserve'

theorem related (h : ((lts T K O).restrict Expected).Reachable s) : Related s := by
  refine Lts.Reachable.restrict_invariant ?_ (fun s use s' _ hexpected h hs => h.step hexpected hs) h
  intro s hs
  subst hs
  exact ⟨⟨List.nodup_nil, fun w hw => absurd hw List.not_mem_nil, Int.le_refl _, by simp [start, Scene.start, LiveData.empty]⟩,
    fun w hw => absurd hw List.not_mem_nil, rfl, rfl, rfl⟩

/-- Where every step is as expected, no observer gets an old value or misses a new one. -/
theorem not_sticky (h : ((lts T K O).restrict Expected).Reachable s) : NotSticky s := by
  have hlog := (related h).log
  refine ⟨?_, ?_⟩
  · rw [hlog]
    exact freshFrom_idem _ _
  · rw [hlog]

/-- An observer that waits while a value is set, is started and called with the next one too. -/
theorem not_sticky_example : ∃ s : Scenes Nat Nat Nat, NotSticky s ∧
    s.kt.log = [.registered 0 0, .called ⟨0, 1, 8⟩, .called ⟨0, 2, 9⟩] := by
  have hrun : (Lts.replayIf step (fun s use => decide (Expected s use)) start
      [.setValue 7, .observe 0 0, .setValue 8, .stateChanged 0 .STARTED, .setValue (9 : Nat)]).map
        (fun s : Scenes Nat Nat Nat => s.kt.log) = some [.registered 0 0, .called ⟨0, 1, 8⟩, .called ⟨0, 2, 9⟩] := by decide
  obtain ⟨s, hs, hlog⟩ := Option.map_eq_some_iff.mp hrun
  refine ⟨s, not_sticky ?_, hlog⟩
  exact Lts.replayIf_reachable (fun _ _ _ h => h) (fun _ _ h => of_decide_eq_true h) _ (Lts.Reachable.init rfl) hs

/-! ## Where it is not as expected -/

variable {owner : O} {observer : K}

/-- Registered with a started owner when there is a value, an observer gets that. -/
theorem Related.gets_old (h : Related s) (hnone : s.kt.liveData.find observer = none)
    (hstarted : (s.kt.lifecycle owner).isStarted = true) (hset : s.kt.liveData.mVersion ≠ START_VERSION)
    (hstep : s.step (.observe owner observer) = some s') : ¬ NotSticky s' := by
  obtain ⟨plain, -, hmap⟩ := Option.bind_eq_some_iff.mp hstep
  obtain ⟨kt, hkt, rfl⟩ := Option.map_eq_some_iff.mp hmap
  obtain ⟨⟨d, calls⟩, hobserve, heq⟩ := Option.map_eq_some_iff.mp hkt
  obtain ⟨⟨d₁, calls₁⟩, hsuper, hcheck⟩ := Option.bind_eq_some_iff.mp hobserve
  obtain ⟨d₂, hd, heq'⟩ := Option.map_eq_some_iff.mp hcheck
  cases heq
  cases heq'
  have hversion : s.kt.liveData.mVersion = s.plain.liveData.mVersion := by rw [h.liveData, raiseAll]
  have hdata : s.kt.liveData.mData = s.plain.liveData.mData := by rw [h.liveData, raiseAll]
  have hset : START_VERSION < s.kt.liveData.mVersion := by
    have := h.sound.version
    omega
  obtain ⟨value, hvalue⟩ := Option.isSome_iff_exists.mp (h.sound.data.mpr (hversion ▸ hset))
  rw [observe_started hstarted hnone hset, hdata, hvalue] at hsuper
  obtain ⟨-, rfl⟩ := Prod.mk.inj (Option.some.inj hsuper)
  intro hsticky
  have hlater := hsticky.later
  dsimp only at hlater
  rw [noteRegistered_new hnone (check_found hd), fresh, freshFrom_append] at hlater
  have hlength := congrArg List.length hlater
  have hle := length_freshFrom_le (fun _ => START_VERSION) s.kt.log
  simp [freshFrom] at hlength
  omega

/-- An observer of a started owner gets the value that was set before it was registered. -/
theorem sticky : ∃ s : Scenes Nat Nat Nat, (lts Nat Nat Nat).Reachable s ∧
    s.kt.log = [.registered 0 0, .called ⟨0, 0, 7⟩] ∧ ¬ NotSticky s := by
  have hrun : (Lts.replayIf step (fun s use => decide (Expected s use)) start [.setValue 7, .stateChanged 0 .STARTED]).map
      (fun s : Scenes Nat Nat Nat => (s.kt.liveData.mVersion == 0 && (s.kt.lifecycle 0).isStarted &&
        (s.kt.liveData.find 0).isNone, (s.step (.observe 0 0)).map (·.kt.log))) =
      some (true, some [.registered 0 0, .called ⟨0, 0, 7⟩]) := by decide
  obtain ⟨s, hs, hstate⟩ := Option.map_eq_some_iff.mp hrun
  simp only [Prod.mk.injEq, Bool.and_eq_true, beq_iff_eq, Option.isNone_iff_eq_none] at hstate
  obtain ⟨⟨⟨hversion, hstarted⟩, hnone⟩, hobserve⟩ := hstate
  obtain ⟨s', hstep, hlog⟩ := Option.map_eq_some_iff.mp hobserve
  have hr : ((lts Nat Nat Nat).restrict Expected).Reachable s :=
    Lts.replayIf_reachable (fun _ _ _ h => h) (fun _ _ h => of_decide_eq_true h) _ (Lts.Reachable.init rfl) hs
  refine ⟨s', hr.of_restrict.step hstep, hlog, (related hr).gets_old hnone hstarted ?_ hstep⟩
  rw [hversion]
  decide

theorem step_stateChanged {observe : LiveData T K O → (O → State) → O → K → Option (LiveData T K O × List (Notification T K))}
    {s : Scene T K O} {state : State} (halive : s.lifecycle owner ≠ .DESTROYED) :
    s.step observe (.stateChanged owner state) = some
      { lifecycle := Function.update s.lifecycle owner state
        liveData := (s.liveData.onStateChanged (Function.update s.lifecycle owner state) owner).1
        log := s.log ++ (s.liveData.onStateChanged (Function.update s.lifecycle owner state) owner).2.map .called } :=
  if_neg halive

theorem step_of {plain kt : Scene T K O} (hplain : s.plain.step LiveData.observe use = some plain)
    (hkt : s.kt.step (BaseLiveDataKT.observe true) use = some kt) : s.step use = some ⟨plain, kt⟩ := by
  rw [step, hplain, Option.bind_some, hkt, Option.map_some]

omit [DecidableEq O] in
/-- An observer that was registered later gets fewer calls. -/
theorem length_filter_isNew_lt {registered : K → Int} {version : Int} {call : Notification T K} (hcall : call ∈ calls)
    (hregistered : registered call.observer < call.version) (hversion : call.version ≤ version) :
    (calls.filter (isNew (Function.update registered call.observer version))).length <
      (calls.filter (isNew registered)).length := by
  have himp : ∀ c : Notification T K,
      isNew (Function.update registered call.observer version) c = true → isNew registered c = true := by
    intro c hc
    have hc := of_decide_eq_true hc
    refine decide_eq_true ?_
    by_cases heq : c.observer = call.observer
    · rw [heq, Function.update_self] at hc
      rw [heq]
      omega
    · rwa [Function.update_of_ne heq] at hc
  have htwice : calls.filter (isNew (Function.update registered call.observer version)) =
      (calls.filter (isNew registered)).filter (isNew (Function.update registered call.observer version)) := by
    rw [List.filter_filter]
    refine List.filter_congr fun c _ => ?_
    cases hc : isNew (Function.update registered call.observer version) c with
    | false => rfl
    | true => rw [himp c hc, Bool.and_true]
  rw [htwice, List.length_filter_lt_length_iff_exists]
  refine ⟨call, List.mem_filter.mpr ⟨hcall, decide_eq_true hregistered⟩, fun hnew => ?_⟩
  have hnew := of_decide_eq_true hnew
  rw [Function.update_self] at hnew
  omega

/-- Registered once more before it has seen the value, an observer misses that if its owner is started next. -/
theorem Related.misses {w : ObserverWrapper K O} (h : Related s) (hw : w ∈ s.kt.liveData.mObservers)
    (hunseen : w.mLastVersion < s.kt.liveData.mVersion) (hstep : s.step (.observe owner w.mObserver) = some s') :
    ∃ s'', s'.step (.stateChanged w.mOwner .STARTED) = some s'' ∧ ¬ NotSticky s'' := by
  obtain ⟨plain, hplain, hmap⟩ := Option.bind_eq_some_iff.mp hstep
  obtain ⟨kt, hkt, rfl⟩ := Option.map_eq_some_iff.mp hmap
  obtain ⟨⟨d, calls⟩, hobserve, rfl⟩ := Option.map_eq_some_iff.mp hplain
  obtain ⟨⟨d', calls'⟩, hobserve', rfl⟩ := Option.map_eq_some_iff.mp hkt
  rw [h.liveData] at hw hunseen hobserve'
  obtain ⟨v, hv, rfl⟩ := List.mem_map.mp hw
  have hkept := h.sound.kept v hv
  have hfound : (s.plain.liveData.find v.mObserver).isSome = true := by
    rw [Option.isSome_iff_ne_none, Ne, find_eq_none, not_not]
    exact List.mem_map_of_mem hv
  obtain ⟨rfl, rfl⟩ := observe_known (Or.inr hfound) hobserve
  obtain ⟨rfl, rfl⟩ := observe_raises (fun w hw => (h.sound.kept w hw).last) hfound hobserve'
  have hbefore : (s.kt.liveData.find v.mObserver).isSome = true := (h.isSome_find _).trans hfound
  have halive' : s.kt.lifecycle v.mOwner ≠ .DESTROYED := h.lifecycle ▸ hkept.alive
  have hunseen : max (s.registered v.mObserver) v.mLastVersion < s.plain.liveData.mVersion := hunseen
  have hlater : s.registered v.mObserver < s.plain.liveData.mVersion := by omega
  have hinactive : v.mActive = false := by
    by_contra hactive
    have := hkept.seen (by simpa using hactive)
    omega
  obtain ⟨value, hvalue⟩ := Option.isSome_iff_exists.mp (h.sound.data.mpr (by
    have := hkept.start
    omega))
  have hstarted : ((Function.update s.plain.lifecycle v.mOwner .STARTED) v.mOwner).isStarted = true := by
    rw [Function.update_self]
    rfl
  have hcall := onStateChanged_started hv hinactive (by omega) hvalue hstarted
  refine ⟨_, step_of (step_stateChanged hkept.alive) (step_stateChanged halive'), fun hsticky => ?_⟩
  have hmisses := hsticky.missesNone
  simp only [raised_observer, raised_owner] at hmisses
  rw [noteRegistered_known fun _ => hbefore, noteRegistered_known id, h.lifecycle,
    onStateChanged_raised (h.registered.update v.mObserver)] at hmisses
  simp only [List.map_nil, List.append_nil] at hmisses
  rw [fresh, freshFrom_append, freshFrom_called, ← fresh, ← h.log] at hmisses
  have hle := hmisses.length_le
  simp only [List.length_append, List.length_map] at hle
  have hlt := length_filter_isNew_lt hcall hlater (Int.le_refl _)
  exact absurd (Nat.le_of_add_le_add_left hle) (Nat.not_le.mpr hlt)

end Scenes

end LibraLive

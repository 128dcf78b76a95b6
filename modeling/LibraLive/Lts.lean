import Mathlib.Order.Basic

/-!
# Labelled transition systems

Systems whose steps carry labels, the states they reach, and the three ways an invariant is obtained: by induction over
the steps, by restricting the steps a run may take, and by looking at one component of a larger system. A run may be
recorded, in a list that grows by something with every step.
-/

/-- A labelled transition system: where a run may start and how a labelled step changes the state. -/
structure Lts (σ : Type*) (α : Type*) where
  init : σ → Prop
  step : σ → α → σ → Prop

namespace Lts

variable {σ τ α β : Type*}

/-- A state at the end of some run. -/
inductive Reachable (L : Lts σ α) : σ → Prop where
  | init {s : σ} : L.init s → Reachable L s
  | step {s s' : σ} {a : α} : Reachable L s → L.step s a s' → Reachable L s'

/-- The system that starts in one state and steps as a partial function says. -/
def ofFun (s₀ : σ) (f : σ → α → Option σ) : Lts σ α where
  init s := s = s₀
  step s a s' := f s a = some s'

/-- The runs of `L` in which every step meets `P`, a condition on the state before it and on its label. -/
def restrict (L : Lts σ α) (P : σ → α → Prop) : Lts σ α where
  init := L.init
  step s a s' := P s a ∧ L.step s a s'

/-- An invariant: it holds where runs start and each step out of a reachable state keeps it. -/
@[elab_as_elim]
theorem Reachable.invariant {L : Lts σ α} {I : σ → Prop} (h0 : ∀ s, L.init s → I s)
    (hstep : ∀ s a s', L.Reachable s → I s → L.step s a s' → I s') {s : σ} (h : L.Reachable s) : I s := by
  induction h with
  | init hi => exact h0 _ hi
  | step hr hs ih => exact hstep _ _ _ hr ih hs

/-- A run of the restricted system is a run of the system. -/
theorem Reachable.of_restrict {L : Lts σ α} {P : σ → α → Prop} {s : σ} (h : (L.restrict P).Reachable s) :
    L.Reachable s := by
  induction h with
  | init hi => exact Reachable.init hi
  | step _ hs ih => exact Reachable.step ih hs.2

/-- A run that meets a condition meets a weaker one. -/
theorem Reachable.restrict_mono {L : Lts σ α} {P Q : σ → α → Prop} {s : σ} (h : (L.restrict P).Reachable s)
    (hPQ : ∀ s a, P s a → Q s a) : (L.restrict Q).Reachable s := by
  induction h with
  | init hi => exact Reachable.init hi
  | step _ hs ih => exact Reachable.step ih ⟨hPQ _ _ hs.1, hs.2⟩

/-- Where nothing is asked of the steps, every run is a restricted run. -/
theorem Reachable.restrict_true {L : Lts σ α} {s : σ} (h : L.Reachable s) :
    (L.restrict fun _ _ => True).Reachable s := by
  induction h with
  | init hi => exact Reachable.init hi
  | step _ hs ih => exact Reachable.step ih ⟨trivial, hs⟩

/-- An invariant of the restricted runs; the steps may use what the whole system keeps. -/
@[elab_as_elim]
theorem Reachable.restrict_invariant {L : Lts σ α} {P : σ → α → Prop} {I : σ → Prop} (h0 : ∀ s, L.init s → I s)
    (hstep : ∀ s a s', L.Reachable s → P s a → I s → L.step s a s' → I s') {s : σ}
    (h : (L.restrict P).Reachable s) : I s := by
  induction h with
  | init hi => exact h0 _ hi
  | step hr hs ih => exact hstep _ _ _ hr.of_restrict hs.1 ih hs.2

/-! ## Components -/

/-- A component of a system: `view` shows its state, when it exists. Whenever it is shown after a step, the step left it
alone, created it, or was a step of it. -/
structure Component (L : Lts σ α) (M : Lts τ β) (view : σ → Option τ) : Prop where
  init : ∀ s, L.init s → ∀ t, view s = some t → M.init t
  step : ∀ s a s', L.Reachable s → L.step s a s' → ∀ t', view s' = some t' →
    view s = some t' ∨ M.init t' ∨ ∃ t b, view s = some t ∧ M.step t b t'

/-- What a component shows along a run of the system is reached by a run of the component. -/
theorem Component.reachable {L : Lts σ α} {M : Lts τ β} {view : σ → Option τ} (hc : Component L M view) {s : σ}
    (h : L.Reachable s) : ∀ t, view s = some t → M.Reachable t := by
  induction h with
  | init hi => exact fun t ht => Reachable.init (hc.init _ hi t ht)
  | step hr hs ih =>
    intro t' ht'
    rcases hc.step _ _ _ hr hs t' ht' with h | h | ⟨t, b, ht, hb⟩
    · exact ih t' h
    · exact Reachable.init h
    · exact Reachable.step (ih t ht) hb

/-! ## Simulation -/

/-- If every state a run of `L` starts in is represented by a reachable state of `M`, and every step keeps it so, with any
number of steps of `M` in answer to one, then every reachable state of `L` is represented. -/
theorem Reachable.simulated {L : Lts σ α} {M : Lts τ β} {R : σ → τ → Prop}
    (h0 : ∀ s, L.init s → ∃ t, M.Reachable t ∧ R s t)
    (hstep : ∀ s a s' t, L.Reachable s → L.step s a s' → M.Reachable t → R s t → ∃ t', M.Reachable t' ∧ R s' t')
    {s : σ} (h : L.Reachable s) : ∃ t, M.Reachable t ∧ R s t := by
  induction h with
  | init hi => exact h0 _ hi
  | step hr hs ih =>
    obtain ⟨t, ht, hR⟩ := ih
    exact hstep _ _ _ _ hr hs ht hR

/-! ## Records -/

/-- The system with a record of its run: every step adds what `f` says of it and of the states before and after it. -/
def observe (L : Lts σ α) (f : σ → α → σ → List β) : Lts (σ × List β) α where
  init t := L.init t.1 ∧ t.2 = []
  step t a t' := L.step t.1 a t'.1 ∧ t'.2 = t.2 ++ f t.1 a t'.1

/-- The system with a record of what its steps are about to do: every step adds what `f` says of it and of the state before. -/
def record (L : Lts σ α) (f : σ → α → List β) : Lts (σ × List β) α := L.observe fun s a _ => f s a

/-- A run with a record is a run. -/
theorem Reachable.of_observe {L : Lts σ α} {f : σ → α → σ → List β} {t : σ × List β} (h : (L.observe f).Reachable t) :
    L.Reachable t.1 := by
  induction h with
  | init hi => exact Reachable.init hi.1
  | step _ hs ih => exact Reachable.step ih hs.1

/-- So is a run with a record of what it was about to do. -/
theorem Reachable.of_record {L : Lts σ α} {f : σ → α → List β} {t : σ × List β} (h : (L.record f).Reachable t) :
    L.Reachable t.1 := of_observe h

/-- Every run has a record. -/
theorem Reachable.observed {L : Lts σ α} (f : σ → α → σ → List β) {s : σ} (h : L.Reachable s) :
    ∃ log, (L.observe f).Reachable (s, log) := by
  induction h with
  | init hi => exact ⟨[], Reachable.init ⟨hi, rfl⟩⟩
  | @step s s' a _ hs ih =>
    obtain ⟨log, hr⟩ := ih
    exact ⟨log ++ f s a s', Reachable.step hr ⟨hs, rfl⟩⟩

/-- And one of what it was about to do. -/
theorem Reachable.recorded {L : Lts σ α} (f : σ → α → List β) {s : σ} (h : L.Reachable s) :
    ∃ log, (L.record f).Reachable (s, log) := h.observed _

/-- An entry of a record that has grown by one is the new one, or it was there before. -/
theorem snoc_cases {log before after : List β} {b c : β} (h : log ++ [b] = before ++ c :: after) :
    (before = log ∧ c = b ∧ after = []) ∨ ∃ rest, after = rest ++ [b] ∧ log = before ++ c :: rest := by
  rcases List.eq_nil_or_concat after with rfl | ⟨rest, last, rfl⟩
  · obtain ⟨hlog, hlast⟩ := List.append_inj' h rfl
    exact Or.inl ⟨hlog.symm, (List.singleton_inj.mp hlast).symm, rfl⟩
  · rw [List.concat_eq_append, ← List.cons_append, ← List.append_assoc] at h
    obtain ⟨hlog, hlast⟩ := List.append_inj' h rfl
    obtain rfl := List.singleton_inj.mp hlast
    exact Or.inr ⟨rest, List.concat_eq_append, hlog⟩

/-- A step function that records. -/
def observeStep (f : σ → α → Option σ) (g : σ → α → σ → List β) (t : σ × List β) (a : α) : Option (σ × List β) :=
  (f t.1 a).map fun s => (s, t.2 ++ g t.1 a s)

/-- A step function that records what it is about to do. -/
def recordStep (f : σ → α → Option σ) (g : σ → α → List β) : σ × List β → α → Option (σ × List β) :=
  observeStep f fun s a _ => g s a

/-- A function that records takes the steps of the system with a record. -/
theorem observeStep_step {L : Lts σ α} {f : σ → α → Option σ} {g : σ → α → σ → List β}
    (hf : ∀ s a s', f s a = some s' → L.step s a s') (t : σ × List β) (a : α) (t' : σ × List β)
    (h : observeStep f g t a = some t') : (L.observe g).step t a t' := by
  obtain ⟨s, hs, rfl⟩ := Option.map_eq_some_iff.mp h
  exact ⟨hf _ _ _ hs, rfl⟩

/-- So does one that records what it is about to do. -/
theorem recordStep_step {L : Lts σ α} {f : σ → α → Option σ} {g : σ → α → List β}
    (hf : ∀ s a s', f s a = some s' → L.step s a s') (t : σ × List β) (a : α) (t' : σ × List β)
    (h : recordStep f g t a = some t') : (L.record g).step t a t' := observeStep_step hf t a t' h

/-! ## Progress -/

/-- Some sequence of steps leads from the state to one where `Q` holds. -/
inductive Can (L : Lts σ α) (Q : σ → Prop) : σ → Prop where
  | now {s : σ} : Q s → Can L Q s
  | next {s s' : σ} {a : α} : L.step s a s' → Can L Q s' → Can L Q s

/-- If wherever `Q` does not hold yet some step makes a measure smaller, then a state where it holds can be reached. -/
theorem can_of_measure {L : Lts σ α} {Q : σ → Prop} {I : σ → Nat → Prop}
    (hprogress : ∀ s n, I s n → Q s ∨ ∃ a s' n', L.step s a s' ∧ I s' n' ∧ n' < n) {s : σ} {n : Nat} (h : I s n) :
    L.Can Q s := by
  induction n using Nat.strongRecOn generalizing s with
  | ind n ih =>
    rcases hprogress s n h with hQ | ⟨a, s', n', hstep, h', hlt⟩
    · exact Can.now hQ
    · exact Can.next hstep (ih n' hlt h')

/-! ## Termination -/

/-- No run from the state goes on forever. -/
def Halts (L : Lts σ α) (s : σ) : Prop := Acc (fun s' s => ∃ a, L.step s a s') s

/-- If every step makes a measure smaller, no run goes on forever. -/
theorem halts_of_measure {L : Lts σ α} {I : σ → Prop} (m : σ → Nat)
    (hstep : ∀ s a s', I s → L.step s a s' → I s' ∧ m s' < m s) {s : σ} (h : I s) : L.Halts s := by
  induction hm : m s using Nat.strongRecOn generalizing s with
  | ind n ih =>
    refine Acc.intro s fun s' ⟨a, hs⟩ => ?_
    obtain ⟨h', hlt⟩ := hstep s a s' h hs
    exact ih (m s') (hm ▸ hlt) h' rfl

/-- If some step leads from every state of a set back into the set, a run from there can go on forever. -/
theorem not_halts_of_closed {L : Lts σ α} {I : σ → Prop} (hnext : ∀ s, I s → ∃ a s', L.step s a s' ∧ I s') {s : σ} (h : I s) :
    ¬ L.Halts s := by
  intro hacc
  induction hacc with
  | intro s _ ih =>
    obtain ⟨a, s', hs, h'⟩ := hnext s h
    exact ih s' ⟨a, hs⟩ h'

/-- A run that stops where it has come to stops where it goes on to. -/
theorem Halts.step {L : Lts σ α} {s s' : σ} {a : α} (h : L.Halts s) (hs : L.step s a s') : L.Halts s' := Acc.inv h ⟨a, hs⟩

/-! ## Replaying a list of labels -/

/-- The state after a list of labels, if every one of them is enabled in turn. -/
def replay (f : σ → α → Option σ) : σ → List α → Option σ
  | s, [] => some s
  | s, a :: as => (f s a).bind (replay f · as)

/-- A replay from a reachable state ends in a reachable state, if the function takes steps of the system only. -/
theorem replay_reachable {L : Lts σ α} {f : σ → α → Option σ} (hf : ∀ s a s', f s a = some s' → L.step s a s') :
    ∀ (as : List α) {s s' : σ}, L.Reachable s → replay f s as = some s' → L.Reachable s'
  | [], s, s', hs, h => by
    simp only [replay, Option.some.injEq] at h
    exact h ▸ hs
  | a :: as, s, s', hs, h => by
    simp only [replay, Option.bind_eq_some_iff] at h
    obtain ⟨s₁, h₁, h₂⟩ := h
    exact replay_reachable hf as (Reachable.step hs (hf s a s₁ h₁)) h₂

/-- The state after a list of labels, if every one of them is enabled and meets the condition in turn. -/
def replayIf (f : σ → α → Option σ) (p : σ → α → Bool) : σ → List α → Option σ :=
  replay fun s a => if p s a then f s a else none

/-- The replay of a list whose labels all meet the condition is a restricted run. -/
theorem replayIf_reachable {L : Lts σ α} {f : σ → α → Option σ} {p : σ → α → Bool} {P : σ → α → Prop}
    (hf : ∀ s a s', f s a = some s' → L.step s a s') (hp : ∀ s a, p s a = true → P s a) (as : List α) {s s' : σ}
    (hs : (L.restrict P).Reachable s) (h : replayIf f p s as = some s') : (L.restrict P).Reachable s' := by
  refine replay_reachable ?_ as hs h
  intro s a s' hstep
  by_cases hc : p s a = true
  · rw [if_pos hc] at hstep
    exact ⟨hp s a hc, hf s a s' hstep⟩
  · rw [if_neg hc] at hstep
    cases hstep

end Lts

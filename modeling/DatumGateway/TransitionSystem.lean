import Mathlib.Logic.Relation
import Mathlib.Order.Basic
import Mathlib.Tactic.Common

/-!
Runs of a system given by a partial step function, and runs all of whose steps
meet a guard.
-/

namespace DatumGateway.TransitionSystem

variable {State Action : Type*} (step : State → Action → Option State)
variable (guard : State → Action → Prop)

def GuardedStep (s t : State) : Prop :=
  ∃ a, guard s a ∧ step s a = some t

/-- `t` ends a run from `s` all of whose steps meet the guard. -/
def Reaches : State → State → Prop :=
  Relation.ReflTransGen (GuardedStep step guard)

/-- `t` ends a run from `s`. -/
def Reachable : State → State → Prop :=
  Reaches step fun _ _ => True

def runActions (s : State) (actions : List Action) : Option State :=
  actions.foldlM step s

variable {step guard}

theorem Reaches.invariant {inv : State → Prop} {s t : State} (hreaches : Reaches step guard s t)
    (hstart : inv s) (hstep : ∀ s a t, inv s → guard s a → step s a = some t → inv t) :
    inv t := by
  induction hreaches with
  | refl => exact hstart
  | tail _ hlast ih =>
      obtain ⟨a, hguard, ha⟩ := hlast
      exact hstep _ a _ ih hguard ha

theorem Reachable.invariant {inv : State → Prop} {s t : State} (hreachable : Reachable step s t)
    (hstart : inv s) (hstep : ∀ s a t, inv s → step s a = some t → inv t) : inv t :=
  Reaches.invariant hreachable hstart fun s a t hinv _ ha => hstep s a t hinv ha

/-- A system whose steps are steps of another one, seen through `f`, or change nothing there. -/
theorem Reachable.simulates {State' Action' : Type*} {step' : State' → Action' → Option State'}
    (f : State → State') {s t : State} (hreachable : Reachable step s t)
    (hstep : ∀ s a t, step s a = some t → f t = f s ∨ ∃ b, step' (f s) b = some (f t)) :
    Reachable step' (f s) (f t) := by
  induction hreachable with
  | refl => exact Relation.ReflTransGen.refl
  | tail _ hlast ih =>
      obtain ⟨a, -, ha⟩ := hlast
      rcases hstep _ a _ ha with hsame | ⟨b, hb⟩
      · rw [hsame]
        exact ih
      · exact ih.tail ⟨b, trivial, hb⟩

theorem Reaches.mono {guard' : State → Action → Prop} {s t : State}
    (hreaches : Reaches step guard s t) (hguard : ∀ s a, guard s a → guard' s a) :
    Reaches step guard' s t := by
  induction hreaches with
  | refl => exact Relation.ReflTransGen.refl
  | tail _ hlast ih =>
      obtain ⟨a, ha, hstep⟩ := hlast
      exact ih.tail ⟨a, hguard _ a ha, hstep⟩

def runGuarded (step : State → Action → Option State) (guard : State → Action → Bool) (s : State)
    (actions : List Action) : Option State :=
  runActions (fun s a => if guard s a then step s a else none) s actions

theorem reaches_of_runGuarded {guard : State → Action → Bool} {s t : State}
    {actions : List Action} (hrun : runGuarded step guard s actions = some t) :
    Reaches step (fun s a => guard s a) s t := by
  induction actions generalizing s with
  | nil =>
      obtain rfl := Option.some.inj hrun
      exact Relation.ReflTransGen.refl
  | cons a actions ih =>
      simp only [runGuarded, runActions, List.foldlM_cons, Option.bind_eq_bind,
        Option.bind_eq_some_iff] at hrun
      obtain ⟨u, hu, hrest⟩ := hrun
      obtain ⟨hguard, hstep⟩ := Option.ite_none_right_eq_some.mp hu
      exact Relation.ReflTransGen.head ⟨a, hguard, hstep⟩ (ih hrest)

theorem reachable_of_runActions {s t : State} (actions : List Action)
    (hrun : runActions step s actions = some t) : Reachable step s t := by
  have hguarded : runGuarded step (fun _ _ => true) s actions = some t := hrun
  exact (reaches_of_runGuarded hguarded).mono fun _ _ _ => trivial

theorem exists_reaches_of_runGuarded (step : State → Action → Option State)
    (guard : State → Action → Bool) (s : State) (actions : List Action) (p : State → Bool)
    (hrun : (runGuarded step guard s actions).any p = true) :
    ∃ t, Reaches step (fun s a => guard s a) s t ∧ p t = true := by
  cases ht : runGuarded step guard s actions with
  | none => simp [ht] at hrun
  | some t =>
      rw [ht, Option.any_some] at hrun
      exact ⟨t, reaches_of_runGuarded ht, hrun⟩

theorem exists_reachable_of_runActions (step : State → Action → Option State) (s : State)
    (actions : List Action) (p : State → Bool)
    (hrun : (runActions step s actions).any p = true) :
    ∃ t, Reachable step s t ∧ p t = true := by
  obtain ⟨t, hreaches, hp⟩ := exists_reaches_of_runGuarded step (fun _ _ => true) s actions p hrun
  exact ⟨t, hreaches.mono fun _ _ _ => trivial, hp⟩

theorem exists_reaches_of_runActions {guard : State → Action → Prop} {s : State}
    {actions : List Action} (hguard : ∀ a ∈ actions, ∀ u, guard u a) (p : State → Bool)
    (hrun : (runActions step s actions).any p = true) :
    ∃ t, Reaches step guard s t ∧ p t = true := by
  induction actions generalizing s with
  | nil => exact ⟨s, Relation.ReflTransGen.refl, hrun⟩
  | cons a actions ih =>
      cases hu : step s a with
      | none => simp [runActions, hu] at hrun
      | some u =>
          have hrest : (runActions step u actions).any p = true := by
            simpa [runActions, hu] using hrun
          obtain ⟨t, hreaches, hp⟩ := ih (fun b hb => hguard b (List.mem_cons_of_mem _ hb)) hrest
          exact ⟨t, hreaches.head ⟨a, hguard a List.mem_cons_self s, hu⟩, hp⟩

section Total

/-! Systems whose steps always succeed, and a property of their states that no step restores. -/

variable (step : State → Action → State) (guard : State → Action → Prop)

def MeetsGuard : State → List Action → Prop
  | _, [] => True
  | s, a :: actions => guard s a ∧ MeetsGuard (step s a) actions

variable {step guard}

theorem of_foldl_step {p inv : State → Prop} (hkeep : ∀ s a, inv s → inv (step s a))
    (hback : ∀ s a, inv s → p (step s a) → p s) {actions : List Action} {s : State}
    (hinv : inv s) (hend : p (actions.foldl step s)) : p s := by
  induction actions generalizing s with
  | nil => exact hend
  | cons a actions ih => exact hback s a hinv (ih (hkeep s a hinv) hend)

/-- If the guard says of each step that it keeps the property, a run that starts with the
property ends with it exactly if all its steps meet the guard.  `inv` holds along every run. -/
theorem foldl_step_iff_meetsGuard {p : State → Prop} (inv : State → Prop)
    (hkeep : ∀ s a, inv s → inv (step s a))
    (hback : ∀ s a, inv s → p (step s a) → p s)
    (hguard : ∀ s a, inv s → p s → (p (step s a) ↔ guard s a)) {s : State} (hinv : inv s)
    (hstart : p s) (actions : List Action) :
    p (actions.foldl step s) ↔ MeetsGuard step guard s actions := by
  induction actions generalizing s with
  | nil => exact ⟨fun _ => trivial, fun _ => hstart⟩
  | cons a actions ih =>
      have hinv' := hkeep s a hinv
      constructor
      · intro hend
        have hnext : p (step s a) := of_foldl_step hkeep hback hinv' hend
        exact ⟨(hguard s a hinv hstart).mp hnext, (ih hinv' hnext).mp hend⟩
      · rintro ⟨ha, hrest⟩
        exact (ih hinv' ((hguard s a hinv hstart).mpr ha)).mpr hrest

end Total

section Throughout

/-! Properties of all states that a run goes through; a run ends before an action that is not
possible. -/

variable (step : State → Action → Option State) (guard : State → Action → Prop)

def Throughout (p : State → Prop) : State → List Action → Prop
  | s, [] => p s
  | s, a :: actions => p s ∧ ∀ t ∈ step s a, Throughout p t actions

/-- All steps of the run meet the guard. -/
def Guarded : State → List Action → Prop
  | _, [] => True
  | s, a :: actions => ∀ t ∈ step s a, guard s a ∧ Guarded t actions

instance Guarded.instDecidable [∀ s a, Decidable (guard s a)] :
    ∀ s actions, Decidable (Guarded step guard s actions)
  | _, [] => inferInstanceAs (Decidable True)
  | s, a :: actions =>
      have : ∀ t, Decidable (Guarded step guard t actions) := fun t => instDecidable t actions
      inferInstanceAs (Decidable (∀ t ∈ step s a, guard s a ∧ Guarded step guard t actions))

variable {step guard} {p : State → Prop}

theorem Throughout.start {s : State} {actions : List Action}
    (hthroughout : Throughout step p s actions) : p s := by
  cases actions with
  | nil => exact hthroughout
  | cons a actions => exact hthroughout.1

/-- If the guard says of each step whether it keeps the property, all states of a run have it
exactly if all steps meet the guard. -/
theorem throughout_iff_guarded (inv : State → Prop)
    (hkeep : ∀ s a t, inv s → step s a = some t → inv t)
    (hguard : ∀ s a t, inv s → p s → step s a = some t → (p t ↔ guard s a)) {s : State}
    (hinv : inv s) (hstart : p s) (actions : List Action) :
    Throughout step p s actions ↔ Guarded step guard s actions := by
  induction actions generalizing s with
  | nil => exact iff_of_true hstart trivial
  | cons a actions ih =>
      constructor
      · rintro ⟨-, hrest⟩ t ht
        have hnext := hrest t ht
        refine ⟨(hguard s a t hinv hstart ht).mp hnext.start, ?_⟩
        exact (ih (hkeep s a t hinv ht) hnext.start).mp hnext
      · intro hguarded
        refine ⟨hstart, fun t ht => ?_⟩
        obtain ⟨ha, hrest⟩ := hguarded t ht
        exact (ih (hkeep s a t hinv ht) ((hguard s a t hinv hstart ht).mpr ha)).mpr hrest

theorem Throughout.of_runActions {s t : State} {actions : List Action}
    (hthroughout : Throughout step p s actions) (hrun : runActions step s actions = some t) :
    p t := by
  induction actions generalizing s with
  | nil =>
      obtain rfl := Option.some.inj hrun
      exact hthroughout
  | cons a actions ih =>
      rw [runActions, List.foldlM_cons, Option.bind_eq_bind, Option.bind_eq_some_iff] at hrun
      obtain ⟨u, hu, hrest⟩ := hrun
      exact ih (hthroughout.2 u hu) hrest

theorem not_throughout_of_runActions {s : State} {actions : List Action} (q : State → Bool)
    (hrun : (runActions step s actions).any q = true) (hq : ∀ t, q t = true → ¬ p t) :
    ¬ Throughout step p s actions := by
  intro hthroughout
  obtain ⟨t, ht, hqt⟩ := (Option.any_eq_true _ _).mp hrun
  exact hq t hqt (hthroughout.of_runActions ht)

end Throughout

section Steps

/-! Relations that hold between the two ends of all steps of a run. -/

variable (step : State → Action → Option State) (rel : State → Action → State → Prop)

def EveryStep : State → List Action → Prop
  | _, [] => True
  | s, a :: actions => ∀ t ∈ step s a, rel s a t ∧ EveryStep t actions

variable {step rel} {guard : State → Action → Prop}

theorem everyStep_iff_guarded_of_invariant (inv : State → Prop)
    (hkeep : ∀ s a t, inv s → step s a = some t → inv t)
    (hguard : ∀ s a t, inv s → step s a = some t → (rel s a t ↔ guard s a)) {s : State}
    (hinv : inv s) (actions : List Action) :
    EveryStep step rel s actions ↔ Guarded step guard s actions := by
  induction actions generalizing s with
  | nil => exact Iff.rfl
  | cons a actions ih =>
      constructor
      · intro hevery t ht
        obtain ⟨hrel, hrest⟩ := hevery t ht
        exact ⟨(hguard s a t hinv ht).mp hrel, (ih (hkeep s a t hinv ht)).mp hrest⟩
      · intro hguarded t ht
        obtain ⟨ha, hrest⟩ := hguarded t ht
        exact ⟨(hguard s a t hinv ht).mpr ha, (ih (hkeep s a t hinv ht)).mpr hrest⟩

theorem everyStep_iff_guarded (hguard : ∀ s a t, step s a = some t → (rel s a t ↔ guard s a))
    (s : State) (actions : List Action) :
    EveryStep step rel s actions ↔ Guarded step guard s actions :=
  everyStep_iff_guarded_of_invariant (fun _ => True) (fun _ _ _ _ _ => trivial)
    (fun s a t _ => hguard s a t) trivial actions

end Steps

section Measures

/-! Systems in which every step lowers a measure: their runs are short, and a run that can go on
until it meets its goal gets there. -/

variable {step : State → Action → Option State} {inv : State → Prop} {measure : State → ℕ}

theorem length_add_measure_le (hkeep : ∀ s a t, inv s → step s a = some t → inv t)
    (hlower : ∀ s a t, inv s → step s a = some t → measure t < measure s) {s t : State}
    {actions : List Action} (hinv : inv s) (hrun : runActions step s actions = some t) :
    actions.length + measure t ≤ measure s := by
  induction actions generalizing s with
  | nil =>
      obtain rfl := Option.some.inj hrun
      simp
  | cons a actions ih =>
      simp only [runActions, List.foldlM_cons, Option.bind_eq_bind,
        Option.bind_eq_some_iff] at hrun
      obtain ⟨u, hstep, hrest⟩ := hrun
      have hu := ih (hkeep s a u hinv hstep) hrest
      have hlt := hlower s a u hinv hstep
      rw [List.length_cons]
      omega

/-- If a step can be taken wherever the goal is not met, the goal is met from everywhere. -/
theorem exists_reachable_goal {goal : State → Prop}
    (hkeep : ∀ s a t, inv s → step s a = some t → inv t)
    (hlower : ∀ s a t, inv s → step s a = some t → measure t < measure s)
    (hprogress : ∀ s, inv s → goal s ∨ ∃ a t, step s a = some t) {s : State} (hinv : inv s) :
    ∃ t, Reachable step s t ∧ goal t := by
  rcases hprogress s hinv with hgoal | ⟨a, u, hstep⟩
  · exact ⟨s, Relation.ReflTransGen.refl, hgoal⟩
  · have hlt := hlower s a u hinv hstep
    obtain ⟨t, hrest, hgoal⟩ :=
      exists_reachable_goal hkeep hlower hprogress (hkeep s a u hinv hstep)
    exact ⟨t, hrest.head ⟨a, trivial, hstep⟩, hgoal⟩
termination_by measure s

end Measures

end DatumGateway.TransitionSystem

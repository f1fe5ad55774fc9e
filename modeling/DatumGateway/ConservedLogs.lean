import DatumGateway.TransitionSystem

/-!
Systems that take items in, and carry them on in this order.  A step may lose some
of them, and what has been lost is never carried again.
-/

namespace DatumGateway.ConservedLogs

open DatumGateway.TransitionSystem

variable {State Action Item : Type*} (step : State → Action → Option State)
variable (taken carried : State → List Item) (guard : State → Action → Bool)

/-- What the step carries on is what was carried, and what it takes in, less what it loses.  It
loses nothing exactly if it meets the guard. -/
def ConservesStep (s : State) (a : Action) (t : State) : Prop :=
  ∃ new, taken t = taken s ++ new ∧ (carried t).Sublist (carried s ++ new) ∧
    (carried t = carried s ++ new ↔ guard s a = true)

def Conserves : Prop :=
  ∀ s a t, step s a = some t → ConservesStep taken carried guard s a t

theorem sublist_and_eq_iff_of_cut {all rest front lost back : List Item}
    (hall : all = front ++ lost ++ back) (hrest : rest = front ++ back) :
    rest.Sublist all ∧ (rest = all ↔ lost = []) := by
  subst hall hrest
  constructor
  · exact (List.sublist_append_left front lost).append (List.Sublist.refl back)
  · rw [List.append_left_inj, List.self_eq_append_right]

variable {step taken carried guard}

theorem Conserves.sublist_of_step (hconserves : Conserves step taken carried guard) {s t : State}
    {a : Action} (hsub : (carried s).Sublist (taken s)) (hstep : step s a = some t) :
    (carried t).Sublist (taken t) := by
  obtain ⟨new, htaken, hcarried, -⟩ := hconserves s a t hstep
  rw [htaken]
  exact hcarried.trans (hsub.append (List.Sublist.refl new))

theorem Conserves.sublist (hconserves : Conserves step taken carried guard) {s t : State}
    (hsub : (carried s).Sublist (taken s)) (hreachable : Reachable step s t) :
    (carried t).Sublist (taken t) :=
  hreachable.invariant hsub fun _ _ _ => hconserves.sublist_of_step

theorem Conserves.eq_of_step (hconserves : Conserves step taken carried guard) {s t : State}
    {a : Action} (hsub : (carried s).Sublist (taken s)) (hstep : step s a = some t)
    (hend : carried t = taken t) : carried s = taken s := by
  obtain ⟨new, htaken, hcarried, -⟩ := hconserves s a t hstep
  apply hsub.eq_of_length_le
  have hlength := hcarried.length_le
  rw [hend, htaken, List.length_append, List.length_append] at hlength
  omega

theorem Conserves.eq_of_runActions (hconserves : Conserves step taken carried guard) {s t : State}
    {actions : List Action} (hsub : (carried s).Sublist (taken s))
    (hrun : runActions step s actions = some t) (hend : carried t = taken t) :
    carried s = taken s := by
  induction actions generalizing s with
  | nil =>
      obtain rfl := Option.some.inj hrun
      exact hend
  | cons a actions ih =>
      simp only [runActions, List.foldlM_cons, Option.bind_eq_bind,
        Option.bind_eq_some_iff] at hrun
      obtain ⟨u, hstep, hrest⟩ := hrun
      exact hconserves.eq_of_step hsub hstep (ih (hconserves.sublist_of_step hsub hstep) hrest)

theorem Conserves.step_eq_iff (hconserves : Conserves step taken carried guard) {s t : State}
    {a : Action} (hstart : carried s = taken s) (hstep : step s a = some t) :
    carried t = taken t ↔ guard s a = true := by
  obtain ⟨new, htaken, -, hguard⟩ := hconserves s a t hstep
  rw [htaken, ← hstart, hguard]

theorem Conserves.runActions_eq_iff (hconserves : Conserves step taken carried guard)
    {s t : State} {actions : List Action} (hstart : carried s = taken s)
    (hrun : runActions step s actions = some t) :
    carried t = taken t ↔ runGuarded step guard s actions = some t := by
  induction actions generalizing s with
  | nil =>
      obtain rfl := Option.some.inj hrun
      exact ⟨fun _ => rfl, fun _ => hstart⟩
  | cons a actions ih =>
      simp only [runActions, List.foldlM_cons, Option.bind_eq_bind,
        Option.bind_eq_some_iff] at hrun
      obtain ⟨u, hstep, hrest⟩ := hrun
      have hguarded : runGuarded step guard s (a :: actions) =
          (if guard s a then step s a else none).bind fun u => runGuarded step guard u actions :=
        rfl
      rw [hguarded]
      cases hguard : guard s a with
      | true =>
          rw [if_pos rfl, hstep, Option.bind_some]
          exact ih ((hconserves.step_eq_iff hstart hstep).mpr hguard) hrest
      | false =>
          rw [if_neg Bool.false_ne_true, Option.bind_none]
          constructor
          · intro hend
            have hsub : (carried u).Sublist (taken u) :=
              hconserves.sublist_of_step (hstart ▸ List.Sublist.refl _) hstep
            have hnext := hconserves.eq_of_runActions hsub hrest hend
            rw [hconserves.step_eq_iff hstart hstep, hguard] at hnext
            cases hnext
          · intro hnone
            cases hnone

end DatumGateway.ConservedLogs

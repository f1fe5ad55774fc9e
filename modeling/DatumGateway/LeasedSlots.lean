import Mathlib.Data.Set.Function
import Mathlib.Logic.Function.Basic
import Mathlib.Order.Interval.Set.Defs

/-!
Slots that are numbered one after the other, each with a resource that is leased to
it until it is given up.
-/

namespace DatumGateway.LeasedSlots

variable {κ ρ : Type*} {number : ℕ → κ} {taken : ℕ} {slots : κ → Option ρ} {leased : Set ρ}

/-- The slots in use have had their numbers among the first `taken` ones, and no two of them
have the same resource. -/
structure Sound (number : ℕ → κ) (taken : ℕ) (slots : κ → Option ρ) (leased : Set ρ) : Prop where
  leased : ∀ k r, slots k = some r → r ∈ leased
  separate : ∀ k k' r, slots k = some r → slots k' = some r → k = k'
  numbered : ∀ k r, slots k = some r → ∃ i < taken, number i = k

theorem sound_empty (number : ℕ → κ) (leased : Set ρ) :
    Sound number 0 (fun _ => none) leased where
  leased k r hk := by cases hk
  separate k k' r hk := by cases hk
  numbered k r hk := by cases hk

theorem Sound.ne_some (hsound : Sound number taken slots leased) {r : ρ} (hr : r ∉ leased)
    (k : κ) : slots k ≠ some r :=
  fun hk => hr (hsound.leased k r hk)

theorem Sound.slot_eq_none (hsound : Sound number taken slots leased) {bound : ℕ}
    (hinj : Set.InjOn number (Set.Iio bound)) (hbound : taken < bound) :
    slots (number taken) = none := by
  rw [Option.eq_none_iff_forall_ne_some]
  intro r hr
  obtain ⟨i, hi, hnumber⟩ := hsound.numbered _ r hr
  have heq : i = taken := hinj (hi.trans hbound) hbound hnumber
  exact absurd heq (Nat.ne_of_lt hi)

theorem Sound.skip (hsound : Sound number taken slots leased) :
    Sound number (taken + 1) slots leased where
  leased := hsound.leased
  separate := hsound.separate
  numbered k r hk := by
    obtain ⟨i, hi, hnumber⟩ := hsound.numbered k r hk
    exact ⟨i, Nat.lt_succ_of_lt hi, hnumber⟩

section Updates

variable [DecidableEq κ]

theorem Sound.lease (hsound : Sound number taken slots leased) {r : ρ} (hr : r ∉ leased) :
    Sound number (taken + 1) (Function.update slots (number taken) (some r))
      (insert r leased) := by
  have hcases : ∀ k q, Function.update slots (number taken) (some r) k = some q →
      k = number taken ∧ q = r ∨ k ≠ number taken ∧ slots k = some q := by
    intro k q hk
    by_cases hnew : k = number taken
    · subst hnew
      rw [Function.update_self] at hk
      exact Or.inl ⟨rfl, (Option.some.inj hk).symm⟩
    · rw [Function.update_of_ne hnew] at hk
      exact Or.inr ⟨hnew, hk⟩
  constructor
  · intro k q hk
    rcases hcases k q hk with ⟨-, rfl⟩ | ⟨-, hk⟩
    · exact Set.mem_insert _ _
    · exact Set.mem_insert_of_mem _ (hsound.leased k q hk)
  · intro k k' q hk hk'
    rcases hcases k q hk with ⟨rfl, rfl⟩ | ⟨-, hold⟩
    · rcases hcases k' q hk' with ⟨rfl, -⟩ | ⟨-, hold'⟩
      · rfl
      · exact absurd hold' (hsound.ne_some hr k')
    · rcases hcases k' q hk' with ⟨-, rfl⟩ | ⟨-, hold'⟩
      · exact absurd hold (hsound.ne_some hr k)
      · exact hsound.separate k k' q hold hold'
  · intro k q hk
    rcases hcases k q hk with ⟨rfl, -⟩ | ⟨-, hk⟩
    · exact ⟨taken, Nat.lt_succ_self taken, rfl⟩
    · exact hsound.skip.numbered k q hk

theorem Sound.release (hsound : Sound number taken slots leased) {k : κ} {r : ρ}
    (hk : slots k = some r) :
    Sound number taken (Function.update slots k none) (leased \ {r}) := by
  have hrest : ∀ k' q, Function.update slots k none k' = some q → k' ≠ k ∧ slots k' = some q := by
    intro k' q hk'
    by_cases heq : k' = k
    · subst heq
      rw [Function.update_self] at hk'
      cases hk'
    · rw [Function.update_of_ne heq] at hk'
      exact ⟨heq, hk'⟩
  constructor
  · intro k' q hk'
    obtain ⟨hne, hq⟩ := hrest k' q hk'
    refine ⟨hsound.leased k' q hq, ?_⟩
    rintro rfl
    exact hne (hsound.separate k' k q hq hk)
  · intro k' k'' q hk' hk''
    exact hsound.separate k' k'' q (hrest k' q hk').2 (hrest k'' q hk'').2
  · intro k' q hk'
    exact hsound.numbered k' q (hrest k' q hk').2

end Updates

end DatumGateway.LeasedSlots

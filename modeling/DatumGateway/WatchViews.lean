import Mathlib.Tactic.Common

namespace DatumGateway.WatchViews

/-- A receiver that has seen the first `seen` values, and those before `start` not by itself. -/
structure View (α : Type*) where
  start : ℕ
  seen : ℕ
  taken : List α := []

namespace View

variable {α : Type*}

/-- Another receiver, for which the same values are new. -/
def clone (v : View α) : View α where
  start := v.seen
  seen := v.seen

/-- The receiver takes the value that the channel holds, if it is new to it. -/
def take (sent : List α) (v : View α) : Option (View α) :=
  if v.seen < sent.length then
    sent.getLast?.map fun value =>
      { v with seen := sent.length, taken := v.taken ++ [value] }
  else none

structure Follows (sent : List α) (v : View α) : Prop where
  start_le : v.start ≤ v.seen
  seen_le : v.seen ≤ sent.length
  inOrder : v.taken.Sublist ((sent.take v.seen).drop v.start)
  last : v.start < v.seen → v.taken.getLast? = sent[v.seen - 1]?

variable {sent : List α} {v w : View α}

theorem Follows.clone (hfollows : Follows sent v) : Follows sent v.clone where
  start_le := Nat.le_refl _
  seen_le := hfollows.seen_le
  inOrder := List.nil_sublist _
  last := fun h => absurd h (Nat.lt_irrefl _)

theorem Follows.send (hfollows : Follows sent v) (value : α) : Follows (sent ++ [value]) v where
  start_le := hfollows.start_le
  seen_le := by
    rw [List.length_append]
    exact Nat.le_add_right_of_le hfollows.seen_le
  inOrder := by
    rw [List.take_append_of_le_length hfollows.seen_le]
    exact hfollows.inOrder
  last := by
    intro hlt
    have hseen := hfollows.seen_le
    rw [List.getElem?_append_left (by omega)]
    exact hfollows.last hlt

theorem Follows.take (hfollows : Follows sent v) (htake : v.take sent = some w) :
    Follows sent w := by
  obtain ⟨hnew, htake⟩ := Option.ite_none_right_eq_some.mp htake
  obtain ⟨value, hlast, rfl⟩ := Option.map_eq_some_iff.mp htake
  have hstart := hfollows.start_le
  refine ⟨Nat.le_trans hstart hfollows.seen_le, Nat.le_refl _, ?_, ?_⟩
  · -- the value comes after all that was taken
    have hne : sent ≠ [] := List.ne_nil_of_length_pos (Nat.zero_lt_of_lt hnew)
    have hvalue : sent.dropLast ++ [value] = sent := by
      rw [List.getLast?_eq_some_getLast hne] at hlast
      rw [← Option.some.inj hlast]
      exact List.dropLast_concat_getLast hne
    have hearlier : (sent.take v.seen).Sublist sent.dropLast := by
      rw [List.dropLast_eq_take]
      exact List.take_sublist_take_left (by omega)
    have hdrop : ((sent.take v.seen).drop v.start).Sublist (sent.dropLast.drop v.start) :=
      hearlier.drop v.start
    dsimp only
    rw [List.take_length, ← hvalue, List.drop_append_of_le_length]
    · exact (hfollows.inOrder.trans hdrop).append (List.Sublist.refl _)
    · rw [List.length_dropLast]
      omega
  · intro _
    dsimp only
    rw [List.getLast?_concat, ← List.getLast?_eq_getElem?, hlast]

theorem Follows.upToDate (hfollows : Follows sent v) (hstart : v.start < sent.length)
    (hnothing : v.take sent = none) : v.taken.getLast? = sent.getLast? := by
  have hseen : v.seen = sent.length := by
    by_contra hne
    have hnew : v.seen < sent.length := Nat.lt_of_le_of_ne hfollows.seen_le hne
    have hsent : sent ≠ [] := List.ne_nil_of_length_pos (Nat.zero_lt_of_lt hnew)
    rw [View.take, if_pos hnew, List.getLast?_eq_some_getLast hsent] at hnothing
    cases hnothing
  rw [hfollows.last (hseen ▸ hstart), hseen, List.getLast?_eq_getElem?]

end View

end DatumGateway.WatchViews

import Mathlib.Algebra.Group.Nat.Defs
import Mathlib.Control.Basic
import Mathlib.Data.Nat.Basic
import Mathlib.Data.Vector.Defs

/-!
Computations that can fail with an error, and that can also panic: at an index out of
range, at a difference below zero or at a sum that does not fit its word.
-/

namespace DatumGateway.CheckedRuns

/-- `none` is a panic. -/
abbrev Checked (ε α : Type) := ExceptT ε Option α

variable {ε α β : Type}

/-- `xs[i]` -/
def index (xs : List α) (i : ℕ) : Checked ε α :=
  ExceptT.mk (xs[i]?.map Except.ok)

/-- `xs[i..j]` -/
def slice (xs : List α) (i j : ℕ) : Checked ε (List α) :=
  ExceptT.mk (if i ≤ j ∧ j ≤ xs.length then some (.ok ((xs.drop i).take (j - i))) else none)

/-- An array of `n` elements; a list of another length is a panic. -/
def array (n : ℕ) (xs : List α) : Checked ε (List.Vector α n) :=
  ExceptT.mk (if h : xs.length = n then some (.ok ⟨xs, h⟩) else none)

def sub (m n : ℕ) : Checked ε ℕ :=
  ExceptT.mk (if n ≤ m then some (.ok (m - n)) else none)

def addWord (m n : UInt64) : Checked ε UInt64 :=
  ExceptT.mk (if m.toNat + n.toNat < 2 ^ 64 then some (.ok (m + n)) else none)

def failIf (p : Prop) [Decidable p] (e : ε) : Checked ε Unit :=
  if p then throw e else pure ()

/-! Where the checks succeed. -/

theorem index_of_lt {xs : List α} {i : ℕ} (hi : i < xs.length) :
    (index xs i : Checked ε α) = pure xs[i] := by
  rw [index, List.getElem?_eq_getElem hi]
  rfl

theorem slice_of_le {xs : List α} {i n : ℕ} (hend : i + n ≤ xs.length) :
    (slice xs i (i + n) : Checked ε (List α)) = pure ((xs.drop i).take n) := by
  rw [slice, if_pos ⟨Nat.le_add_right i n, hend⟩, Nat.add_sub_cancel_left]
  rfl

theorem array_of_length {n : ℕ} {xs : List α} (hlength : xs.length = n) :
    (array n xs : Checked ε (List.Vector α n)) = pure ⟨xs, hlength⟩ := by
  rw [array, dif_pos hlength]
  rfl

theorem sub_of_le {m n : ℕ} (hle : n ≤ m) : (sub m n : Checked ε ℕ) = pure (m - n) := by
  rw [sub, if_pos hle]
  rfl

theorem addWord_of_lt {m n : UInt64} (hsum : m.toNat + n.toNat < 2 ^ 64) :
    (addWord m n : Checked ε UInt64) = pure (m + n) := by
  rw [addWord, if_pos hsum]
  rfl

theorem failIf_of_not {p : Prop} [Decidable p] (e : ε) (hp : ¬ p) : failIf p e = pure () :=
  if_neg hp

theorem failIf_of {p : Prop} [Decidable p] (e : ε) (hp : p) : failIf p e = throw e :=
  if_pos hp

/-! Outcomes. -/

/-- The computation does not panic, and its outcome is `r`. -/
def Runs (c : Checked ε α) (r : Except ε α) : Prop :=
  c.run = some r

theorem Runs.pure (x : α) : Runs (Pure.pure x : Checked ε α) (.ok x) :=
  rfl

theorem Runs.throw_bind (e : ε) (next : α → Checked ε β) :
    Runs ((throw e : Checked ε α) >>= next) (.error e) :=
  rfl

theorem Runs.map {c : Checked ε α} {r : Except ε α} (hc : Runs c r) (f : α → β) :
    Runs (c >>= fun x => Pure.pure (f x)) (r.map f) := by
  have hrun : (c >>= fun x => Pure.pure (f x)).run =
      c.run >>= ExceptT.bindCont fun x => Pure.pure (f x) := rfl
  rw [Runs, hrun, hc]
  cases r with
  | error e => rfl
  | ok x => rfl

theorem Runs.of_bind {c : Checked ε α} {next : α → Checked ε β} {r : Except ε β}
    (hruns : Runs (c >>= next) r) : ∃ first, Runs c first := by
  have hrun : (c >>= next).run = c.run >>= ExceptT.bindCont next := rfl
  cases hc : c.run with
  | none =>
      rw [Runs, hrun, hc] at hruns
      cases hruns
  | some first => exact ⟨first, hc⟩

theorem Runs.of_addWord_bind {m n : UInt64} {next : UInt64 → Checked ε β} {r : Except ε β}
    (hruns : Runs (addWord m n >>= next) r) :
    m.toNat + n.toNat < 2 ^ 64 ∧ Runs (next (m + n)) r := by
  by_cases hsum : m.toNat + n.toNat < 2 ^ 64
  · rw [addWord_of_lt hsum, pure_bind] at hruns
    exact ⟨hsum, hruns⟩
  · have hpanic : (addWord m n >>= next).run = none := by
      rw [addWord, if_neg hsum]
      rfl
    rw [Runs, hpanic] at hruns
    cases hruns

theorem Runs.failIf_bind {p : Prop} [Decidable p] {e : ε} {next : Unit → Checked ε β}
    {r : Except ε β} (hfail : p → r = .error e) (hpass : ¬ p → Runs (next ()) r) :
    Runs (failIf p e >>= next) r := by
  by_cases hp : p
  · rw [hfail hp, failIf_of e hp]
    exact Runs.throw_bind e next
  · rw [failIf_of_not e hp, pure_bind]
    exact hpass hp

end DatumGateway.CheckedRuns

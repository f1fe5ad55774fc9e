import Mathlib.Data.List.Basic
import Mathlib.Data.Set.BooleanAlgebra
import Mathlib.Data.Set.Disjoint
import Mathlib.Data.Vector.Basic
import Mathlib.Order.CompletePartialOrder

/-!
Longest prefixes of a list, codes whose words show by themselves where they end, words
that start with a given one, and fields with a separator between them.
-/

namespace DatumGateway.ListPrefixes

variable {α β ε : Type}

/-- `taken` is the longest prefix of `xs` with the property. -/
structure LongestPrefix (p : List α → Prop) (xs taken : List α) : Prop where
  isPrefix : taken <+: xs
  holds : p taken
  longest : ∀ other, other <+: xs → p other → other.length ≤ taken.length

theorem LongestPrefix.nil {p : List α → Prop} (hnil : p []) : LongestPrefix p [] [] where
  isPrefix := List.nil_prefix
  holds := hnil
  longest other hother _ := by
    obtain rfl := List.prefix_nil.mp hother
    exact Nat.le_refl 0

theorem LongestPrefix.stop {p : List α → Prop} {x : α} {xs : List α} (hnil : p [])
    (hcons : ∀ other, ¬ p (x :: other)) : LongestPrefix p (x :: xs) [] where
  isPrefix := List.nil_prefix
  holds := hnil
  longest other hother hp := by
    cases other with
    | nil => exact Nat.le_refl 0
    | cons y other =>
        obtain ⟨rfl, -⟩ := List.cons_prefix_cons.mp hother
        exact absurd hp (hcons other)

theorem LongestPrefix.cons {p q : List α → Prop} {x : α} {xs taken : List α}
    (hpq : ∀ other, p (x :: other) ↔ q other) (htaken : LongestPrefix q xs taken) :
    LongestPrefix p (x :: xs) (x :: taken) where
  isPrefix := List.cons_prefix_cons.mpr ⟨rfl, htaken.isPrefix⟩
  holds := (hpq taken).mpr htaken.holds
  longest other hother hp := by
    cases other with
    | nil => exact Nat.zero_le _
    | cons y other =>
        obtain ⟨rfl, htail⟩ := List.cons_prefix_cons.mp hother
        exact Nat.succ_le_succ (htaken.longest other htail ((hpq other).mp hp))

/-- Words are read back whatever follows them, and nothing is read that is not such a word. -/
structure PrefixCode (encode : α → List β) (decode : List β → Except ε α)
    (valid : α → Prop) : Prop where
  decode_append : ∀ x, valid x → ∀ rest, decode (encode x ++ rest) = .ok x
  encode_prefix : ∀ word x, decode word = .ok x → valid x ∧ encode x <+: word

theorem PrefixCode.decode_encode {encode : α → List β} {decode : List β → Except ε α}
    {valid : α → Prop} (hcode : PrefixCode encode decode valid) {x : α} (hx : valid x) :
    decode (encode x) = .ok x := by
  have hdecode := hcode.decode_append x hx []
  rwa [List.append_nil] at hdecode

/-- No word is a proper prefix of another one, so nothing is read from a word cut short. -/
theorem PrefixCode.decode_strict_prefix {encode : α → List β} {decode : List β → Except ε α}
    {valid : α → Prop} (hcode : PrefixCode encode decode valid) {x : α} (hx : valid x)
    {word : List β} (hword : word <+: encode x) (hne : word ≠ encode x) :
    ∃ e, decode word = .error e := by
  cases hdecode : decode word with
  | error e => exact ⟨e, rfl⟩
  | ok y =>
      exfalso
      obtain ⟨hy, hprefix⟩ := hcode.encode_prefix word y hdecode
      obtain ⟨rest, hrest⟩ := hprefix.trans hword
      have hxy : x = y := by
        have hagain := hcode.decode_append y hy rest
        rw [hrest, hcode.decode_encode hx] at hagain
        exact Except.ok.inj hagain
      subst hxy
      exact hne (hword.eq_of_length (Nat.le_antisymm hword.length_le hprefix.length_le))

section Extensions

variable {α : Type*}

def Comparable (p q : List α) : Prop :=
  p <+: q ∨ q <+: p

/-- The words of length `n` that start with `p`. -/
def extensions (n : ℕ) (p : List α) : Set (List.Vector α n) :=
  {v | p <+: v.toList}

theorem Comparable.symm {p q : List α} (h : Comparable p q) : Comparable q p :=
  h.elim Or.inr Or.inl

theorem comparable_self (p : List α) : Comparable p p :=
  Or.inl List.prefix_rfl

theorem Comparable.take_eq {p q : List α} {k : ℕ} (h : Comparable p q) (hp : k ≤ p.length)
    (hq : k ≤ q.length) : p.take k = q.take k := by
  rcases h with hpq | hqp
  · obtain ⟨rest, rfl⟩ := hpq
    rw [List.take_append_of_le_length hp]
  · obtain ⟨rest, rfl⟩ := hqp
    rw [List.take_append_of_le_length hq]

theorem disjoint_extensions {n : ℕ} {p q : List α} (h : ¬ Comparable p q) :
    Disjoint (extensions n p) (extensions n q) := by
  rw [Set.disjoint_left]
  intro v hp hq
  exact h (List.prefix_or_prefix_of_prefix hp hq)

end Extensions

section Separators

variable {α : Type*}

theorem append_separator_inj {sep : α} {xs xs' ys ys' : List α} (hxs : sep ∉ xs) (hxs' : sep ∉ xs')
    (hequal : xs ++ sep :: ys = xs' ++ sep :: ys') : xs = xs' ∧ ys = ys' := by
  induction xs generalizing xs' with
  | nil =>
      cases xs' with
      | nil => exact ⟨rfl, (List.cons.inj hequal).2⟩
      | cons x' xs' => exact absurd ((List.cons.inj hequal).1 ▸ List.mem_cons_self) hxs'
  | cons x xs ih =>
      cases xs' with
      | nil => exact absurd ((List.cons.inj hequal).1.symm ▸ List.mem_cons_self) hxs
      | cons x' xs' =>
          obtain ⟨rfl, hrest⟩ := List.cons.inj hequal
          obtain ⟨rfl, hys⟩ := ih (List.not_mem_of_not_mem_cons hxs)
            (List.not_mem_of_not_mem_cons hxs') hrest
          exact ⟨rfl, hys⟩

theorem intercalate_injective {sep : α} {fields fields' : List (List α)}
    (hlength : fields.length = fields'.length) (hfields : ∀ field ∈ fields.dropLast, sep ∉ field)
    (hfields' : ∀ field ∈ fields'.dropLast, sep ∉ field)
    (hequal : [sep].intercalate fields = [sep].intercalate fields') : fields = fields' := by
  induction fields generalizing fields' with
  | nil => exact (List.length_eq_zero_iff.mp hlength.symm).symm
  | cons field rest ih =>
      obtain ⟨field', rest', rfl⟩ := List.exists_cons_of_length_eq_add_one hlength.symm
      have hrest := Nat.succ.inj hlength
      cases rest with
      | nil =>
          obtain rfl := List.length_eq_zero_iff.mp hrest.symm
          rw [List.intercalate_singleton, List.intercalate_singleton] at hequal
          rw [hequal]
      | cons next fields =>
          obtain ⟨next', fields', rfl⟩ := List.exists_cons_of_length_eq_add_one hrest.symm
          rw [List.intercalate_cons_cons, List.intercalate_cons_cons, List.append_assoc,
            List.append_assoc, List.singleton_append, List.singleton_append] at hequal
          rw [List.dropLast_cons_cons] at hfields hfields'
          obtain ⟨rfl, hnext⟩ := append_separator_inj (hfields field List.mem_cons_self)
            (hfields' field' List.mem_cons_self) hequal
          rw [ih hrest (fun f hf => hfields f (List.mem_cons_of_mem _ hf))
            (fun f hf => hfields' f (List.mem_cons_of_mem _ hf)) hnext]

end Separators

end DatumGateway.ListPrefixes

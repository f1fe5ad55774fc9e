import DatumGateway.Hex
import Mathlib.Algebra.Ring.Parity
import Mathlib.Data.Nat.Digits.Lemmas

namespace DatumGateway.HexTexts

open DatumGateway.ByteString
open DatumGateway.Hex

def IsHexDigit (c : Char) : Prop :=
  '0' ≤ c ∧ c ≤ '9' ∨ 'a' ≤ c ∧ c ≤ 'f' ∨ 'A' ≤ c ∧ c ≤ 'F'

instance (c : Char) : Decidable (IsHexDigit c) :=
  inferInstanceAs (Decidable (_ ∨ _))

theorem isSome_digitValue_iff (c : Char) : (digitValue c).isSome ↔ IsHexDigit c := by
  have hle : ∀ a b : Char, a ≤ b ↔ a.toNat ≤ b.toNat := fun a b => Iff.rfl
  simp only [IsHexDigit, hle, Char.reduceToNat]
  unfold digitValue
  split_ifs with hdigit hlower hupper
  · simp [hdigit]
  · simp [hlower]
  · simp [hupper]
  · simp [hdigit, hlower, hupper]

theorem digitValue_eq_none {c : Char} (hc : ¬ IsHexDigit c) : digitValue c = none := by
  rw [← isSome_digitValue_iff] at hc
  exact Option.not_isSome_iff_eq_none.mp hc

/-! Bytes. -/

def IsHexBytes (s : String) : Prop :=
  Even s.length ∧ ∀ c ∈ s.toList, IsHexDigit c

theorem decodeChars_cons_cons (hi lo : Char) (cs : List Char) :
    decodeChars (hi :: lo :: cs) =
      (digitValue hi).bind fun h => (digitValue lo).bind fun l =>
        (decodeChars cs).map (UInt8.ofNat (16 * h + l) :: ·) := by
  rw [decodeChars]
  cases digitValue hi with
  | none => rfl
  | some h =>
      cases digitValue lo with
      | none => rfl
      | some l =>
          cases decodeChars cs with
          | none => rfl
          | some bs => rfl

theorem length_of_decodeChars {cs : List Char} {bs : Bytes} (hcs : decodeChars cs = some bs) :
    cs.length = 2 * bs.length := by
  induction cs using decodeChars.induct generalizing bs with
  | case1 =>
      obtain rfl := Option.some.inj hcs
      rfl
  | case2 c => cases hcs
  | case3 hi lo cs h l tail htail hlo hhi ih =>
      rw [decodeChars_cons_cons, hhi, hlo, htail] at hcs
      obtain rfl := Option.some.inj hcs
      simp only [List.length_cons, ih htail]
      omega
  | case4 hi lo cs hnone ih =>
      rw [decodeChars_eq_none hnone] at hcs
      cases hcs

theorem decodeChars_take_drop {cs : List Char} {bs : Bytes} (hcs : decodeChars cs = some bs)
    (i : ℕ) :
    decodeChars (cs.take (i * 2)) = some (bs.take i) ∧
      decodeChars (cs.drop (i * 2)) = some (bs.drop i) := by
  induction i generalizing cs bs with
  | zero => exact ⟨rfl, hcs⟩
  | succ i ih =>
      match cs with
      | [] =>
          obtain rfl := Option.some.inj hcs
          exact ⟨rfl, rfl⟩
      | [_] => cases hcs
      | hi :: lo :: cs =>
          rw [decodeChars_cons_cons] at hcs
          obtain ⟨h, hh, hcs⟩ := Option.bind_eq_some_iff.mp hcs
          obtain ⟨l, hl, hcs⟩ := Option.bind_eq_some_iff.mp hcs
          obtain ⟨tail, htail, rfl⟩ := Option.map_eq_some_iff.mp hcs
          obtain ⟨htake, hdrop⟩ := ih htail
          rw [Nat.succ_mul, List.take_succ_cons, List.take_succ_cons, List.drop_succ_cons,
            List.drop_succ_cons, decodeChars_cons_cons, hh, hl, htake]
          exact ⟨rfl, hdrop⟩

theorem isSome_decodeChars_iff (cs : List Char) :
    (decodeChars cs).isSome ↔ Even cs.length ∧ ∀ c ∈ cs, IsHexDigit c := by
  induction cs using List.twoStepInduction with
  | nil => simp [decodeChars]
  | singleton c => simp [decodeChars]
  | cons_cons hi lo cs ih _ =>
      simp only [List.length_cons, List.forall_mem_cons, Nat.even_add_one, not_not,
        decodeChars_cons_cons]
      by_cases hhi : IsHexDigit hi
      · by_cases hlo : IsHexDigit lo
        · obtain ⟨h, hh⟩ := Option.isSome_iff_exists.mp ((isSome_digitValue_iff hi).mpr hhi)
          obtain ⟨l, hl⟩ := Option.isSome_iff_exists.mp ((isSome_digitValue_iff lo).mpr hlo)
          simp only [hh, hl, Option.bind_some, Option.isSome_map, ih, hhi, hlo, true_and]
        · simp [digitValue_eq_none hlo, hlo]
      · simp [digitValue_eq_none hhi, hhi]

theorem isSome_decode_iff (s : String) : (decode s).isSome ↔ IsHexBytes s :=
  isSome_decodeChars_iff s.toList

theorem length_of_decode {s : String} {bs : Bytes} (hs : decode s = some bs) :
    s.length = 2 * bs.length :=
  length_of_decodeChars hs

/-- Text of exactly this number of bytes. -/
def IsHexOf (size : ℕ) (s : String) : Prop :=
  s.length = 2 * size ∧ ∀ c ∈ s.toList, IsHexDigit c

instance (size : ℕ) (s : String) : Decidable (IsHexOf size s) :=
  inferInstanceAs (Decidable (_ ∧ _))

theorem isHexOf_iff_of_decode {s : String} {bs : Bytes} (hs : decode s = some bs) (size : ℕ) :
    IsHexOf size s ↔ bs.length = size := by
  have hdigits : IsHexBytes s := (isSome_decode_iff s).mp (by rw [hs]; rfl)
  have hlength := length_of_decode hs
  constructor
  · rintro ⟨hsize, -⟩
    omega
  · rintro rfl
    exact ⟨hlength, hdigits.2⟩

/-! Numbers. -/

/-- The first digit is the most significant one. -/
def hexNumber (digits : List Char) : ℕ :=
  Nat.ofDigits 16 (digits.reverse.map fun c => (digitValue c).getD 0)

theorem hexNumber_concat (digits : List Char) (c : Char) :
    hexNumber (digits ++ [c]) = 16 * hexNumber digits + (digitValue c).getD 0 := by
  simp [hexNumber, Nat.ofDigits_cons, Nat.add_comm]

/-- Text of hex digits, with `0x` before them or not, that says a number. -/
def DenotesWord (s : String) (n : UInt32) : Prop :=
  ∃ digits, (s.toList = digits ∨ s.toList = '0' :: 'x' :: digits) ∧ digits ≠ [] ∧
    (∀ c ∈ digits, IsHexDigit c) ∧ hexNumber digits = n.toNat

def dropPlus (cs : List Char) : List Char :=
  match cs with
  | '+' :: rest => rest
  | _ => cs

/-- Text that is read as a number: there may also be a plus sign before the digits. -/
def ReadsAsWord (s : String) : Prop :=
  let digits := dropPlus (stripPrefix0x s.toList)
  digits ≠ [] ∧ (∀ c ∈ digits, IsHexDigit c) ∧ hexNumber digits < 2 ^ 32

def readDigit (n : ℕ) (c : Char) : Option ℕ := do
  let d ← digitValue c
  if 16 * n + d < 2 ^ 32 then some (16 * n + d) else none

theorem readDigit_eq_some_iff {n m : ℕ} {c : Char} :
    readDigit n c = some m ↔ ∃ d, digitValue c = some d ∧ 16 * n + d = m ∧ m < 2 ^ 32 := by
  simp only [readDigit, Option.bind_eq_bind, Option.bind_eq_some_iff,
    Option.ite_none_right_eq_some, Option.some.injEq]
  constructor
  · rintro ⟨d, hd, hlt, rfl⟩
    exact ⟨d, hd, rfl, hlt⟩
  · rintro ⟨d, hd, rfl, hlt⟩
    exact ⟨d, hd, hlt, rfl⟩

theorem foldlM_readDigit_eq_some_iff (digits : List Char) (n : ℕ) :
    digits.foldlM readDigit 0 = some n ↔
      (∀ c ∈ digits, IsHexDigit c) ∧ hexNumber digits = n ∧ n < 2 ^ 32 := by
  induction digits using List.reverseRecOn generalizing n with
  | nil =>
      simp only [List.foldlM_nil, Option.pure_def, Option.some.injEq, List.not_mem_nil,
        false_imp_iff, implies_true, true_and]
      constructor
      · rintro rfl
        exact ⟨rfl, by omega⟩
      · rintro ⟨hn, -⟩
        exact hn
  | append_singleton digits c ih =>
      have hlast : ∀ m, [c].foldlM readDigit m = readDigit m c := by
        intro m
        simp
      rw [List.foldlM_append, hexNumber_concat]
      simp only [Option.bind_eq_bind, Option.bind_eq_some_iff, ih, hlast, readDigit_eq_some_iff]
      constructor
      · rintro ⟨m, ⟨hdigits, rfl, hm⟩, d, hd, rfl, hlt⟩
        refine ⟨?_, by rw [hd, Option.getD_some], hlt⟩
        intro c' hc'
        rcases List.mem_append.mp hc' with hc' | hc'
        · exact hdigits c' hc'
        · rw [List.mem_singleton.mp hc', ← isSome_digitValue_iff, hd]
          rfl
      · rintro ⟨hdigits, rfl, hlt⟩
        have hc : IsHexDigit c := hdigits c (by simp)
        obtain ⟨d, hd⟩ := Option.isSome_iff_exists.mp ((isSome_digitValue_iff c).mpr hc)
        have hrest : ∀ c' ∈ digits, IsHexDigit c' := fun c' hc' =>
          hdigits c' (List.mem_append_left _ hc')
        rw [hd, Option.getD_some] at hlt
        exact ⟨_, ⟨hrest, rfl, by omega⟩, d, hd, by rw [hd, Option.getD_some], by
          rw [hd, Option.getD_some]; exact hlt⟩

theorem fromStrRadix16_eq_some_iff (cs : List Char) (n : UInt32) :
    fromStrRadix16 cs = some n ↔
      dropPlus cs ≠ [] ∧ (∀ c ∈ dropPlus cs, IsHexDigit c) ∧
        hexNumber (dropPlus cs) = n.toNat := by
  have hread : fromStrRadix16 cs =
      if dropPlus cs = [] then none
      else ((dropPlus cs).foldlM readDigit 0).map UInt32.ofNat := rfl
  rw [hread, Option.ite_none_left_eq_some, Option.map_eq_some_iff]
  simp only [foldlM_readDigit_eq_some_iff]
  refine and_congr_right fun _ => ?_
  constructor
  · rintro ⟨m, ⟨hdigits, hm, hlt⟩, rfl⟩
    exact ⟨hdigits, by rw [hm, UInt32.toNat_ofNat_of_lt' hlt]⟩
  · rintro ⟨hdigits, hn⟩
    exact ⟨n.toNat, ⟨hdigits, hn, n.toNat_lt⟩, UInt32.ofNat_toNat⟩

theorem dropPlus_eq_self {cs : List Char} (hcs : '+' ∉ cs) : dropPlus cs = cs := by
  unfold dropPlus
  split
  · exact absurd (List.mem_cons_self ..) hcs
  · rfl

theorem stripPrefix0x_eq_self {cs : List Char} (hcs : 'x' ∉ cs) : stripPrefix0x cs = cs := by
  unfold stripPrefix0x
  split
  · simp at hcs
  · rfl

theorem eq_or_eq_stripPrefix0x (cs : List Char) :
    cs = stripPrefix0x cs ∨ cs = '0' :: 'x' :: stripPrefix0x cs := by
  unfold stripPrefix0x
  split
  · exact Or.inr rfl
  · exact Or.inl rfl

theorem isSome_fromStrRadix16_iff (s : String) :
    (fromStrRadix16 (stripPrefix0x s.toList)).isSome ↔ ReadsAsWord s := by
  simp only [Option.isSome_iff_exists, fromStrRadix16_eq_some_iff, ReadsAsWord]
  constructor
  · rintro ⟨n, hne, hdigits, hn⟩
    exact ⟨hne, hdigits, hn ▸ n.toNat_lt⟩
  · rintro ⟨hne, hdigits, hlt⟩
    exact ⟨UInt32.ofNat _, hne, hdigits, (UInt32.toNat_ofNat_of_lt' hlt).symm⟩

/-- The plus sign is all that is read and says no number. -/
theorem denotesWord_iff (s : String) (n : UInt32) :
    DenotesWord s n ↔ fromStrRadix16 (stripPrefix0x s.toList) = some n ∧ '+' ∉ s.toList := by
  rw [fromStrRadix16_eq_some_iff]
  constructor
  · rintro ⟨digits, hs, hne, hdigits, hn⟩
    have hplus : '+' ∉ digits := fun hmem => absurd (hdigits _ hmem) (by decide)
    have hx : 'x' ∉ digits := fun hmem => absurd (hdigits _ hmem) (by decide)
    have hstrip : stripPrefix0x s.toList = digits := by
      rcases hs with hs | hs
      · rw [hs, stripPrefix0x_eq_self hx]
      · rw [hs]
        rfl
    rw [hstrip, dropPlus_eq_self hplus]
    refine ⟨⟨hne, hdigits, hn⟩, ?_⟩
    rcases hs with hs | hs
    · rw [hs]
      exact hplus
    · rw [hs]
      simp [hplus]
  · rintro ⟨⟨hne, hdigits, hn⟩, hplus⟩
    have hs := eq_or_eq_stripPrefix0x s.toList
    have hstrip : '+' ∉ stripPrefix0x s.toList := by
      rcases hs with hs | hs
      · rw [← hs]
        exact hplus
      · rw [hs] at hplus
        exact fun hmem => hplus (by simp [hmem])
    rw [dropPlus_eq_self hstrip] at hne hdigits hn
    exact ⟨_, hs, hne, hdigits, hn⟩

end DatumGateway.HexTexts

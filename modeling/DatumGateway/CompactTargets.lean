import DatumGateway.ChannelTargets

namespace DatumGateway.CompactTargets

open DatumGateway.ByteString
open DatumGateway.ChannelTargets
open DatumGateway.MerkleBranches
open DatumGateway.SharedTemplate
open DatumGateway.ShareEncoder

/-- What `SetCompact` returns: a number of 256 bits and two flags. -/
structure CompactValue where
  value : ℕ
  negative : Bool
  overflow : Bool
  deriving DecidableEq, Repr

def exponent (nbits : UInt32) : ℕ :=
  nbits.toNat / 2 ^ 24

def SignBit (nbits : UInt32) : Prop :=
  nbits.toNat / 2 ^ 23 % 2 = 1

instance (nbits : UInt32) : Decidable (SignBit nbits) :=
  inferInstanceAs (Decidable (_ = _))

def setCompact (nCompact : UInt32) : CompactValue :=
  let nSize := exponent nCompact
  let nWord := nCompact.toNat % 2 ^ 23
  let nWord := if nSize ≤ 3 then nWord / 256 ^ (3 - nSize) else nWord
  { value := if nSize ≤ 3 then nWord else nWord * 256 ^ (nSize - 3) % 2 ^ 256
    negative := nWord ≠ 0 ∧ SignBit nCompact
    overflow := nWord ≠ 0 ∧
      (34 < nSize ∨ 0xFF < nWord ∧ 33 < nSize ∨ 0xFFFF < nWord ∧ 32 < nSize) }

def Accepted (nbits : UInt32) : Prop :=
  (setCompact nbits).negative = false ∧ (setCompact nbits).overflow = false

instance (nbits : UInt32) : Decidable (Accepted nbits) :=
  inferInstanceAs (Decidable (_ ∧ _))

/-- The text is the hex display of `nbits`, in either case of its letters. -/
def Displays (text : String) (nbits : UInt32) : Prop :=
  Hex.decode text = some (leBytes 4 nbits.toNat).reverse

instance (text : String) (nbits : UInt32) : Decidable (Displays text nbits) :=
  inferInstanceAs (Decidable (_ = _))

def AdmitsOnlyZero (target : Bytes32) : Prop :=
  ∀ hash, hashMeetsTarget hash target = true → hash = zeroHash

theorem leValue_replicate_zero (n : ℕ) : leValue (List.replicate n 0) = 0 := by
  induction n with
  | zero => rfl
  | succ n ih => rw [List.replicate_succ, leValue, ih]; rfl

theorem admitsOnlyZero_zeroHash : AdmitsOnlyZero zeroHash := by
  intro hash hmeets
  apply targetValue_injective
  have hle := (hashMeetsTarget_iff hash zeroHash).mp hmeets
  have hzero : targetValue zeroHash = 0 := leValue_replicate_zero 32
  omega

theorem set_three_replicate {n base : ℕ} (hbase : base + 3 ≤ n) (a b c : UInt8) :
    (((List.replicate n 0).set base a).set (base + 1) b).set (base + 2) c =
      List.replicate base 0 ++ [a, b, c] ++ List.replicate (n - base - 3) 0 := by
  obtain ⟨rest, rfl⟩ := Nat.exists_eq_add_of_le hbase
  have hsplit : List.replicate (base + 3 + rest) (0 : UInt8) =
      List.replicate base 0 ++ (0 :: 0 :: 0 :: List.replicate rest 0) := by
    rw [Nat.add_assoc, List.replicate_add, Nat.add_comm 3]
    rfl
  have hrest : base + 3 + rest - base - 3 = rest := by omega
  rw [hsplit, hrest]
  simp

theorem leValue_mantissa {mantissa : ℕ} (hmantissa : mantissa < 2 ^ 24) :
    leValue [UInt8.ofNat mantissa, UInt8.ofNat (mantissa / 2 ^ 8),
      UInt8.ofNat (mantissa / 2 ^ 16)] = mantissa := by
  simp only [leValue, UInt8.toNat_ofNat']
  omega

theorem bytes_nbitsToTargetLe {text : String} {nbits : UInt32} (htext : Displays text nbits) :
    (nbitsToTargetLe text).toList =
      if exponent nbits < 3 ∨ 32 < exponent nbits then List.replicate 32 0
      else
        let base := exponent nbits - 3
        let mantissa := nbits.toNat % 2 ^ 24
        (((List.replicate 32 0).set base (UInt8.ofNat mantissa)).set (base + 1)
          (UInt8.ofNat (mantissa / 2 ^ 8))).set (base + 2) (UInt8.ofNat (mantissa / 2 ^ 16)) := by
  let bytes : ByteVec 4 := ⟨(leBytes 4 nbits.toNat).reverse, by simp⟩
  have hbytes : (Hex.decode text).bind (ByteVec.ofBytes? 4) = some bytes := by
    rw [htext]
    exact ByteVec.ofBytes?_toList bytes
  have hnbits : nbits.toNat = leValue bytes.toList.reverse := by
    have hreverse : bytes.toList.reverse = leBytes 4 nbits.toNat := List.reverse_reverse _
    rw [hreverse]
    exact (leValue_leBytes_of_lt nbits.toNat_lt).symm
  simp only [exponent, hnbits, nbitsToTargetLe, hbytes]
  exact apply_ite List.Vector.toList _ _ _

theorem targetValue_nbitsToTargetLe {text : String} {nbits : UInt32}
    (htext : Displays text nbits) :
    targetValue (nbitsToTargetLe text) =
      if exponent nbits < 3 ∨ 32 < exponent nbits then 0
      else nbits.toNat % 2 ^ 24 * 256 ^ (exponent nbits - 3) := by
  rw [targetValue, bytes_nbitsToTargetLe htext]
  split_ifs with houtside
  · exact leValue_replicate_zero 32
  · dsimp only
    rw [set_three_replicate (by omega), leValue_append, leValue_append, leValue_replicate_zero,
      leValue_replicate_zero, leValue_mantissa (Nat.mod_lt _ (by norm_num)),
      List.length_replicate, Nat.mul_zero, Nat.zero_add, Nat.add_zero, Nat.mul_comm]

theorem toList_nbitsToTargetLe {text : String} {nbits : UInt32} (htext : Displays text nbits)
    (hlow : 3 ≤ exponent nbits) (hhigh : exponent nbits ≤ 32) (hsign : ¬ SignBit nbits) :
    (nbitsToTargetLe text).toList = leBytes 32 (setCompact nbits).value := by
  have hmantissa : nbits.toNat % 2 ^ 24 = nbits.toNat % 2 ^ 23 := by
    simp only [SignBit] at hsign
    omega
  rw [← leBytes_targetValue, targetValue_nbitsToTargetLe htext, if_neg (by omega), hmantissa]
  congr 1
  rcases Nat.eq_or_lt_of_le hlow with hthree | hlarge
  · simp [setCompact, ← hthree]
  · have hpow : 256 ^ (exponent nbits - 3) ≤ 256 ^ 29 :=
      Nat.pow_le_pow_right (by norm_num) (by omega)
    have hword : nbits.toNat % 2 ^ 23 ≤ 2 ^ 23 := Nat.le_of_lt (Nat.mod_lt _ (by norm_num))
    have hbound : nbits.toNat % 2 ^ 23 * 256 ^ (exponent nbits - 3) < 2 ^ 256 :=
      lt_of_le_of_lt (Nat.mul_le_mul hword hpow) (by decide)
    simp only [setCompact, if_neg (Nat.not_le.mpr hlarge)]
    exact (Nat.mod_eq_of_lt hbound).symm

theorem accepted_of_exponent {nbits : UInt32} (hhigh : exponent nbits ≤ 32)
    (hsign : ¬ SignBit nbits) : Accepted nbits := by
  simp only [Accepted, setCompact, decide_eq_false_iff_not]
  exact ⟨fun hnegative => hsign hnegative.2, by omega⟩

theorem exponent_of_overflow {nbits : UInt32} (hoverflow : (setCompact nbits).overflow = true) :
    32 < exponent nbits := by
  simp only [setCompact, decide_eq_true_eq] at hoverflow
  omega

/-- The code follows `SetCompact` where the mantissa fits between its bounds, and gives a target
that admits only the zero hash elsewhere. -/
structure FollowsSetCompact (nbits : UInt32) (target : Bytes32) : Prop where
  value : 3 ≤ exponent nbits → exponent nbits ≤ 32 → ¬ SignBit nbits →
    Accepted nbits ∧ target.toList = leBytes 32 (setCompact nbits).value
  outside : exponent nbits < 3 ∨ 32 < exponent nbits → target = zeroHash ∧ AdmitsOnlyZero target
  overflow : (setCompact nbits).overflow = true → AdmitsOnlyZero target

theorem nbitsToTargetLe_follows (text : String) (nbits : UInt32) (htext : Displays text nbits) :
    FollowsSetCompact nbits (nbitsToTargetLe text) := by
  have houtside : exponent nbits < 3 ∨ 32 < exponent nbits →
      nbitsToTargetLe text = zeroHash := by
    intro houtside
    apply targetValue_injective
    rw [targetValue_nbitsToTargetLe htext, if_pos houtside]
    exact (leValue_replicate_zero 32).symm
  refine ⟨?_, ?_, ?_⟩
  · intro hlow hhigh hsign
    exact ⟨accepted_of_exponent hhigh hsign, toList_nbitsToTargetLe htext hlow hhigh hsign⟩
  · intro hexponent
    rw [houtside hexponent]
    exact ⟨rfl, admitsOnlyZero_zeroHash⟩
  · intro hoverflow
    rw [houtside (Or.inr (exponent_of_overflow hoverflow))]
    exact admitsOnlyZero_zeroHash

theorem nbitsToTargetLe_follows_at_difficulty_one :
    FollowsSetCompact 0x1d00ffff (nbitsToTargetLe "1d00ffff") :=
  nbitsToTargetLe_follows "1d00ffff" 0x1d00ffff (by decide +kernel)

/-- A small exponent: `SetCompact` reads 128, the target is zero. -/
theorem small_exponent_not_followed :
    ¬ ∀ (text : String) (nbits : UInt32), Displays text nbits → Accepted nbits →
      (nbitsToTargetLe text).toList = leBytes 32 (setCompact nbits).value := by
  intro hequal
  have hbytes := hequal "02008000" 0x02008000 (by decide +kernel) (by decide +kernel)
  revert hbytes
  decide +kernel

end DatumGateway.CompactTargets

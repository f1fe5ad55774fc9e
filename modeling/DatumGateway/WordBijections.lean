import Mathlib.Data.BitVec
import Mathlib.Data.FinEnum
import Mathlib.Data.Fintype.EquivFin
import Mathlib.Data.Nat.GCD.Basic
import Mathlib.Data.Nat.ModEq

namespace DatumGateway.WordBijections

variable {w : ℕ}

theorem bijective_of_injective {f : BitVec w → BitVec w} (hf : Function.Injective f) :
    Function.Bijective f :=
  Finite.injective_iff_bijective.mp hf

theorem mul_bijective {c : BitVec w} (hodd : c.toNat.Coprime 2) :
    Function.Bijective fun x : BitVec w => x * c := by
  apply bijective_of_injective
  intro x y hxy
  have hcoprime : (2 ^ w).gcd c.toNat = 1 := (Nat.Coprime.pow_right w hodd).symm
  have hproducts : x.toNat * c.toNat ≡ y.toNat * c.toNat [MOD 2 ^ w] := by
    have htoNat := congrArg BitVec.toNat hxy
    rw [BitVec.toNat_mul, BitVec.toNat_mul] at htoNat
    exact htoNat
  have hwords := Nat.ModEq.cancel_right_of_coprime hcoprime hproducts
  exact BitVec.eq_of_toNat_eq (Nat.ModEq.eq_of_lt_of_lt hwords x.isLt y.isLt)

theorem add_bijective (c : BitVec w) : Function.Bijective fun x : BitVec w => x + c :=
  (Equiv.addRight c).bijective

theorem xor_bijective (c : BitVec w) : Function.Bijective fun x : BitVec w => c ^^^ x := by
  apply bijective_of_injective
  intro x y hxy
  exact (BitVec.xor_right_inj c).mp hxy

theorem rotateRight_rotateLeft (x : BitVec w) (n : ℕ) : (x.rotateLeft n).rotateRight n = x := by
  ext i hi
  have hmod := Nat.mod_lt n (by omega : 0 < w)
  rw [BitVec.getElem_rotateRight]
  split_ifs with hlow
  · rw [BitVec.getElem_rotateLeft, dif_neg (by omega)]
    congr 1
    omega
  · rw [BitVec.getElem_rotateLeft, dif_pos (by omega)]
    congr 1
    omega

theorem rotateLeft_bijective (n : ℕ) : Function.Bijective fun x : BitVec w => x.rotateLeft n :=
  bijective_of_injective (Function.LeftInverse.injective (g := fun x => x.rotateRight n)
    fun x => rotateRight_rotateLeft x n)

theorem eq_zero_of_ushiftRight_eq {x : BitVec w} {n : ℕ} (hn : 0 < n) (hshift : x >>> n = x) :
    x = 0#w := by
  have htoNat := congrArg BitVec.toNat hshift
  rw [BitVec.toNat_ushiftRight, Nat.shiftRight_eq_div_pow] at htoNat
  rcases Nat.eq_zero_or_pos x.toNat with hzero | hpos
  · exact BitVec.eq_of_toNat_eq hzero
  · exact absurd htoNat (Nat.ne_of_lt (Nat.div_lt_self hpos (Nat.one_lt_two_pow (by omega))))

theorem xor_ushiftRight_bijective {n : ℕ} (hn : 0 < n) :
    Function.Bijective fun x : BitVec w => x ^^^ x >>> n := by
  apply bijective_of_injective
  intro x y hxy
  have hdifference : (x ^^^ y) >>> n = x ^^^ y := by
    rw [BitVec.ushiftRight_xor_distrib]
    apply (BitVec.xor_right_inj (x ^^^ y >>> n)).mp
    calc
      x ^^^ y >>> n ^^^ (x >>> n ^^^ y >>> n) = x ^^^ x >>> n := by
        rw [BitVec.xor_comm (x >>> n), BitVec.xor_assoc, ← BitVec.xor_assoc (y >>> n),
          BitVec.xor_self, BitVec.zero_xor]
      _ = y ^^^ y >>> n := hxy
      _ = x ^^^ y >>> n ^^^ (x ^^^ y) := by
        rw [BitVec.xor_comm x (y >>> n), BitVec.xor_assoc, ← BitVec.xor_assoc x,
          BitVec.xor_self, BitVec.zero_xor, BitVec.xor_comm]
  exact BitVec.xor_eq_zero_iff.mp (eq_zero_of_ushiftRight_eq hn hdifference)

end DatumGateway.WordBijections

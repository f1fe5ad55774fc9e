import Mathlib.Data.Vector.Basic
import Mathlib.Data.Fintype.BigOperators
import Mathlib.Data.FinEnum
import Mathlib.Data.UInt
import Mathlib.Tactic.Ring

namespace DatumGateway.ByteString

abbrev Bytes := List UInt8

abbrev ByteVec (n : ℕ) := List.Vector UInt8 n

abbrev Bytes32 := ByteVec 32

/-- The `k` low-order bytes of `n`, least significant first. -/
def leBytes : ℕ → ℕ → Bytes
  | 0, _ => []
  | k + 1, n => UInt8.ofNat n :: leBytes k (n / 256)

/-- The number a byte string spells, least significant byte first. -/
def leValue : Bytes → ℕ
  | [] => 0
  | b :: bs => b.toNat + 256 * leValue bs

@[simp] theorem length_leBytes (k n : ℕ) : (leBytes k n).length = k := by
  induction k generalizing n with
  | zero => rfl
  | succ k ih => simp [leBytes, ih]

theorem leValue_lt_pow (bs : Bytes) : leValue bs < 256 ^ bs.length := by
  induction bs with
  | nil => simp [leValue]
  | cons b bs ih =>
      have hb : b.toNat < 256 := b.toNat_lt
      calc
        leValue (b :: bs) = b.toNat + 256 * leValue bs := rfl
        _ < 256 * (leValue bs + 1) := by omega
        _ ≤ 256 * 256 ^ bs.length := Nat.mul_le_mul_left _ ih
        _ = 256 ^ (b :: bs).length := by rw [List.length_cons, pow_succ]; ring

theorem leValue_append (front rest : Bytes) :
    leValue (front ++ rest) = leValue front + 256 ^ front.length * leValue rest := by
  induction front with
  | nil => simp [leValue]
  | cons b front ih =>
      rw [List.cons_append, leValue, leValue, ih, List.length_cons, pow_succ]
      ring

theorem leValue_leBytes (k n : ℕ) : leValue (leBytes k n) = n % 256 ^ k := by
  induction k generalizing n with
  | zero => simp [leBytes, leValue, Nat.mod_one]
  | succ k ih =>
      have hdigit : (UInt8.ofNat n).toNat = n % 256 := by simp
      rw [leBytes, leValue, ih, hdigit, pow_succ', Nat.mod_mul]

theorem leValue_leBytes_of_lt {k n : ℕ} (hn : n < 256 ^ k) :
    leValue (leBytes k n) = n := by
  rw [leValue_leBytes, Nat.mod_eq_of_lt hn]

theorem leBytes_leValue (bs : Bytes) : leBytes bs.length (leValue bs) = bs := by
  induction bs with
  | nil => rfl
  | cons b bs ih =>
      have hb : b.toNat < 256 := b.toNat_lt
      have hhead : UInt8.ofNat (b.toNat + 256 * leValue bs) = b := by
        apply UInt8.toNat_inj.mp
        simp
      have htail : (b.toNat + 256 * leValue bs) / 256 = leValue bs := by omega
      simp only [List.length_cons, leValue, leBytes]
      rw [hhead, htail, ih]

namespace ByteVec

@[simp] theorem toList_reverse {n : ℕ} (v : ByteVec n) :
    v.reverse.toList = v.toList.reverse :=
  List.Vector.toList_reverse

@[simp] theorem reverse_reverse {n : ℕ} (v : ByteVec n) : v.reverse.reverse = v :=
  List.Vector.reverse_reverse

def fill (n : ℕ) (b : UInt8) : ByteVec n :=
  ⟨List.replicate n b, List.length_replicate⟩

@[simp] theorem toList_fill (n : ℕ) (b : UInt8) :
    (fill n b).toList = List.replicate n b := rfl

def ofBytes? (n : ℕ) (bs : Bytes) : Option (ByteVec n) :=
  if h : bs.length = n then some ⟨bs, h⟩ else none

@[simp] theorem ofBytes?_toList {n : ℕ} (v : ByteVec n) : ofBytes? n v.toList = some v := by
  rcases v with ⟨bs, hbs⟩
  simp [ofBytes?, List.Vector.toList, hbs]

theorem ofBytes?_eq_some_iff {n : ℕ} {bs : Bytes} {v : ByteVec n} :
    ofBytes? n bs = some v ↔ v.toList = bs := by
  constructor
  · intro hv
    obtain ⟨hbs, hv⟩ := Option.dite_none_right_eq_some.mp hv
    obtain rfl := Option.some.inj hv
    rfl
  · rintro rfl
    exact ofBytes?_toList v

theorem toList_injective {n : ℕ} : Function.Injective (List.Vector.toList : ByteVec n → Bytes) :=
  List.Vector.toList_injective

theorem card_byteVec (n : ℕ) : Fintype.card (ByteVec n) = 256 ^ n := by
  have hbyte : Fintype.card UInt8 = 256 := by
    rw [Fintype.card_congr (⟨UInt8.toFin, UInt8.ofFin, fun _ => rfl, fun _ => rfl⟩ :
      UInt8 ≃ Fin UInt8.size), Fintype.card_fin]
  rw [card_vector, hbyte]

end ByteVec

end DatumGateway.ByteString

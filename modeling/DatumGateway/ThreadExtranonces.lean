import DatumGateway.ExtranonceSpace

namespace DatumGateway.ThreadExtranonces

def extranonce1 (threadId : UInt16) (clientId : UInt32) : UInt32 :=
  (threadId.toUInt32 <<< 22) ||| (clientId ^^^ 0xB10CF00D)

/-- The bits of the constant that lie under the thread id. -/
def threadMask : ℕ := 0x2C4

/-- The ids that fit the layout. -/
structure FitsLayout (threadId : UInt16) (clientId : UInt32) : Prop where
  thread : threadId.toNat < 1024
  client : clientId.toNat < 2 ^ 22

theorem extranonce1_zero (clientId : UInt32) :
    extranonce1 0 clientId = ExtranonceSpace.extranonce1 clientId := rfl

theorem toNat_extranonce1 {threadId : UInt16} {clientId : UInt32}
    (hfits : FitsLayout threadId clientId) :
    (extranonce1 threadId clientId).toNat =
      threadId.toNat * 2 ^ 22 ||| (clientId.toNat ^^^ 0xB10CF00D) := by
  have hshift : (threadId.toUInt32 <<< 22).toNat = threadId.toNat * 2 ^ 22 := by
    have hthread := hfits.thread
    rw [UInt32.toNat_shiftLeft, UInt16.toNat_toUInt32, Nat.shiftLeft_eq]
    exact Nat.mod_eq_of_lt (by simp; omega)
  rw [extranonce1, UInt32.toNat_or, hshift, UInt32.toNat_xor]
  rfl

theorem extranonce1_div {threadId : UInt16} {clientId : UInt32}
    (hfits : FitsLayout threadId clientId) :
    (extranonce1 threadId clientId).toNat / 2 ^ 22 = threadId.toNat ||| threadMask := by
  rw [toNat_extranonce1 hfits, Nat.or_div_two_pow, Nat.xor_div_two_pow,
    Nat.mul_div_cancel _ (by norm_num), Nat.div_eq_of_lt hfits.client, Nat.zero_xor]
  rfl

theorem extranonce1_mod {threadId : UInt16} {clientId : UInt32}
    (hfits : FitsLayout threadId clientId) :
    (extranonce1 threadId clientId).toNat % 2 ^ 22 = clientId.toNat ^^^ 0xCF00D := by
  rw [toNat_extranonce1 hfits, Nat.or_mod_two_pow, Nat.mul_mod_left, Nat.zero_or,
    Nat.xor_mod_two_pow, Nat.mod_eq_of_lt hfits.client]

theorem extranonce1_eq_iff {threadId threadId' : UInt16} {clientId clientId' : UInt32}
    (hfits : FitsLayout threadId clientId) (hfits' : FitsLayout threadId' clientId') :
    extranonce1 threadId clientId = extranonce1 threadId' clientId' ↔
      clientId = clientId' ∧ threadId.toNat ||| threadMask = threadId'.toNat ||| threadMask := by
  constructor
  · intro heq
    constructor
    · have hlow : clientId.toNat ^^^ 0xCF00D = clientId'.toNat ^^^ 0xCF00D := by
        rw [← extranonce1_mod hfits, ← extranonce1_mod hfits', heq]
      have hcancel : clientId.toNat = clientId'.toNat := by
        rw [← Nat.xor_zero clientId.toNat, ← Nat.xor_self 0xCF00D, ← Nat.xor_assoc, hlow,
          Nat.xor_assoc, Nat.xor_self, Nat.xor_zero]
      exact UInt32.toNat_inj.mp hcancel
    · rw [← extranonce1_div hfits, ← extranonce1_div hfits', heq]
  · rintro ⟨rfl, hthread⟩
    apply UInt32.toNat_inj.mp
    calc
      (extranonce1 threadId clientId).toNat
          = 2 ^ 22 * ((extranonce1 threadId clientId).toNat / 2 ^ 22) +
            (extranonce1 threadId clientId).toNat % 2 ^ 22 := (Nat.div_add_mod _ _).symm
      _ = 2 ^ 22 * ((extranonce1 threadId' clientId).toNat / 2 ^ 22) +
            (extranonce1 threadId' clientId).toNat % 2 ^ 22 := by
          rw [extranonce1_div hfits, extranonce1_mod hfits, hthread, extranonce1_div hfits',
            extranonce1_mod hfits']
      _ = (extranonce1 threadId' clientId).toNat := Nat.div_add_mod _ _

/-- Two connections get different values exactly if their own ids differ, or the ids of their
threads differ in a bit that the constant does not set. -/
theorem extranonce1_ne_iff {threadId threadId' : UInt16} {clientId clientId' : UInt32}
    (hfits : FitsLayout threadId clientId) (hfits' : FitsLayout threadId' clientId') :
    extranonce1 threadId clientId ≠ extranonce1 threadId' clientId' ↔
      clientId ≠ clientId' ∨
        threadId.toNat ||| threadMask ≠ threadId'.toNat ||| threadMask := by
  rw [Ne, extranonce1_eq_iff hfits hfits', not_and_or]

theorem extranonce1_ne_of_threads_zero_one :
    extranonce1 0 7 ≠ extranonce1 1 7 ↔
      (7 : UInt32) ≠ 7 ∨ (0 : UInt16).toNat ||| threadMask ≠ (1 : UInt16).toNat ||| threadMask :=
  extranonce1_ne_iff ⟨by decide, by decide⟩ ⟨by decide, by decide⟩

theorem extranonce1_collision :
    ¬ ∀ (threadId threadId' : UInt16) (clientId clientId' : UInt32),
      FitsLayout threadId clientId → FitsLayout threadId' clientId' →
      (threadId, clientId) ≠ (threadId', clientId') →
      extranonce1 threadId clientId ≠ extranonce1 threadId' clientId' :=
  fun hinjective => hinjective 0 4 0 0 ⟨by decide, by decide⟩ ⟨by decide, by decide⟩
    (by decide) (by decide)

end DatumGateway.ThreadExtranonces

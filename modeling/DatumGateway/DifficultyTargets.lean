import DatumGateway.ChannelTargets
import DatumGateway.ShareValidity

namespace DatumGateway.DifficultyTargets

open DatumGateway.ByteString
open DatumGateway.ChannelTargets
open DatumGateway.JobTracker
open DatumGateway.ShareEncoder
open DatumGateway.ShareValidity

/-- The target of difficulty one. -/
def diffOneTarget : ℕ :=
  0xFFFF * 2 ^ 208

/-- The high sixteen bytes of the target of a difficulty. -/
def scaledTarget (diff : ℕ) : ℕ :=
  0xFFFF * 2 ^ 80 / diff

theorem toNat_pos {diff : UInt64} (hdiff : 1 ≤ diff) : 0 < diff.toNat := by
  have hle := UInt64.le_iff_toNat_le.mp hdiff
  exact hle

theorem scaledTarget_lt (diff : ℕ) : scaledTarget diff < 256 ^ 16 := by
  calc
    scaledTarget diff ≤ 0xFFFF * 2 ^ 80 := Nat.div_le_self _ _
    _ < 256 ^ 16 := by decide

theorem toList_diffToTargetLe {diff : UInt64} (hdiff : 1 ≤ diff) :
    (diffToTargetLe diff).toList =
      List.replicate 16 0 ++ leBytes 16 (scaledTarget diff.toNat) := by
  have hne : diff ≠ 0 := by
    rintro rfl
    exact absurd (toNat_pos hdiff) (Nat.lt_irrefl 0)
  exact congrArg List.Vector.toList (if_neg hne)

theorem targetValue_diffToTargetLe {diff : UInt64} (hdiff : 1 ≤ diff) :
    targetValue (diffToTargetLe diff) = scaledTarget diff.toNat * 2 ^ 128 := by
  have hzeros : leValue (List.replicate 16 0) = 0 := by decide
  have hpow : 256 ^ 16 = 2 ^ 128 := by decide
  rw [targetValue, toList_diffToTargetLe hdiff, leValue_append, hzeros,
    leValue_leBytes_of_lt (scaledTarget_lt _), List.length_replicate, zero_add, Nat.mul_comm, hpow]

theorem scaledTarget_mul_le (diff : ℕ) : scaledTarget diff * diff ≤ 0xFFFF * 2 ^ 80 :=
  Nat.div_mul_le_self _ _

theorem lt_scaledTarget_succ_mul {diff : ℕ} (hdiff : 0 < diff) :
    0xFFFF * 2 ^ 80 < (scaledTarget diff + 1) * diff := by
  rw [Nat.mul_comm (scaledTarget diff + 1)]
  exact Nat.lt_mul_div_succ _ hdiff

theorem scaledTarget_pos {diff : ℕ} (hpos : 0 < diff) (hdiff : diff < 2 ^ 64) :
    0 < scaledTarget diff := by
  apply Nat.div_pos _ hpos
  calc
    diff ≤ 2 ^ 64 := Nat.le_of_lt hdiff
    _ ≤ 0xFFFF * 2 ^ 80 := by decide

theorem scaledTarget_antitone {diff diff' : ℕ} (hpos : 0 < diff) (hle : diff ≤ diff') :
    scaledTarget diff' ≤ scaledTarget diff :=
  Nat.div_le_div_left hle hpos

theorem diffToTargetLe_antitone {diff diff' : UInt64} (hdiff : 1 ≤ diff) (hle : diff ≤ diff') :
    targetValue (diffToTargetLe diff') ≤ targetValue (diffToTargetLe diff) := by
  have hscaled := scaledTarget_antitone (toNat_pos hdiff) (UInt64.le_iff_toNat_le.mp hle)
  rw [targetValue_diffToTargetLe hdiff, targetValue_diffToTargetLe (UInt64.le_trans hdiff hle)]
  exact Nat.mul_le_mul_right _ hscaled

/-- The difficulty whose exponent stands in a share body. -/
def claimedDifficulty (diff : UInt64) : UInt64 :=
  2 ^ (floorPot diff).toNat

theorem log2_toNat_lt {diff : UInt64} (hdiff : 1 ≤ diff) : Nat.log2 diff.toNat < 64 :=
  (Nat.log2_lt (Nat.ne_of_gt (toNat_pos hdiff))).mpr diff.toNat_lt

theorem toNat_floorPot {diff : UInt64} (hdiff : 1 ≤ diff) :
    (floorPot diff).toNat = Nat.log2 diff.toNat := by
  have hlog := log2_toNat_lt hdiff
  rw [floorPot, if_neg (Nat.ne_of_gt (toNat_pos hdiff)), UInt8.toNat_ofNat',
    Nat.mod_eq_of_lt (by omega)]

theorem toNat_two_pow {n : ℕ} (hn : n < 64) : ((2 : UInt64) ^ n).toNat = 2 ^ n := by
  induction n with
  | zero => rfl
  | succ n ih =>
      have hlt : 2 ^ n * 2 < 2 ^ 64 := by
        rw [← pow_succ]
        exact Nat.pow_lt_pow_right Nat.one_lt_two hn
      rw [UInt64.pow_succ, UInt64.toNat_mul, ih (by omega), pow_succ]
      exact Nat.mod_eq_of_lt hlt

theorem toNat_claimedDifficulty {diff : UInt64} (hdiff : 1 ≤ diff) :
    (claimedDifficulty diff).toNat = 2 ^ Nat.log2 diff.toNat := by
  have hlog : Nat.log2 diff.toNat < 64 := log2_toNat_lt hdiff
  rw [claimedDifficulty, toNat_floorPot hdiff, toNat_two_pow hlog]

theorem one_le_claimedDifficulty {diff : UInt64} (hdiff : 1 ≤ diff) :
    1 ≤ claimedDifficulty diff := by
  rw [UInt64.le_iff_toNat_le, toNat_claimedDifficulty hdiff]
  exact Nat.one_le_two_pow

theorem claimedDifficulty_le {diff : UInt64} (hdiff : 1 ≤ diff) :
    claimedDifficulty diff ≤ diff := by
  rw [UInt64.le_iff_toNat_le, toNat_claimedDifficulty hdiff]
  exact Nat.log2_self_le (Nat.ne_of_gt (toNat_pos hdiff))

theorem hashMeetsTarget_claimedDifficulty {diff : UInt64} (hdiff : 1 ≤ diff) {hash : Bytes32}
    (hmeets : hashMeetsTarget hash (diffToTargetLe diff) = true) :
    hashMeetsTarget hash (diffToTargetLe (claimedDifficulty diff)) = true := by
  rw [hashMeetsTarget_iff] at hmeets ⊢
  exact Nat.le_trans hmeets
    (diffToTargetLe_antitone (one_le_claimedDifficulty hdiff) (claimedDifficulty_le hdiff))

theorem diffOneTarget_eq : diffOneTarget = 0xFFFF * 2 ^ 80 * 2 ^ 128 := by
  decide

theorem targetValue_mul_le {diff : UInt64} (hdiff : 1 ≤ diff) :
    targetValue (diffToTargetLe diff) * diff.toNat ≤ diffOneTarget := by
  rw [targetValue_diffToTargetLe hdiff, diffOneTarget_eq, Nat.mul_right_comm]
  exact Nat.mul_le_mul_right _ (scaledTarget_mul_le _)

theorem lt_targetValue_add_mul {diff : UInt64} (hdiff : 1 ≤ diff) :
    diffOneTarget < (targetValue (diffToTargetLe diff) + 2 ^ 128) * diff.toNat := by
  have hlt := Nat.mul_lt_mul_of_pos_right
    (lt_scaledTarget_succ_mul (toNat_pos hdiff)) (Nat.two_pow_pos 128)
  have hfactor : scaledTarget diff.toNat * 2 ^ 128 + 2 ^ 128 =
      (scaledTarget diff.toNat + 1) * 2 ^ 128 := (Nat.succ_mul _ _).symm
  rw [targetValue_diffToTargetLe hdiff, diffOneTarget_eq, hfactor,
    Nat.mul_right_comm (scaledTarget diff.toNat + 1)]
  exact hlt

theorem diffToTargetLe_pos {diff : UInt64} (hdiff : 1 ≤ diff) :
    0 < targetValue (diffToTargetLe diff) := by
  rw [targetValue_diffToTargetLe hdiff]
  exact Nat.mul_pos (scaledTarget_pos (toNat_pos hdiff) diff.toNat_lt) (Nat.two_pow_pos 128)

theorem diffToTargetLe_agrees (sha256d : Bytes → Bytes32) (diff : UInt64) (hdiff : 1 ≤ diff) :
    targetValue (diffToTargetLe diff) * diff.toNat ≤ diffOneTarget ∧
      diffOneTarget < (targetValue (diffToTargetLe diff) + 2 ^ 128) * diff.toNat ∧
      targetValue (diffToTargetLe diff) ≠ 0 ∧
      (∀ diff', diff ≤ diff' →
        targetValue (diffToTargetLe diff') ≤ targetValue (diffToTargetLe diff)) ∧
      (∀ hash, hashMeetsTarget hash (diffToTargetLe diff) = true →
        hashMeetsTarget hash (diffToTargetLe (2 ^ (floorPot diff).toNat)) = true) ∧
      ∀ share entry userCfg xprotSeen paddingByte, share.currentDiff = diff →
        hashMeetsTarget (sha256d (shareHeader sha256d share entry.jobMeta))
          (diffToTargetLe diff) = true →
        hashMeetsTarget (sha256d (shareHeader sha256d share entry.jobMeta))
          (diffToTargetLe (2 ^ (statedTargetByte (buildShareSubmission sha256d share entry
            userCfg xprotSeen paddingByte).1.body).toNat)) = true := by
  refine ⟨targetValue_mul_le hdiff, lt_targetValue_add_mul hdiff,
    Nat.ne_of_gt (diffToTargetLe_pos hdiff), ?_, ?_, ?_⟩
  · intro diff' hle
    exact diffToTargetLe_antitone hdiff hle
  · intro hash hmeets
    exact hashMeetsTarget_claimedDifficulty hdiff hmeets
  · rintro share entry userCfg xprotSeen paddingByte rfl hmeets
    rw [statedTargetByte_buildShareSubmission]
    exact hashMeetsTarget_claimedDifficulty hdiff hmeets

theorem diffToTargetLe_agrees_at_three :
    targetValue (diffToTargetLe 3) * 3 ≤ diffOneTarget ∧
      targetValue (diffToTargetLe 3) ≠ 0 := by
  have hagrees := diffToTargetLe_agrees (fun _ => ByteVec.fill 32 0) 3 (by decide)
  exact ⟨hagrees.1, hagrees.2.2.1⟩

end DatumGateway.DifficultyTargets

import DatumGateway.MiningConnection

namespace DatumGateway.ChannelTargets

open DatumGateway.ByteString
open DatumGateway.ChannelManager
open DatumGateway.FloatValues
open DatumGateway.JobTracker
open DatumGateway.MiningConnection
open DatumGateway.MiningListener
open DatumGateway.SharedTemplate
open DatumGateway.ShareEncoder
open DatumGateway.ShareForwarding
open DatumGateway.SharePath
open DatumGateway.TransitionSystem

/-! The order of targets as numbers. -/

def targetValue (target : Bytes32) : ℕ :=
  leValue target.toList

theorem leBytes_targetValue (target : Bytes32) :
    leBytes 32 (targetValue target) = target.toList := by
  have hbytes := leBytes_leValue target.toList
  rw [List.Vector.toList_length] at hbytes
  exact hbytes

theorem targetValue_injective : Function.Injective targetValue := by
  intro target target' hvalue
  apply ByteVec.toList_injective
  rw [← leBytes_targetValue, hvalue, leBytes_targetValue]

theorem add_pow_mul_lt {n a b digit digit' : ℕ} (ha : a < 256 ^ n) (hdigit : digit < digit') :
    a + 256 ^ n * digit < b + 256 ^ n * digit' := by
  calc
    a + 256 ^ n * digit < 256 ^ n * (digit + 1) := by rw [mul_add, mul_one]; omega
    _ ≤ 256 ^ n * digit' := Nat.mul_le_mul_left _ hdigit
    _ ≤ b + 256 ^ n * digit' := Nat.le_add_left _ _

theorem hashMeetsTarget_go_iff (pairs : List (UInt8 × UInt8)) :
    hashMeetsTarget.go pairs = true ↔
      leValue (pairs.map Prod.fst).reverse ≤ leValue (pairs.map Prod.snd).reverse := by
  induction pairs with
  | nil => exact iff_of_true rfl (Nat.le_refl _)
  | cons pair pairs ih =>
      obtain ⟨h, t⟩ := pair
      have hfst := leValue_lt_pow (pairs.map Prod.fst).reverse
      have hsnd := leValue_lt_pow (pairs.map Prod.snd).reverse
      simp only [List.length_reverse, List.length_map] at hfst hsnd
      simp only [hashMeetsTarget.go, List.map_cons, List.reverse_cons, leValue_append, leValue,
        List.length_reverse, List.length_map, mul_zero, add_zero]
      simp only [UInt8.lt_iff_toNat_lt]
      rcases lt_trichotomy h.toNat t.toNat with hlt | heq | hgt
      · rw [if_pos hlt]
        exact iff_of_true rfl (Nat.le_of_lt (add_pow_mul_lt hfst hlt))
      · rw [if_neg (Nat.not_lt_of_le heq.ge), if_neg (Nat.not_lt_of_le heq.le), ih, heq]
        exact (Nat.add_le_add_iff_right).symm
      · rw [if_neg (Nat.not_lt_of_gt hgt), if_pos hgt]
        exact iff_of_false Bool.false_ne_true (Nat.not_le_of_lt (add_pow_mul_lt hsnd hgt))

theorem hashMeetsTarget_iff (hash target : Bytes32) :
    hashMeetsTarget hash target = true ↔ targetValue hash ≤ targetValue target := by
  have hlength : hash.toList.reverse.length = target.toList.reverse.length := by
    simp only [List.length_reverse, List.Vector.toList_length]
  rw [hashMeetsTarget, hashMeetsTarget_go_iff, List.map_fst_zip (Nat.le_of_eq hlength),
    List.map_snd_zip (Nat.le_of_eq hlength.symm), List.reverse_reverse, List.reverse_reverse]
  exact Iff.rfl

theorem clampTarget_go (proposed bound : Bytes32) (pairs : List (UInt8 × UInt8)) :
    clampTarget.go proposed bound pairs =
      if hashMeetsTarget.go pairs then proposed else bound := by
  induction pairs with
  | nil => rfl
  | cons pair pairs ih =>
      obtain ⟨p, b⟩ := pair
      rw [clampTarget.go, hashMeetsTarget.go]
      by_cases hbelow : p < b
      · rw [if_neg (UInt8.not_lt.mpr (UInt8.le_of_lt hbelow)), if_pos hbelow, if_pos hbelow,
          if_pos rfl]
      · rw [if_neg hbelow, if_neg hbelow]
        by_cases habove : b < p
        · rw [if_pos habove, if_pos habove, if_neg Bool.false_ne_true]
        · rw [if_neg habove, if_neg habove]
          exact ih

theorem targetValue_clampTarget (proposed bound : Bytes32) :
    targetValue (clampTarget proposed bound) = min (targetValue proposed) (targetValue bound) := by
  rw [clampTarget, clampTarget_go, ← hashMeetsTarget]
  split_ifs with hmeets
  · exact (Nat.min_eq_left ((hashMeetsTarget_iff _ _).mp hmeets)).symm
  · rw [hashMeetsTarget_iff] at hmeets
    exact (Nat.min_eq_right (by omega)).symm

theorem targetValue_clamp (proposed minTarget : Bytes32) :
    targetValue (clampTargetToMinHashrateLe proposed minTarget) =
      min (targetValue proposed) (targetValue minTarget) :=
  targetValue_clampTarget proposed minTarget

/-- Clamping as taking the smaller one of two numbers, with what follows for the hashes. -/
structure ClampsNumerically (clamp : Bytes32 → Bytes32 → Bytes32) : Prop where
  value : ∀ proposed bound,
    targetValue (clamp proposed bound) = min (targetValue proposed) (targetValue bound)
  self : ∀ target, clamp target target = target
  idempotent : ∀ proposed bound, clamp (clamp proposed bound) bound = clamp proposed bound
  commutative : ∀ proposed bound, clamp proposed bound = clamp bound proposed
  monotone : ∀ proposed proposed' bound bound', targetValue proposed ≤ targetValue proposed' →
    targetValue bound ≤ targetValue bound' →
      targetValue (clamp proposed bound) ≤ targetValue (clamp proposed' bound')
  meets : ∀ hash proposed bound, hashMeetsTarget hash (clamp proposed bound) = true ↔
    hashMeetsTarget hash proposed = true ∧ hashMeetsTarget hash bound = true

theorem ClampsNumerically.of_value {clamp : Bytes32 → Bytes32 → Bytes32}
    (hvalue : ∀ proposed bound,
      targetValue (clamp proposed bound) = min (targetValue proposed) (targetValue bound)) :
    ClampsNumerically clamp where
  value := hvalue
  self target := by
    apply targetValue_injective
    rw [hvalue, min_self]
  idempotent proposed bound := by
    apply targetValue_injective
    rw [hvalue, hvalue, min_assoc, min_self]
  commutative proposed bound := by
    apply targetValue_injective
    rw [hvalue, hvalue, min_comm]
  monotone proposed proposed' bound bound' hproposed hbound := by
    rw [hvalue, hvalue]
    exact min_le_min hproposed hbound
  meets hash proposed bound := by
    rw [hashMeetsTarget_iff, hashMeetsTarget_iff, hashMeetsTarget_iff, hvalue, le_min_iff]

theorem comparisons_numeric :
    (∀ hash target,
      hashMeetsTarget hash target = true ↔ targetValue hash ≤ targetValue target) ∧
    ClampsNumerically clampTargetToMinHashrateLe ∧ ClampsNumerically clampTargetToChannelMax :=
  ⟨hashMeetsTarget_iff, .of_value targetValue_clampTarget, .of_value targetValue_clampTarget⟩

/-! Where targets are set. -/

/-- The connection accepts the hash rate that a channel is updated to. -/
def AcceptsHashRate {σ : Type} (m : Manager σ) (nominalHashRate : FloatValue) : Prop :=
  nominalHashRate.isFinite = true ∧ nominalHashRate.atMost 0 = false ∧
    nominalHashRate.lt m.minHashrateThreshold = false

theorem handleUpdateChannel_eq_setTarget_iff {σ : Type} {m : Manager σ} {msg : UpdateChannel}
    {channelId : UInt32} {target : Bytes32} :
    handleUpdateChannel msg m.minHashrateThreshold m.minTargetLe = .setTarget channelId target ↔
      AcceptsHashRate m msg.nominalHashRate ∧ msg.channelId = channelId ∧
        ∃ requested, ByteVec.ofBytes? 32 msg.maximumTarget = some requested ∧
          clampTargetToMinHashrateLe requested m.minTargetLe = target := by
  unfold handleUpdateChannel
  split_ifs with hrefused
  · simp only [false_iff]
    rintro ⟨⟨hfinite, hzero, hbelow⟩, -⟩
    rw [hfinite, hzero, hbelow] at hrefused
    cases hrefused
  · simp only [Bool.or_eq_true, not_or, Bool.not_eq_true, Bool.not_eq_false'] at hrefused
    obtain ⟨⟨hfinite, hzero⟩, hbelow⟩ := hrefused
    have haccepts : AcceptsHashRate m msg.nominalHashRate := ⟨hfinite, hzero, hbelow⟩
    cases ByteVec.ofBytes? 32 msg.maximumTarget with
    | none => simp
    | some requested => simp [haccepts]

section Runs

variable (sha256d : Bytes → Bytes32) {σ α : Type} (alloc : ExtranonceAllocator σ)
variable (acc : ShareAccounting α) (userCfg : ShareUserConfig) (blockFound : Bool)

/-- Each target set in a step answers a request, is for an open channel, is within both bounds
and is what is held of the channel after the step. -/
def TargetsHeld (conn : Connection σ α) (a : ConnectionAction) (next : Connection σ α) : Prop :=
  ∀ channelId target,
    .wrote (.setTarget channelId target) ∈ next.events.drop conn.events.length →
      ∃ msg around requested channel, a = .frame (.updateChannel msg) around ∧
        msg.channelId = channelId ∧ ByteVec.ofBytes? 32 msg.maximumTarget = some requested ∧
        next.manager.channels.lookup channelId = some channel ∧
        targetValue target ≤ targetValue requested ∧
        targetValue target ≤ targetValue next.manager.minTargetLe ∧
        target = channel.maxTargetLe

/-- An update of a channel that is not refused is for an open channel of which the smaller one of
the requested target and the least target is held already. -/
def TargetKnown (conn : Connection σ α) : ConnectionAction → Prop
  | .frame (.updateChannel msg) _ =>
      AcceptsHashRate conn.manager msg.nominalHashRate →
        ∀ requested, ByteVec.ofBytes? 32 msg.maximumTarget = some requested →
          ∃ channel, conn.manager.channels.lookup msg.channelId = some channel ∧
            targetValue channel.maxTargetLe =
              min (targetValue requested) (targetValue conn.manager.minTargetLe)
  | _ => True

theorem targetsHeld_of_none {conn next : Connection σ α} {a : ConnectionAction}
    {new : List ConnectionEvent} (hevents : next.events = conn.events ++ new)
    (hnew : ∀ channelId target, .wrote (.setTarget channelId target) ∉ new) :
    TargetsHeld conn a next := by
  intro channelId target hmem
  rw [hevents, List.drop_left] at hmem
  exact absurd hmem (hnew channelId target)

theorem setTarget_not_mem_map_wrote {outs : List MiningOut} (houts : outs.all isStreamFrame = true)
    (channelId : UInt32) (target : Bytes32) :
    .wrote (.setTarget channelId target) ∉ outs.map ConnectionEvent.wrote := by
  intro hmem
  obtain ⟨out, hout, heq⟩ := List.mem_map.mp hmem
  obtain rfl := ConnectionEvent.wrote.inj heq
  exact Bool.false_ne_true (List.all_eq_true.mp houts _ hout)

theorem setTarget_not_mem_submitted (conn : Connection σ α) (around : Readings) (s : Submission)
    (channelId : UInt32) (target : Bytes32) :
    .wrote (.setTarget channelId target) ∉
      (submitted sha256d acc userCfg blockFound conn around s).1 := by
  intro hmem
  rcases mem_events_forwardShareOutcome acc blockFound hmem with h | h | ⟨_, h⟩
  · cases h
  · cases h
  · cases h

theorem targetsHeld_updated_iff (conn : Connection σ α) (msg : UpdateChannel)
    (around : Readings) :
    TargetsHeld conn (.frame (.updateChannel msg) around)
        { conn with
          events := conn.events ++ [.wrote (handleUpdateChannel msg
            conn.manager.minHashrateThreshold conn.manager.minTargetLe)] } ↔
      TargetKnown conn (.frame (.updateChannel msg) around) := by
  simp only [TargetsHeld, List.drop_left, List.mem_singleton, ConnectionEvent.wrote.injEq,
    eq_comm (b := handleUpdateChannel _ _ _), handleUpdateChannel_eq_setTarget_iff]
  constructor
  · intro hheld haccepts requested hrequested
    obtain ⟨_, _, _, channel, -, -, -, hchannel, -, -, htarget⟩ :=
      hheld msg.channelId _ ⟨haccepts, rfl, requested, hrequested, rfl⟩
    exact ⟨channel, hchannel, by rw [← htarget, targetValue_clamp]⟩
  · rintro hknown channelId target ⟨haccepts, rfl, requested, hrequested, rfl⟩
    obtain ⟨channel, hchannel, hheld⟩ := hknown haccepts requested hrequested
    rw [← targetValue_clamp] at hheld
    refine ⟨msg, around, requested, channel, rfl, rfl, hrequested, hchannel, ?_, ?_,
      (targetValue_injective hheld).symm⟩
    · rw [targetValue_clamp]
      exact Nat.min_le_left _ _
    · rw [targetValue_clamp]
      exact Nat.min_le_right _ _

theorem targetsHeld_step_iff {conn next : Connection σ α} {a : ConnectionAction}
    (hstep : connectionStep sha256d alloc acc userCfg blockFound conn a = some next) :
    TargetsHeld conn a next ↔ TargetKnown conn a := by
  cases connectionStep_cases sha256d alloc acc userCfg blockFound hstep with
  | opened kind msg around opened hopened =>
      subst hopened
      exact iff_of_true (targetsHeld_of_none rfl (setTarget_not_mem_map_wrote
        (isStreamFrame_openChannel sha256d alloc kind _ _ msg))) trivial
  | closed => exact iff_of_true (targetsHeld_of_none (List.append_nil _).symm (by simp)) trivial
  | updated msg around => exact targetsHeld_updated_iff conn msg around
  | submitted s around answer hanswer =>
      subst hanswer
      exact iff_of_true (targetsHeld_of_none rfl
        (setTarget_not_mem_submitted sha256d acc userCfg blockFound conn around s)) trivial
  | customJobRefused channelId requestId =>
      exact iff_of_true (targetsHeld_of_none rfl (by simp [handleSetCustomMiningJob])) trivial
  | templateChanged template ids updated hupdated =>
      subst hupdated
      exact iff_of_true (targetsHeld_of_none rfl (setTarget_not_mem_map_wrote
        (isStreamFrame_onTemplateUpdate sha256d template _ ids))) trivial
  | trackerChanged =>
      exact iff_of_true (targetsHeld_of_none (List.append_nil _).symm (by simp)) trivial

/-- The targets that a connection sets are right exactly if it knew each of them already. -/
theorem targetsHeld_iff_known (conn : Connection σ α) (actions : List ConnectionAction) :
    EveryStep (connectionStep sha256d alloc acc userCfg blockFound) TargetsHeld conn actions ↔
      Guarded (connectionStep sha256d alloc acc userCfg blockFound) TargetKnown conn actions := by
  refine everyStep_iff_guarded ?_ conn actions
  intro conn a next hstep
  exact targetsHeld_step_iff sha256d alloc acc userCfg blockFound hstep

end Runs

def strayUpdate : UpdateChannel where
  channelId := 7
  nominalHashRate := .finite 1
  maximumTarget := List.replicate 32 255

/-- A target is set for a channel that was never opened. -/
theorem target_set_for_unopened_channel :
    let hash : Bytes → Bytes32 := fun _ => ByteVec.fill 32 0
    let conn : Connection ℕ Unit :=
      { manager := emptyManager, accounting := (), tracker := {}, events := [] }
    let around : Readings :=
      { templateRx := none, seedTemplate := none, paddingByte := 0, upstreamOpen := true }
    ¬ EveryStep (connectionStep hash countingAllocator plainAccounting
      { poolAddress := "pool", passFullUsers := false, passWorkers := false } false) TargetsHeld
      conn [.frame (.updateChannel strayUpdate) around] := by
  intro hash conn around hevery
  obtain ⟨hheld, -⟩ := hevery _ rfl
  obtain ⟨_, _, _, channel, -, -, -, hchannel, -⟩ :=
    hheld 7 (ByteVec.fill 32 255) (by decide +kernel)
  cases hchannel

end DatumGateway.ChannelTargets

import DatumGateway.StratumV1Messages

namespace DatumGateway.VardiffControllers

open DatumGateway.ByteString
open DatumGateway.EmitSnapshots
open DatumGateway.ShareEncoder
open DatumGateway.StratumV1Connection
open DatumGateway.StratumV1Messages
open DatumGateway.TransitionSystem

structure VardiffState where
  params : VardiffParams
  currentDiff : UInt64
  sharesSinceSnap : UInt32

namespace VardiffState

def new (params : VardiffParams) (initialDiff : UInt64) : VardiffState where
  params
  currentDiff := max initialDiff params.min
  sharesSinceSnap := 0

def recordShare (s : VardiffState) : VardiffState :=
  { s with sharesSinceSnap := max s.sharesSinceSnap (s.sharesSinceSnap + 1) }

/-- The difficulty that `maybeStep` goes to, `elapsedSecs` after the last snapshot. -/
def stepDiff (s : VardiffState) (elapsedSecs : ℕ) : UInt64 :=
  let target := s.params.targetSharesMin.toNat
  let windowSecs := max elapsedSecs 1
  let expected := max ((target * windowSecs % 2 ^ 64 + 59) / 60) 1
  let observed := s.sharesSinceSnap.toNat
  let newDiff :=
    if 16 ≤ observed ∧ min (expected * 2) (2 ^ 64 - 1) < observed then
      min (UInt64.ofNat (min (s.currentDiff.toNat * 2) (2 ^ 64 - 1))) s.params.max
    else if min (observed * 2) (2 ^ 64 - 1) < expected ∧
        s.params.recheckSecs.toNat ≤ elapsedSecs then
      max (s.currentDiff / 2) s.params.min
    else s.currentDiff
  if newDiff < s.params.min then s.params.min else newDiff

def maybeStep (s : VardiffState) (elapsedSecs : ℕ) : Option UInt64 × VardiffState :=
  let newDiff := s.stepDiff elapsedSecs
  if newDiff != s.currentDiff then
    (some newDiff, { s with currentDiff := newDiff, sharesSinceSnap := 0 })
  else (none, { s with sharesSinceSnap := 0 })

theorem maybeStep_fst (s : VardiffState) (elapsedSecs : ℕ) :
    (s.maybeStep elapsedSecs).1 =
      if s.stepDiff elapsedSecs != s.currentDiff then some (s.stepDiff elapsedSecs) else none := by
  rw [maybeStep]
  split_ifs
  · rfl
  · rfl

theorem maybeStep_snd (s : VardiffState) (elapsedSecs : ℕ) :
    (s.maybeStep elapsedSecs).2 =
      { s with currentDiff := s.stepDiff elapsedSecs, sharesSinceSnap := 0 } := by
  rw [maybeStep]
  split_ifs with hchange
  · rfl
  · have hsame : s.stepDiff elapsedSecs = s.currentDiff := by simpa using hchange
    rw [hsame]

end VardiffState

/-! The same controller in a Stratum V1 connection. -/

/-- What the timer of a connection works with. -/
def controller (s : ConnectionState) : VardiffState where
  params := s.vardiff
  currentDiff := s.conn.currentDiff
  sharesSinceSnap := s.sharesSinceSnap

theorem max_eq_ite (m n : UInt64) : max m n = if m < n then n else m := by
  change (if m ≤ n then n else m) = _
  split_ifs with hle hlt hlt
  · rfl
  · exact UInt64.le_antisymm (UInt64.not_lt.mp hlt) hle
  · exact absurd (UInt64.le_of_lt hlt) hle
  · rfl

theorem floor_of_poolMin_le {s : ConnectionState} (hpoolMin : s.poolMin ≤ s.vardiff.min) :
    s.floor = s.vardiff.min := by
  rw [ConnectionState.floor, max_eq_ite, if_neg (UInt64.not_lt.mpr hpoolMin)]

theorem newDiff_eq_stepDiff {s : ConnectionState} (hpoolMin : s.poolMin ≤ s.vardiff.min)
    (elapsedSecs : ℕ) : s.newDiff elapsedSecs = (controller s).stepDiff elapsedSecs := by
  have hexpected : ∀ product : ℕ,
      min (max ((product % 2 ^ 64 + 59) / 60) 1 * 2) (2 ^ 64 - 1) =
        max ((product % 2 ^ 64 + 59) / 60) 1 * 2 := by
    intro product
    omega
  have hobserved : min (s.sharesSinceSnap.toNat * 2) (2 ^ 64 - 1) = s.sharesSinceSnap.toNat * 2 :=
    Nat.min_eq_left (by have := s.sharesSinceSnap.toNat_lt; omega)
  rw [ConnectionState.newDiff, floor_of_poolMin_le hpoolMin, max_eq_ite]
  simp only [VardiffState.stepDiff, controller, retarget, hexpected, hobserved]
  rfl

theorem controller_changeDiff (s : ConnectionState) (newDiff : UInt64) :
    controller { s.changeDiff newDiff with sharesSinceSnap := 0 } =
      { params := s.vardiff, currentDiff := newDiff, sharesSinceSnap := 0 } := by
  obtain ⟨-, -, hdiff, hvardiff, -⟩ := sameView_changeDiff s newDiff
  simp only [controller, hdiff, hvardiff]

theorem diffTimer_of_maybeStep (sha256d : Bytes → Bytes32) (userCfg : ShareUserConfig)
    {l : MinerLink} (hsubscribed : l.state.conn.subscribed = true)
    (hpoolMin : l.state.poolMin ≤ l.state.vardiff.min) (elapsedSecs : ℕ) :
    ∃ t, linkStep sha256d userCfg l (.diffTimer elapsedSecs) = some t ∧
      controller t.state = ((controller l.state).maybeStep elapsedSecs).2 ∧
      t.written = l.written ++ match ((controller l.state).maybeStep elapsedSecs).1 with
        | some diff => changeDiffMessages l.state diff
        | none => [] := by
  have hcurrent : (controller l.state).currentDiff = l.state.conn.currentDiff := rfl
  refine ⟨_, rfl, ?_⟩
  dsimp only [messages]
  rw [newDiff_eq_stepDiff hpoolMin, hsubscribed, Bool.and_true, VardiffState.maybeStep_fst,
    VardiffState.maybeStep_snd, hcurrent]
  split_ifs with hchange
  · exact ⟨controller_changeDiff l.state _, rfl⟩
  · have hsame : (controller l.state).stepDiff elapsedSecs = l.state.conn.currentDiff := by
      simpa using hchange
    rw [hsame]
    exact ⟨rfl, rfl⟩

/-! The range of the difficulty. -/

theorem toNat_max (m n : UInt64) : (max m n).toNat = max m.toNat n.toNat := by
  rw [max_eq_ite]
  split_ifs with hlt
  · exact (Nat.max_eq_right (Nat.le_of_lt (UInt64.lt_iff_toNat_lt.mp hlt))).symm
  · exact (Nat.max_eq_left (Nat.le_of_not_lt hlt)).symm

theorem toNat_min (m n : UInt64) : (min m n).toNat = min m.toNat n.toNat := by
  change (if m ≤ n then m else n).toNat = _
  split_ifs with hle
  · exact (Nat.min_eq_left hle).symm
  · exact (Nat.min_eq_right (Nat.le_of_not_le hle)).symm

/-- The difficulty is one that the parameters allow. -/
def InRange (params : VardiffParams) (diff : UInt64) : Prop :=
  params.min ≤ diff ∧ diff ≤ params.max

/-- A step at most halves or doubles the difficulty. -/
def Bounded (diff diff' : UInt64) : Prop :=
  diff.toNat / 2 ≤ diff'.toNat ∧ diff'.toNat ≤ 2 * diff.toNat

theorem Bounded.refl (diff : UInt64) : Bounded diff diff := by
  constructor
  · exact Nat.div_le_self _ _
  · omega

theorem stepDiff_of_inRange {s : VardiffState} (hrange : InRange s.params s.currentDiff)
    (elapsedSecs : ℕ) :
    InRange s.params (s.stepDiff elapsedSecs) ∧
      Bounded s.currentDiff (s.stepDiff elapsedSecs) := by
  obtain ⟨hmin, hmax⟩ := hrange
  rw [UInt64.le_iff_toNat_le] at hmin hmax
  have hlt := s.currentDiff.toNat_lt
  have hdouble : (UInt64.ofNat (min (s.currentDiff.toNat * 2) (2 ^ 64 - 1))).toNat =
      min (s.currentDiff.toNat * 2) (2 ^ 64 - 1) :=
    UInt64.toNat_ofNat_of_lt' (Nat.lt_of_le_of_lt (Nat.min_le_right _ _) (by decide))
  have hhalf : (s.currentDiff / 2).toNat = s.currentDiff.toNat / 2 := UInt64.toNat_div _ _
  rw [InRange, Bounded, UInt64.le_iff_toNat_le, UInt64.le_iff_toNat_le]
  simp only [VardiffState.stepDiff, ← max_eq_ite, toNat_max]
  split_ifs
  · rw [toNat_min, hdouble]
    omega
  · rw [toNat_max, hhalf]
    omega
  · omega

/-! Runs of the controller. -/

inductive VardiffAction where
  | recordShare
  | maybeStep (elapsedSecs : ℕ)

def vardiffStep (s : VardiffState) : VardiffAction → VardiffState
  | .recordShare => s.recordShare
  | .maybeStep elapsedSecs => (s.maybeStep elapsedSecs).2

theorem vardiffStep_of_inRange {s : VardiffState} (hrange : InRange s.params s.currentDiff)
    (a : VardiffAction) :
    (vardiffStep s a).params = s.params ∧ InRange s.params (vardiffStep s a).currentDiff ∧
      Bounded s.currentDiff (vardiffStep s a).currentDiff := by
  cases a with
  | recordShare => exact ⟨rfl, hrange, Bounded.refl _⟩
  | maybeStep elapsedSecs =>
      rw [vardiffStep, VardiffState.maybeStep_snd]
      exact ⟨rfl, stepDiff_of_inRange hrange elapsedSecs⟩

theorem foldl_vardiffStep_of_inRange {s : VardiffState} (hrange : InRange s.params s.currentDiff)
    (actions : List VardiffAction) :
    (actions.foldl vardiffStep s).params = s.params ∧
      InRange s.params (actions.foldl vardiffStep s).currentDiff := by
  induction actions generalizing s with
  | nil => exact ⟨rfl, hrange⟩
  | cons a actions ih =>
      obtain ⟨hparams, hnext, -⟩ := vardiffStep_of_inRange hrange a
      rw [← hparams] at hnext ⊢
      exact ih hnext

/-! Runs of a connection. -/

/-- The pool does not ask for more than the parameters do. -/
def KeepsPoolMin (s : ConnectionState) : ConnectionAction → Prop
  | .setPoolMin poolMin => poolMin ≤ s.vardiff.min
  | _ => True

structure WithinParams (params : VardiffParams) (s : ConnectionState) : Prop where
  vardiff : s.vardiff = params
  poolMin : s.poolMin ≤ params.min
  currentDiff : InRange params s.conn.currentDiff

theorem WithinParams.of_sameView {params : VardiffParams} {s t : ConnectionState}
    (hwithin : WithinParams params s) (hview : SameView s t) : WithinParams params t := by
  obtain ⟨-, -, hdiff, hvardiff, -, -, hpoolMin⟩ := hview
  refine ⟨hvardiff.trans hwithin.vardiff, ?_, ?_⟩
  · rw [hpoolMin]
    exact hwithin.poolMin
  · rw [hdiff]
    exact hwithin.currentDiff

theorem WithinParams.sendPending {params : VardiffParams} {s : ConnectionState}
    (hwithin : WithinParams params s) :
    WithinParams params s.sendPending ∧
      Bounded s.conn.currentDiff s.sendPending.conn.currentDiff := by
  have hview := sameView_sendPending s
  refine ⟨hwithin.of_sameView hview, ?_⟩
  rw [hview.currentDiff]
  exact Bounded.refl _

theorem WithinParams.changeDiff {params : VardiffParams} {s : ConnectionState}
    (hwithin : WithinParams params s) {newDiff : UInt64} (hnewDiff : InRange params newDiff) :
    WithinParams params (s.changeDiff newDiff) ∧
      (s.changeDiff newDiff).conn.currentDiff = newDiff := by
  have hview := sameView_changeDiff s newDiff
  have hchanged : WithinParams params
      { s with conn := { s.conn with currentDiff := newDiff } } :=
    ⟨hwithin.vardiff, hwithin.poolMin, hnewDiff⟩
  exact ⟨hchanged.of_sameView hview, hview.currentDiff⟩

theorem WithinParams.step {sha256d : Bytes → Bytes32} {userCfg : ShareUserConfig}
    {params : VardiffParams} {s t : ConnectionState} {a : ConnectionAction}
    (hwithin : WithinParams params s) (hguard : KeepsPoolMin s a)
    (hstep : connectionStep sha256d userCfg s a = some t) :
    WithinParams params t ∧ Bounded s.conn.currentDiff t.conn.currentDiff := by
  obtain ⟨rfl, hpoolMin, hrange⟩ := hwithin
  cases connectionStep_cases hstep with
  | configureIgnored | configured | subscribed | submitRefused | submitted | published
  | jobHeld | poolMinKept | diffKept | relayRefused | relayed =>
      exact ⟨⟨rfl, hpoolMin, hrange⟩, Bounded.refl _⟩
  | poolMinSet => exact ⟨⟨rfl, hguard, hrange⟩, Bounded.refl _⟩
  | authorized name =>
      exact WithinParams.sendPending (s := { s with
        conn := { s.conn with
          authorized := true
          authorizedUsername := name.getD s.conn.authorizedUsername } })
        ⟨rfl, hpoolMin, hrange⟩
  | jobSent =>
      exact WithinParams.sendPending (s := { s with notifyUnseen := false })
        ⟨rfl, hpoolMin, hrange⟩
  | poolMinRaised _ hraise =>
      rw [floor_of_poolMin_le hpoolMin] at hraise
      have hbelow := of_decide_eq_true (Bool.and_eq_true_iff.mp hraise).1
      exact absurd hrange.1 (UInt64.not_le.mpr hbelow)
  | diffChanged elapsedSecs =>
      obtain ⟨hnext, hbounded⟩ := stepDiff_of_inRange (s := controller s) hrange elapsedSecs
      rw [newDiff_eq_stepDiff hpoolMin]
      obtain ⟨⟨hvardiff, hkept, hinRange⟩, hdiff⟩ :=
        WithinParams.changeDiff ⟨rfl, hpoolMin, hrange⟩ hnext
      refine ⟨⟨hvardiff, hkept, hinRange⟩, ?_⟩
      dsimp only
      rw [hdiff]
      exact hbounded

theorem WithinParams.reaches {sha256d : Bytes → Bytes32} {userCfg : ShareUserConfig}
    {params : VardiffParams} {s t : ConnectionState} (hwithin : WithinParams params s)
    (hreaches : Reaches (connectionStep sha256d userCfg) KeepsPoolMin s t) :
    WithinParams params t :=
  hreaches.invariant hwithin fun _ _ _ hinv hguard hstep => (hinv.step hguard hstep).1

theorem same_controller (sha256d : Bytes → Bytes32) (userCfg : ShareUserConfig) :
    (∀ (l : MinerLink) (elapsedSecs : ℕ), l.state.conn.subscribed = true →
      l.state.poolMin ≤ l.state.vardiff.min →
        ∃ t, linkStep sha256d userCfg l (.diffTimer elapsedSecs) = some t ∧
          controller t.state = ((controller l.state).maybeStep elapsedSecs).2 ∧
          t.written = l.written ++ match ((controller l.state).maybeStep elapsedSecs).1 with
            | some diff => changeDiffMessages l.state diff
            | none => []) ∧
      (∀ (params : VardiffParams) (initialDiff : UInt64) (actions : List VardiffAction),
        InRange params initialDiff →
          let s := actions.foldl vardiffStep (VardiffState.new params initialDiff)
          InRange params s.currentDiff ∧
            ∀ a, Bounded s.currentDiff (vardiffStep s a).currentDiff) ∧
      ∀ s t : ConnectionState, s.poolMin ≤ s.vardiff.min →
        InRange s.vardiff s.conn.currentDiff →
        Reaches (connectionStep sha256d userCfg) KeepsPoolMin s t →
          InRange s.vardiff t.conn.currentDiff ∧
            ∀ a u, KeepsPoolMin t a → connectionStep sha256d userCfg t a = some u →
              Bounded t.conn.currentDiff u.conn.currentDiff := by
  refine ⟨?_, ?_, ?_⟩
  · intro l elapsedSecs hsubscribed hpoolMin
    exact diffTimer_of_maybeStep sha256d userCfg hsubscribed hpoolMin elapsedSecs
  · intro params initialDiff actions hrange s
    have hnew : (VardiffState.new params initialDiff).currentDiff = initialDiff := by
      rw [VardiffState.new, max_eq_ite, if_neg (UInt64.not_lt.mpr hrange.1)]
    rw [← hnew] at hrange
    obtain ⟨hparams, hend⟩ := foldl_vardiffStep_of_inRange
      (s := VardiffState.new params initialDiff) hrange actions
    refine ⟨hend, fun a => ?_⟩
    have hend' : InRange s.params s.currentDiff := hparams ▸ hend
    exact (vardiffStep_of_inRange hend' a).2.2
  · intro s t hpoolMin hrange hreaches
    have hwithin : WithinParams s.vardiff t :=
      WithinParams.reaches ⟨rfl, hpoolMin, hrange⟩ hreaches
    refine ⟨hwithin.currentDiff, fun a u hguard hstep => ?_⟩
    exact (hwithin.step hguard hstep).2

theorem same_controller_doubles :
    let params : VardiffParams :=
      { min := 1, targetSharesMin := 6, recheckSecs := 30, max := 2 ^ 40 }
    let actions := List.replicate 16 VardiffAction.recordShare
    let s := actions.foldl vardiffStep (VardiffState.new params 1024)
    Bounded s.currentDiff (vardiffStep s (.maybeStep 60)).currentDiff ∧
      (s.maybeStep 60).1 = some 2048 := by
  intro params actions s
  have hruns := (same_controller (fun _ => ByteVec.fill 32 0) plainUser).2.1 params 1024 actions
    ⟨by decide, by decide⟩
  exact ⟨hruns.2 (.maybeStep 60), by decide⟩

end DatumGateway.VardiffControllers

import DatumGateway.EmitSnapshots
import DatumGateway.StratumV1Connection
import DatumGateway.TransitionSystem
import DatumGateway.UpstreamMessages

namespace DatumGateway.VersionRolling

open DatumGateway.BlockTemplate
open DatumGateway.ByteString
open DatumGateway.EmitSnapshots
open DatumGateway.JobTracker
open DatumGateway.ShareEncoder
open DatumGateway.ShareRelay
open DatumGateway.SharedTemplate
open DatumGateway.StratumV1Assembler
open DatumGateway.StratumV1Connection
open DatumGateway.StratumV1Server
open DatumGateway.TransitionSystem
open DatumGateway.UpstreamMessages

/-- The version of the header that the miner hashes: its own bits where the mask allows it. -/
def hashedVersion (jobVersion mask versionBits : UInt32) : UInt32 :=
  (jobVersion &&& ~~~mask) ||| (versionBits &&& mask)

def headerVersion (header : Bytes) : UInt32 :=
  wordAt header 0

/-- The version bits of a submission, if it has them. -/
def submittedBits (params : List (Option String)) : Option UInt32 :=
  (parseSubmitParams params).bind ParsedSubmit.versionRollingRaw

/-- The mask in force after a line of the miner. -/
def negotiate (mask : Option UInt32) : ConnectionAction → Option UInt32
  | .configure names requestedMask => (negotiatedMask names requestedMask).or mask
  | _ => mask

def negotiated (actions : List ConnectionAction) : Option UInt32 :=
  actions.foldl negotiate none

theorem or_eq_hashedVersion_iff (jobVersion mask versionBits : UInt32) :
    jobVersion ||| (versionBits &&& mask) = hashedVersion jobVersion mask versionBits ↔
      jobVersion &&& mask &&& ~~~versionBits = 0 := by
  simp only [hashedVersion, ← UInt32.toBitVec_inj, UInt32.toBitVec_or, UInt32.toBitVec_and,
    UInt32.toBitVec_not, UInt32.toBitVec_zero]
  constructor
  · intro heq
    ext i hi
    have hbit := congrArg (fun w : BitVec 32 => w[i]) heq
    simp only [BitVec.getElem_or, BitVec.getElem_and, BitVec.getElem_not,
      BitVec.getElem_zero] at hbit ⊢
    grind
  · intro hnone
    ext i hi
    have hbit := congrArg (fun w : BitVec 32 => w[i]) hnone
    simp only [BitVec.getElem_or, BitVec.getElem_and, BitVec.getElem_not,
      BitVec.getElem_zero] at hbit ⊢
    grind

/-! The negotiation. -/

/-- The connection rolls versions with the mask, or not at all. -/
def Rolls (s : ConnectionState) (mask : Option UInt32) : Prop :=
  s.conn.versionRollingEnabled = mask.isSome ∧ ∀ m, mask = some m → s.conn.versionRollingMask = m

theorem Rolls.of_conn {s t : ConnectionState} {mask : Option UInt32} (hrolls : Rolls s mask)
    (henabled : t.conn.versionRollingEnabled = s.conn.versionRollingEnabled)
    (hmask : t.conn.versionRollingMask = s.conn.versionRollingMask) : Rolls t mask := by
  rw [Rolls, henabled, hmask]
  exact hrolls

theorem Rolls.sendPending {s : ConnectionState} {mask : Option UInt32} (hrolls : Rolls s mask) :
    Rolls s.sendPending mask := by
  rw [ConnectionState.sendPending]
  split
  · exact hrolls
  · exact hrolls

theorem Rolls.changeDiff {s : ConnectionState} {mask : Option UInt32} (hrolls : Rolls s mask)
    (newDiff : UInt64) : Rolls (s.changeDiff newDiff) mask := by
  rw [ConnectionState.changeDiff]
  dsimp only
  split_ifs
  · exact Rolls.sendPending (hrolls.of_conn rfl rfl)
  · exact hrolls

section Steps

variable {sha256d : Bytes → Bytes32} {userCfg : ShareUserConfig}

theorem Rolls.step {s t : ConnectionState} {mask : Option UInt32} (hrolls : Rolls s mask)
    {a : ConnectionAction} (hstep : connectionStep sha256d userCfg s a = some t) :
    Rolls t (negotiate mask a) := by
  cases connectionStep_cases hstep with
  | configureIgnored names requestedMask hnone =>
      rw [negotiate, hnone]
      exact hrolls
  | configured names requestedMask m hmask =>
      rw [negotiate, hmask]
      exact ⟨rfl, fun _ => Option.some.inj⟩
  | authorized name => exact Rolls.sendPending (hrolls.of_conn rfl rfl)
  | jobSent => exact Rolls.sendPending (hrolls.of_conn rfl rfl)
  | poolMinRaised =>
      exact Rolls.changeDiff (s := { s with poolMinUnseen := false }) (hrolls.of_conn rfl rfl) _
  | diffChanged => exact (hrolls.changeDiff _).of_conn rfl rfl
  | _ => exact hrolls

/-- A connection rolls versions with the mask that its last negotiation gave it. -/
theorem Rolls.runActions {s t : ConnectionState} {mask : Option UInt32} (hrolls : Rolls s mask)
    {actions : List ConnectionAction}
    (hrun : runActions (connectionStep sha256d userCfg) s actions = some t) :
    Rolls t (actions.foldl negotiate mask) := by
  induction actions generalizing s mask with
  | nil =>
      obtain rfl := Option.some.inj hrun
      exact hrolls
  | cons a actions ih =>
      rw [TransitionSystem.runActions, List.foldlM_cons, Option.bind_eq_bind,
        Option.bind_eq_some_iff] at hrun
      obtain ⟨u, hu, hrest⟩ := hrun
      exact ih (hrolls.step hu) hrest

end Steps

/-! The submission. -/

theorem rolledVersion_eq_some {conn : MinerConnection}
    (henabled : conn.versionRollingEnabled = true) {raw : Option UInt32} {versionRolling : UInt32}
    (hrolled : rolledVersion conn raw = some versionRolling) :
    ∃ versionBits, raw = some versionBits ∧ versionBits &&& ~~~conn.versionRollingMask = 0 ∧
      versionRolling = versionBits &&& conn.versionRollingMask := by
  unfold rolledVersion at hrolled
  rw [if_pos henabled] at hrolled
  cases raw with
  | none => cases hrolled
  | some versionBits =>
      obtain ⟨hallowed, hrolled⟩ := Option.ite_none_right_eq_some.mp hrolled
      exact ⟨versionBits, rfl, hallowed, (Option.some.inj hrolled).symm⟩

theorem submit_rolled {conn : MinerConnection} (henabled : conn.versionRollingEnabled = true)
    {params : List (Option String)} {share : SubmittedShare}
    (hsubmit : submit conn params = .ok share) :
    ∃ versionBits, submittedBits params = some versionBits ∧
      versionBits &&& ~~~conn.versionRollingMask = 0 ∧
      share.versionRolling = versionBits &&& conn.versionRollingMask := by
  rw [submit] at hsubmit
  split_ifs at hsubmit
  split at hsubmit
  · cases hsubmit
  · rename_i s hparsed
    split at hsubmit
    · cases hsubmit
    · rename_i versionRolling hrolled
      obtain rfl := Except.ok.inj hsubmit
      obtain ⟨versionBits, hraw, hallowed, hbits⟩ := rolledVersion_eq_some henabled hrolled
      exact ⟨versionBits, by rw [submittedBits, hparsed, Option.bind_some, hraw], hallowed, hbits⟩

theorem version_of_relayedWith {tracker : Tracker} {share : SubmittedShare} {entry : JobEntry}
    {inputs : SubmittedShareInputs} (hrelayed : relayedWith tracker share = some (entry, inputs)) :
    inputs.version = entry.jobMeta.version ||| share.versionRolling := by
  simp only [relayedWith, sv1ShareToInputs, Option.bind_eq_bind, Option.bind_eq_some_iff,
    Option.pure_def, Option.some.injEq, Prod.mk.injEq] at hrelayed
  obtain ⟨_, _, inputs', ⟨_, -, _, -, _, -, rfl⟩, rfl, rfl⟩ := hrelayed
  rfl

theorem headerVersion_shareHeader (sha256d : Bytes → Bytes32) (inputs : SubmittedShareInputs)
    (jobMeta : JobMeta) : headerVersion (shareHeader sha256d inputs jobMeta) = inputs.version := by
  have hword := fun rest => wordAt_append [] inputs.version rest (i := 0) rfl
  simpa [headerVersion, shareHeader, headerBytes] using hword _

/-- On a connection that negotiated a mask, a submission that gets to the relay has no bits outside
of it, and the header has the version that the miner hashed exactly if the job sets no bit of the
mask that the miner leaves out. -/
theorem relayed_version_iff (sha256d : Bytes → Bytes32) (userCfg : ShareUserConfig)
    (vardiff : VardiffParams) (xn1 : UInt32) (notify : Option NotifyJob) (notifyUnseen : Bool)
    (poolMin : UInt64) (poolMinUnseen : Bool) (actions : List ConnectionAction)
    (t : ConnectionState)
    (hrun : runActions (connectionStep sha256d userCfg)
      (handleConnection vardiff xn1 notify notifyUnseen poolMin poolMinUnseen) actions = some t)
    (mask : UInt32) (hmask : negotiated actions = some mask) (params : List (Option String))
    (share : SubmittedShare) (hsubmit : submit t.conn params = .ok share) (tracker : Tracker)
    (entry : JobEntry) (inputs : SubmittedShareInputs)
    (hrelayed : relayedWith tracker share = some (entry, inputs)) :
    ∃ versionBits, submittedBits params = some versionBits ∧ versionBits &&& ~~~mask = 0 ∧
      (headerVersion (shareHeader sha256d inputs entry.jobMeta) =
          hashedVersion entry.jobMeta.version mask versionBits ↔
        entry.jobMeta.version &&& mask &&& ~~~versionBits = 0) := by
  have hrolls : Rolls (handleConnection vardiff xn1 notify notifyUnseen poolMin poolMinUnseen)
      none := ⟨rfl, fun _ h => nomatch h⟩
  have hend := hrolls.runActions hrun
  rw [← negotiated, hmask] at hend
  obtain ⟨henabled, hsame⟩ := hend
  obtain ⟨versionBits, hbits, hallowed, hrolled⟩ := submit_rolled henabled hsubmit
  rw [hsame mask rfl] at hallowed hrolled
  refine ⟨versionBits, hbits, hallowed, ?_⟩
  rw [headerVersion_shareHeader, version_of_relayedWith hrelayed, hrolled]
  exact or_eq_hashedVersion_iff entry.jobMeta.version mask versionBits

/-! A job whose version sets a bit that miners may roll. -/

def signalingJob : NotifyJob where
  jobId := "00"
  targetPotIndex := 0
  coinb1Bin := []

def signalingTracker : Tracker :=
  ({} : Tracker).insert (.sv1 signalingJob.jobId) (jobMetaOf 0 coinbaseIdSv1
    (plainState (fun _ => ByteVec.fill 32 0) { emptyTemplate with version := 0x20002000 })) 0

def rollingShare (versionBits : String) : List (Option String) :=
  [some "", some signalingJob.jobId, some "0000000000000000", some "0", some "0", some versionBits]

def rollingActions : List ConnectionAction :=
  [.configure [some "version-rolling"] (some "ffffffff"), .subscribe, .authorize none]

def rollingConnection : Option ConnectionState :=
  runActions (connectionStep (fun _ => ByteVec.fill 32 0) plainUser)
    (handleConnection defaultVardiff 0 (some signalingJob) false 0 false) rollingActions

def relaysWith (versionBits : String) (q : JobEntry → SubmittedShareInputs → Bool)
    (s : ConnectionState) : Bool :=
  (submit s.conn (rollingShare versionBits)).toOption.any fun share =>
    (relayedWith signalingTracker share).any fun relayed => q relayed.1 relayed.2

theorem exists_relayed {versionBits : String} {q : JobEntry → SubmittedShareInputs → Bool}
    (hrelays : rollingConnection.any (relaysWith versionBits q) = true) :
    ∃ t share entry inputs, rollingConnection = some t ∧
      submit t.conn (rollingShare versionBits) = .ok share ∧
      relayedWith signalingTracker share = some (entry, inputs) ∧ q entry inputs = true := by
  obtain ⟨t, hrun, hsubmits⟩ := (Option.any_eq_true _ _).mp hrelays
  unfold relaysWith at hsubmits
  cases hsubmit : submit t.conn (rollingShare versionBits) with
  | error e =>
      rw [hsubmit] at hsubmits
      cases hsubmits
  | ok share =>
      rw [hsubmit] at hsubmits
      change (relayedWith signalingTracker share).any (fun relayed => q relayed.1 relayed.2) =
        true at hsubmits
      obtain ⟨⟨entry, inputs⟩, hrelayed, hq⟩ := (Option.any_eq_true _ _).mp hsubmits
      exact ⟨t, share, entry, inputs, hrun, hsubmit, hrelayed, hq⟩

theorem relayed_version_of_set_bit :
    ∃ t share entry inputs versionBits, rollingConnection = some t ∧
      submit t.conn (rollingShare "2000") = .ok share ∧
      relayedWith signalingTracker share = some (entry, inputs) ∧
      submittedBits (rollingShare "2000") = some versionBits ∧
      versionBits &&& ~~~0x1fffe000 = 0 ∧
      (headerVersion (shareHeader (fun _ => ByteVec.fill 32 0) inputs entry.jobMeta) =
          hashedVersion entry.jobMeta.version 0x1fffe000 versionBits ↔
        entry.jobMeta.version &&& 0x1fffe000 &&& ~~~versionBits = 0) := by
  have hrelays : rollingConnection.any (relaysWith "2000" fun _ _ => true) = true := by
    decide +kernel
  obtain ⟨t, share, entry, inputs, hrun, hsubmit, hrelayed, -⟩ := exists_relayed hrelays
  obtain ⟨versionBits, hbits, hallowed, hversion⟩ :=
    relayed_version_iff (fun _ => ByteVec.fill 32 0) plainUser defaultVardiff 0
      (some signalingJob) false 0 false rollingActions t hrun 0x1fffe000 (by decide +kernel)
      (rollingShare "2000") share hsubmit signalingTracker entry inputs hrelayed
  exact ⟨t, share, entry, inputs, versionBits, hrun, hsubmit, hrelayed, hbits, hallowed, hversion⟩

theorem relayed_version_of_cleared_bit :
    ∃ t share entry inputs, rollingConnection = some t ∧
      negotiated rollingActions = some 0x1fffe000 ∧
      submit t.conn (rollingShare "0") = .ok share ∧
      relayedWith signalingTracker share = some (entry, inputs) ∧
      submittedBits (rollingShare "0") = some 0 ∧
      headerVersion (shareHeader (fun _ => ByteVec.fill 32 0) inputs entry.jobMeta) ≠
        hashedVersion entry.jobMeta.version 0x1fffe000 0 := by
  have hrelays : rollingConnection.any (relaysWith "0" fun entry inputs =>
      headerVersion (shareHeader (fun _ => ByteVec.fill 32 0) inputs entry.jobMeta) !=
        hashedVersion entry.jobMeta.version 0x1fffe000 0) = true := by
    decide +kernel
  obtain ⟨t, share, entry, inputs, hrun, hsubmit, hrelayed, hversion⟩ := exists_relayed hrelays
  exact ⟨t, share, entry, inputs, hrun, by decide +kernel, hsubmit, hrelayed, by decide +kernel,
    bne_iff_ne.mp hversion⟩

end DatumGateway.VersionRolling

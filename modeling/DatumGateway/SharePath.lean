import DatumGateway.ChannelManager
import DatumGateway.JobTracker

namespace DatumGateway.SharePath

open DatumGateway.ByteString
open DatumGateway.ChannelManager
open DatumGateway.FloatValues
open DatumGateway.JobTracker
open DatumGateway.ShareEncoder

structure SubmitSharesStandard where
  channelId : UInt32
  sequenceNumber : UInt32
  jobId : UInt32
  nonce : UInt32
  ntime : UInt32
  version : UInt32
  deriving DecidableEq, Repr

structure SubmitSharesExtended extends SubmitSharesStandard where
  extranonce : Bytes
  deriving DecidableEq, Repr

structure ShareAccounting (α : Type) where
  incrementRejectedShares : String → α → α
  shouldAcknowledge : α → Bool
  getLastShareSequenceNumber : α → UInt32
  getLastBatchAccepted : α → UInt32
  getLastBatchWorkSum : α → UInt64

def plainAccounting : ShareAccounting Unit where
  incrementRejectedShares _ _ := ()
  shouldAcknowledge _ := false
  getLastShareSequenceNumber _ := 0
  getLastBatchAccepted _ := 0
  getLastBatchWorkSum _ := 0

inductive ShareOutcome where
  | valid (body : Bytes)
  | blockFound (body : Bytes) (blockPayload : BlockSubmissionPayload)
  | rejected (errorCode : String)
  deriving DecidableEq, Repr

def shareOutcome (enc : ShareEncoded) : ShareOutcome :=
  match enc.blockSubmission with
  | some payload => .blockFound enc.body payload
  | none => .valid enc.body

def outcomeBody : ShareOutcome → Option Bytes
  | .valid body => some body
  | .blockFound body _ => some body
  | .rejected _ => none

theorem outcomeBody_shareOutcome (enc : ShareEncoded) :
    outcomeBody (shareOutcome enc) = some enc.body := by
  unfold shareOutcome
  split
  · rfl
  · rfl

/-- What the encoder is given: the first half of the coinbase is never supplied here. -/
def finalizeInputs (nonce ntime version : UInt32) (extranonce : ByteVec 12) (username : String)
    (currentDiff : UInt64) : SubmittedShareInputs where
  username
  extranonce
  ntime
  nonce
  version
  currentDiff
  patchedCoinb1Bin := none

def versionRolled (version : UInt32) : Bool :=
  version &&& 0x1fffe000 != 0

section Validation

variable (sha256d : Bytes → Bytes32) {α : Type} (acc : ShareAccounting α)

def reject (errorCode : String) (accounting : α) (tracker : Tracker) :
    ShareOutcome × α × Tracker :=
  (.rejected errorCode, acc.incrementRejectedShares errorCode accounting, tracker)

def finalizeShare (nonce ntime version : UInt32) (extranonce : ByteVec 12) (username : String)
    (currentDiff : UInt64) (userCfg : ShareUserConfig) (accounting : α) (tracker : Tracker)
    (jobKey : JobKey) (templateSeed : UInt64) (paddingByte : UInt8) :
    ShareOutcome × α × Tracker :=
  match tracker.get jobKey with
  | none => reject acc "invalid-job-id" accounting tracker
  | some entry =>
      let coinbaseId := entry.jobMeta.coinbaseId
      let xprotSeen := tracker.crossProtocolCoinbaseAlreadySeen templateSeed coinbaseId
      let inputs := finalizeInputs nonce ntime version extranonce username currentDiff
      let (enc, entry) :=
        buildShareSubmission sha256d inputs entry userCfg xprotSeen paddingByte
      (shareOutcome enc, accounting,
        tracker.recordEncoded jobKey entry templateSeed coinbaseId xprotSeen)

def validateExtendedShare (share : SubmitSharesExtended) (expectedExtranonceSize : UInt16)
    (extranoncePrefix : Bytes) (currentDiff : UInt64) (userCfg : ShareUserConfig)
    (username : String) (versionRollingAllowed : Bool) (accounting : α) (tracker : Tracker)
    (jobKey : JobKey) (templateSeed : UInt64) (paddingByte : UInt8) :
    ShareOutcome × α × Tracker :=
  if share.extranonce.length ≠ expectedExtranonceSize.toNat then
    reject acc "bad-extranonce-size" accounting tracker
  else if !versionRollingAllowed && versionRolled share.version then
    reject acc "version-rolling-not-allowed" accounting tracker
  else
    finalizeShare sha256d acc share.nonce share.ntime share.version
      (fullExtranonce extranoncePrefix share.extranonce) username currentDiff userCfg accounting
      tracker jobKey templateSeed paddingByte

def validateStandardShare (share : SubmitSharesStandard) (extranoncePrefix : Bytes)
    (currentDiff : UInt64) (userCfg : ShareUserConfig) (username : String)
    (versionRollingAllowed : Bool) (accounting : α) (tracker : Tracker) (jobKey : JobKey)
    (templateSeed : UInt64) (paddingByte : UInt8) : ShareOutcome × α × Tracker :=
  if !versionRollingAllowed && versionRolled share.version then
    reject acc "version-rolling-not-allowed" accounting tracker
  else
    finalizeShare sha256d acc share.nonce share.ntime share.version
      (fullExtranonce extranoncePrefix []) username currentDiff userCfg accounting tracker
      jobKey templateSeed paddingByte

end Validation

structure UpdateChannel where
  channelId : UInt32
  nominalHashRate : FloatValue
  maximumTarget : Bytes

def handleUpdateChannel (msg : UpdateChannel) (minHashrateThreshold : FloatValue)
    (minTargetLe : Bytes32) : MiningOut :=
  if !msg.nominalHashRate.isFinite || msg.nominalHashRate.atMost 0 ||
      msg.nominalHashRate.lt minHashrateThreshold then
    .updateChannelError msg.channelId "invalid-nominal-hashrate"
  else
    match ByteVec.ofBytes? 32 msg.maximumTarget with
    | none => .updateChannelError msg.channelId "invalid-channel-id"
    | some requested =>
        .setTarget msg.channelId (clampTargetToMinHashrateLe requested minTargetLe)

end DatumGateway.SharePath

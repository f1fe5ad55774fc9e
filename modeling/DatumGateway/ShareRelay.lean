import DatumGateway.JobTracker
import DatumGateway.StratumV1Server

namespace DatumGateway.ShareRelay

open DatumGateway.ByteString
open DatumGateway.JobTracker
open DatumGateway.ShareEncoder
open DatumGateway.StratumV1Server

def parseU32BeHex (s : String) : Option UInt32 :=
  Hex.fromStrRadix16 (Hex.stripPrefix0x s.toList)

def sv1ShareToInputs (share : SubmittedShare) (entryVersion : UInt32) :
    Option SubmittedShareInputs := do
  let ntime ← parseU32BeHex share.ntimeHex
  let nonce ← parseU32BeHex share.nonceHex
  let extranonce2 ← Hex.decode share.extranonce2Hex
  some
    { username := share.username
      extranonce := fullExtranonce share.extranonce1.toList extranonce2
      ntime
      nonce
      version := entryVersion ||| share.versionRolling
      currentDiff := share.currentDiff
      patchedCoinb1Bin := share.patchedCoinb1Bin }

def relayedWith (tracker : Tracker) (share : SubmittedShare) :
    Option (JobEntry × SubmittedShareInputs) := do
  let entry ← tracker.get (.sv1 share.jobId)
  let inputs ← sv1ShareToInputs share entry.jobMeta.version
  return (entry, inputs)

theorem get_of_relayedWith {tracker : Tracker} {share : SubmittedShare} {entry : JobEntry}
    {inputs : SubmittedShareInputs} (hrelayed : relayedWith tracker share = some (entry, inputs)) :
    tracker.get (.sv1 share.jobId) = some entry := by
  simp only [relayedWith, Option.bind_eq_bind, Option.bind_eq_some_iff, Option.pure_def,
    Option.some.injEq, Prod.mk.injEq] at hrelayed
  obtain ⟨_, hget, _, -, rfl, -⟩ := hrelayed
  exact hget

/-- A relayed share with the tracker it leaves behind; none if the share is dropped. -/
def relayShare (sha256d : Bytes → Bytes32) (userCfg : ShareUserConfig) (tracker : Tracker)
    (share : SubmittedShare) (paddingByte : UInt8) : Option (ShareEncoded × Tracker) :=
  (relayedWith tracker share).map fun (entry, inputs) =>
    let templateSeed := entry.templateSeed
    let coinbaseId := entry.jobMeta.coinbaseId
    let xprotSeen := tracker.crossProtocolCoinbaseAlreadySeen templateSeed coinbaseId
    let (enc, entry) :=
      buildShareSubmission sha256d inputs entry userCfg xprotSeen paddingByte
    (enc, tracker.recordEncoded (.sv1 share.jobId) entry templateSeed coinbaseId xprotSeen)

end DatumGateway.ShareRelay

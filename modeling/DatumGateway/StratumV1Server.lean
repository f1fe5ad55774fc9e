import DatumGateway.ShareEncoder

namespace DatumGateway.StratumV1Server

open DatumGateway.ByteString
open DatumGateway.ShareEncoder

structure EmittedJob where
  jobId : String
  patchedCoinb1Bin : Bytes
  diff : UInt64
  deriving DecidableEq, Repr

/-- The last two jobs sent, the newest first. -/
abbrev EmitRing := Option EmittedJob × Option EmittedJob

def ringPush (ring : EmitRing) (entry : EmittedJob) : EmitRing :=
  (some entry, ring.1)

def ringLookup (ring : EmitRing) (jobId : String) : Option EmittedJob :=
  [ring.1, ring.2].reduceOption.find? fun e => e.jobId == jobId

def patchCoinb1Bytes (coinb1Bin : Bytes) (targetPotIndex : UInt16) (currentDiff : UInt64) :
    Bytes :=
  if targetPotIndex = 0 then coinb1Bin
  else coinb1Bin.set targetPotIndex.toNat (floorPot currentDiff)

structure NotifyJob where
  jobId : String
  targetPotIndex : UInt16
  coinb1Bin : Bytes

structure MinerConnection where
  subscribed : Bool
  authorized : Bool
  authorizedUsername : String
  versionRollingEnabled : Bool
  versionRollingMask : UInt32
  xn1 : UInt32
  currentDiff : UInt64
  emitRing : EmitRing

def MinerConnection.emit (conn : MinerConnection) (job : NotifyJob) : MinerConnection :=
  { conn with
    emitRing := ringPush conn.emitRing
      { jobId := job.jobId
        patchedCoinb1Bin := patchCoinb1Bytes job.coinb1Bin job.targetPotIndex conn.currentDiff
        diff := conn.currentDiff } }

structure ParsedSubmit where
  username : String
  jobId : String
  extranonce2Hex : String
  ntimeHex : String
  nonceHex : String
  versionRollingRaw : Option UInt32
  deriving DecidableEq, Repr

/-- `params` are the entries of the array, each with its text if it is a string. -/
def parseSubmitParams : List (Option String) → Option ParsedSubmit
  | some username :: some jobId :: some extranonce2Hex :: some ntimeHex :: some nonceHex :: rest =>
      some
        { username, jobId, extranonce2Hex, ntimeHex, nonceHex
          versionRollingRaw := rest.head?.join.bind fun s =>
            Hex.fromStrRadix16 (Hex.trimStart0x s.toList) }
  | _ => none

structure SubmittedShare where
  username : String
  jobId : String
  extranonce2Hex : String
  ntimeHex : String
  nonceHex : String
  extranonce1 : ByteVec 4
  versionRolling : UInt32
  currentDiff : UInt64
  patchedCoinb1Bin : Option Bytes
  deriving DecidableEq

structure SubmitError where
  code : ℕ
  message : String
  deriving DecidableEq, Repr

/-- The bits a miner may have rolled, if its sixth parameter is as negotiated. -/
def rolledVersion (conn : MinerConnection) (versionRollingRaw : Option UInt32) : Option UInt32 :=
  if conn.versionRollingEnabled then
    match versionRollingRaw with
    | some nv =>
        if nv &&& ~~~conn.versionRollingMask = 0 then some (nv &&& conn.versionRollingMask)
        else none
    | none => none
  else some 0

/-- `mining.submit`; every share that parses goes to the relay and is acknowledged at once. -/
def submit (conn : MinerConnection) (params : List (Option String)) :
    Except SubmitError SubmittedShare :=
  if !conn.subscribed then .error { code := 25, message := "Not subscribed" }
  else if !conn.authorized then .error { code := 24, message := "Unauthorized worker" }
  else
    match parseSubmitParams params with
    | none => .error { code := 20, message := "Malformed mining.submit params" }
    | some s =>
        match rolledVersion conn s.versionRollingRaw with
        | none => .error { code := 23, message := "Bad version" }
        | some versionRolling =>
            let emitted := ringLookup conn.emitRing s.jobId
            .ok
              { username := if s.username = "" then conn.authorizedUsername else s.username
                jobId := s.jobId
                extranonce2Hex := s.extranonce2Hex
                ntimeHex := s.ntimeHex
                nonceHex := s.nonceHex
                extranonce1 :=
                  ⟨(leBytes 4 conn.xn1.toNat).reverse, by
                    rw [List.length_reverse, length_leBytes]⟩
                versionRolling
                currentDiff := (emitted.map EmittedJob.diff).getD conn.currentDiff
                patchedCoinb1Bin := emitted.map EmittedJob.patchedCoinb1Bin }

end DatumGateway.StratumV1Server

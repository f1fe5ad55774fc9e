import DatumGateway.SharedTemplate

namespace DatumGateway.StratumV1Assembler

open DatumGateway.ByteString
open DatumGateway.SharedTemplate

structure NotifyParams where
  jobId : String
  prevHash : String
  coinb1 : String
  coinb2 : String
  merkleBranch : List String
  versionHex : String
  nbitsHex : String
  ntimeHex : String
  cleanJobs : Bool
  deriving DecidableEq, Repr

structure JobMeta where
  datumJobIdx : UInt8
  coinbaseId : UInt8
  targetPotIndex : UInt16
  version : UInt32
  height : UInt32
  coinbaseValue : UInt64
  prevhashBin : Bytes32
  /-- Display byte order. -/
  nbitsBin : ByteVec 4
  /-- Display byte order. -/
  merkleBranchesBin : List Bytes32
  coinb1Bin : Bytes
  coinb2Bin : Bytes
  datumCoinbaserId : UInt8
  txnCount : UInt32
  txnTotalWeight : UInt32
  txnTotalSize : UInt32
  txnTotalSigops : UInt32
  blockTarget : Bytes32
  txnDataHex : List String
  deriving DecidableEq

/-- `{:08x}`. -/
def hexWord (n : UInt32) : String :=
  Hex.encode (leBytes 4 n.toNat).reverse

def jobMetaOf (datumJobIdx coinbaseId : UInt8) (state : TemplateState) : JobMeta where
  datumJobIdx
  coinbaseId
  targetPotIndex := state.targetPotIndex
  version := state.version
  height := state.height
  coinbaseValue := state.coinbaseValue
  prevhashBin := state.prevHash
  nbitsBin := state.nbits
  merkleBranchesBin := state.merkleBranches
  coinb1Bin := state.coinb1
  coinb2Bin := state.coinb2
  datumCoinbaserId := state.datumCoinbaserId
  txnCount := state.txnCount
  txnTotalWeight := state.txnTotalWeight
  txnTotalSize := state.txnTotalSize
  txnTotalSigops := state.txnTotalSigops
  blockTarget := state.blockTarget
  txnDataHex := state.txnDataHex

def notifyFromTemplateState (jobId : String) (datumJobIdx coinbaseId : UInt8)
    (state : TemplateState) (cleanJobs : Bool) : NotifyParams × JobMeta :=
  let notify :=
    { jobId
      prevHash := swapPrevHashForStratum (Hex.encode state.prevHash.toList.reverse)
      coinb1 := Hex.encode state.coinb1
      coinb2 := Hex.encode state.coinb2
      merkleBranch := state.merkleBranches.map fun branch => Hex.encode branch.toList
      versionHex := hexWord state.version
      nbitsHex := Hex.encode state.nbits.toList
      ntimeHex := hexWord state.minNtime
      cleanJobs }
  (notify, jobMetaOf datumJobIdx coinbaseId state)

def coinbaseIdSv1 : UInt8 := 0

/-- `{:08x}{:02x}{:04x}{:02x}` of the tick, the job index, a hidden height and the coinbase. -/
def sv1JobId (tick : UInt32) (datumJobIdx : UInt8) (height : UInt32) : String :=
  Hex.encode ((leBytes 4 tick.toNat).reverse ++ [datumJobIdx] ++
    (leBytes 2 (height.toUInt16 ^^^ 0xC0DE).toNat).reverse ++ [coinbaseIdSv1])

end DatumGateway.StratumV1Assembler

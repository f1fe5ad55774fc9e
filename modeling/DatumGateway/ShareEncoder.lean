import DatumGateway.StratumV1Assembler
import DatumGateway.UpstreamMessages

namespace DatumGateway.ShareEncoder

open DatumGateway.ByteString
open DatumGateway.MerkleBranches
open DatumGateway.StratumV1Assembler
open DatumGateway.UpstreamMessages
open DatumGateway.Utf8Text

structure ShareUserConfig where
  poolAddress : String
  passFullUsers : Bool
  passWorkers : Bool
  deriving DecidableEq, Repr

structure SubmittedShareInputs where
  username : String
  extranonce : ByteVec 12
  ntime : UInt32
  nonce : UInt32
  version : UInt32
  currentDiff : UInt64
  /-- The first half as the miner hashed it, if the caller captured it. -/
  patchedCoinb1Bin : Option Bytes
  deriving DecidableEq

/-- Twelve extranonce bytes: the prefix, then what the miner rolled, then zeros. -/
def fullExtranonce (extranoncePrefix extra : Bytes) : ByteVec 12 :=
  let head := extranoncePrefix.take 12
  let suffix := extra.take (12 - head.length)
  ⟨head ++ suffix ++ List.replicate (12 - head.length - suffix.length) 0, by
    have hhead : head.length ≤ 12 := List.length_take_le ..
    have hsuffix : suffix.length ≤ 12 - head.length := List.length_take_le ..
    simp only [List.length_append, List.length_replicate]
    omega⟩

theorem fullExtranonce_of_length {extranoncePrefix extra : Bytes}
    (hlen : extranoncePrefix.length + extra.length = 12) :
    (fullExtranonce extranoncePrefix extra).toList = extranoncePrefix ++ extra := by
  have hhead : extranoncePrefix.take 12 = extranoncePrefix := List.take_of_length_le (by omega)
  have hsuffix : extra.take (12 - extranoncePrefix.length) = extra :=
    List.take_of_length_le (by omega)
  have hpad : 12 - extranoncePrefix.length - extra.length = 0 := by omega
  simp only [fullExtranonce, List.Vector.toList, hhead, hsuffix, hpad, List.replicate_zero,
    List.append_nil]

structure JobEntry where
  jobMeta : JobMeta
  templateSeed : UInt64
  serverHasMerkleBranches : Bool
  serverHasCoinbase : List.Vector Bool 8
  deriving DecidableEq

structure BlockSubmissionPayload where
  blockHex : String
  blockHashHex : String
  deriving DecidableEq, Repr

structure ShareEncoded where
  body : Bytes
  blockSubmission : Option BlockSubmissionPayload
  deriving DecidableEq, Repr

structure ShareSubmissionPrefix where
  jobId : UInt8
  coinbaseId : UInt8
  flags : UInt8
  targetByte : UInt8
  ntime : UInt32
  nonce : UInt32
  version : UInt32
  extranonce : ByteVec 12
  deriving DecidableEq

def ShareSubmissionPrefix.encode (p : ShareSubmissionPrefix) : Bytes :=
  [0x27, p.jobId, p.coinbaseId, p.flags, p.targetByte] ++ leBytes 4 p.ntime.toNat ++
    leBytes 4 p.nonce.toNat ++ leBytes 4 p.version.toNat ++ [12] ++ p.extranonce.toList

def shareSubmissionPrefixLen : ℕ := 30

theorem ShareSubmissionPrefix.length_encode (p : ShareSubmissionPrefix) :
    p.encode.length = shareSubmissionPrefixLen := by
  simp [ShareSubmissionPrefix.encode, shareSubmissionPrefixLen]

def ShareSubmissionPrefix.decode (body : Bytes) : Except MessageError ShareSubmissionPrefix :=
  if hlen : body.length < shareSubmissionPrefixLen then
    .error (.tooShort body.length shareSubmissionPrefixLen)
  else if body.getD 0 0 ≠ 0x27 then .error (.badSubOpcode (body.getD 0 0) 0x27)
  else if body.getD 17 0 ≠ 12 then .error (.badExtranonceLength (body.getD 17 0))
  else
    .ok
      { jobId := body.getD 1 0
        coinbaseId := body.getD 2 0
        flags := body.getD 3 0
        targetByte := body.getD 4 0
        ntime := wordAt body 5
        nonce := wordAt body 9
        version := wordAt body 13
        extranonce := ⟨(body.drop 18).take 12, by
          simp only [shareSubmissionPrefixLen] at hlen
          rw [List.length_take, List.length_drop]
          omega⟩ }

theorem ShareSubmissionPrefix.decode_encode_append (p : ShareSubmissionPrefix) (rest : Bytes) :
    ShareSubmissionPrefix.decode (p.encode ++ rest) = .ok p := by
  let front := [0x27, p.jobId, p.coinbaseId, p.flags, p.targetByte]
  let ntime := leBytes 4 p.ntime.toNat
  let nonce := leBytes 4 p.nonce.toNat
  let version := leBytes 4 p.version.toNat
  let body := p.encode ++ rest
  have hlen : ¬ body.length < shareSubmissionPrefixLen := by
    rw [List.length_append, p.length_encode]
    exact not_lt.mpr (Nat.le_add_right _ _)
  have hntime : wordAt body 5 = p.ntime := by
    have h := wordAt_append front p.ntime
      (nonce ++ version ++ [12] ++ p.extranonce.toList ++ rest) (i := 5) rfl
    simpa [body, ShareSubmissionPrefix.encode, front, nonce, version] using h
  have hnonce : wordAt body 9 = p.nonce := by
    have h := wordAt_append (front ++ ntime) p.nonce
      (version ++ [12] ++ p.extranonce.toList ++ rest) (i := 9) (by simp [front, ntime])
    simpa [body, ShareSubmissionPrefix.encode, front, ntime, version] using h
  have hversion : wordAt body 13 = p.version := by
    have h := wordAt_append (front ++ ntime ++ nonce) p.version
      ([12] ++ p.extranonce.toList ++ rest) (i := 13) (by simp [front, ntime, nonce])
    simpa [body, ShareSubmissionPrefix.encode, front, ntime, nonce] using h
  have hextranonce : (body.drop 18).take 12 = p.extranonce.toList := by
    have hfront : (front ++ ntime ++ nonce ++ version ++ [12]).length = 18 := by
      simp [front, ntime, nonce, version]
    have hbody : body = front ++ ntime ++ nonce ++ version ++ [12] ++
        (p.extranonce.toList ++ rest) := by
      simp [body, ShareSubmissionPrefix.encode, front, ntime, nonce, version]
    rw [hbody, List.drop_left' hfront, List.take_left' p.extranonce.toList_length]
  change ShareSubmissionPrefix.decode body = .ok p
  have hopcode : body.getD 0 0 = 0x27 := rfl
  have hxnLen : body.getD 17 0 = 12 := by
    simp [body, ShareSubmissionPrefix.encode, leBytes]
  rw [ShareSubmissionPrefix.decode, dif_neg hlen, if_neg (not_not.mpr hopcode),
    if_neg (not_not.mpr hxnLen)]
  simp only [hntime, hnonce, hversion, hextranonce]
  rfl

def formatShareUsername (minerUser : String) (cfg : ShareUserConfig) : Bytes :=
  let s :=
    if (!cfg.passFullUsers && !cfg.passWorkers) || minerUser == "" then cfg.poolAddress
    else if cfg.passFullUsers && minerUser.toList.head? != some '.' then minerUser
    else if cfg.passFullUsers || cfg.passWorkers then
      cfg.poolAddress ++ (if minerUser.toList.head? == some '.' then "" else ".") ++ minerUser
    else cfg.poolAddress
  (utf8Bytes s).take 384

def floorPot (x : UInt64) : UInt8 :=
  if x.toNat = 0 then 0 else UInt8.ofNat (Nat.log2 x.toNat)

/-- Whether `hash ≤ target`, comparing from the most significant byte, the last one, down. -/
def hashMeetsTarget (hash target : Bytes32) : Bool :=
  go (hash.toList.reverse.zip target.toList.reverse)
where
  go : List (UInt8 × UInt8) → Bool
    | [] => true
    | (h, t) :: rest => if h < t then true else if t < h then false else go rest

def coinb1Patched (share : SubmittedShareInputs) (jobMeta : JobMeta) : Bytes :=
  match share.patchedCoinb1Bin with
  | some bytes => bytes
  | none => jobMeta.coinb1Bin.set jobMeta.targetPotIndex.toNat (floorPot share.currentDiff)

section Hashing

variable (sha256d : Bytes → Bytes32)

def computeMerkleRoot (coinb1 : Bytes) (extranonce : ByteVec 12) (coinb2 : Bytes)
    (branches : List Bytes32) : Bytes32 :=
  foldMerkleBranches sha256d (sha256d (coinb1 ++ extranonce.toList ++ coinb2)) branches

def headerBytes (version : UInt32) (prevHash merkleRoot : Bytes32) (ntime : UInt32)
    (nbits : ByteVec 4) (nonce : UInt32) : Bytes :=
  leBytes 4 version.toNat ++ prevHash.toList ++ merkleRoot.toList ++ leBytes 4 ntime.toNat ++
    nbits.toList.reverse ++ leBytes 4 nonce.toNat

def shareHeader (share : SubmittedShareInputs) (jobMeta : JobMeta) : Bytes :=
  let merkleRoot := computeMerkleRoot sha256d (coinb1Patched share jobMeta) share.extranonce
    jobMeta.coinb2Bin jobMeta.merkleBranchesBin
  headerBytes share.version jobMeta.prevhashBin merkleRoot share.ntime jobMeta.nbitsBin share.nonce

/-- The `0x01` block: the previous hash, the figures of the block, and the branches. -/
def merkleBlock (jobMeta : JobMeta) : Bytes :=
  [0x01] ++ jobMeta.prevhashBin.toList ++ leBytes 2 jobMeta.targetPotIndex.toNat ++
    jobMeta.nbitsBin.toList.reverse ++ [jobMeta.datumCoinbaserId] ++
    leBytes 4 jobMeta.height.toNat ++ leBytes 8 jobMeta.coinbaseValue.toNat ++
    leBytes 4 jobMeta.txnCount.toNat ++ leBytes 4 jobMeta.txnTotalWeight.toNat ++
    leBytes 4 jobMeta.txnTotalSize.toNat ++ leBytes 4 jobMeta.txnTotalSigops.toNat ++
    [UInt8.ofNat jobMeta.merkleBranchesBin.length] ++
    jobMeta.merkleBranchesBin.flatMap fun branch => branch.toList.reverse

/-- The `0x02` block: the two halves of the coinbase. -/
def coinbaseBlock (jobMeta : JobMeta) : Bytes :=
  [0x02, jobMeta.coinbaseId] ++ leBytes 2 jobMeta.coinb1Bin.length ++
    leBytes 2 jobMeta.coinb2Bin.length ++ jobMeta.coinb1Bin ++ jobMeta.coinb2Bin

def pushVarintHex (v : ℕ) : String :=
  if v < 0xFD then Hex.encode (leBytes 1 v)
  else if v ≤ 0xFFFF then "fd" ++ Hex.encode (leBytes 2 v)
  else if v ≤ 0xFFFFFFFF then "fe" ++ Hex.encode (leBytes 4 v)
  else "ff" ++ Hex.encode (leBytes 8 v)

def blockPayload (share : SubmittedShareInputs) (jobMeta : JobMeta) (header : Bytes)
    (shareHash : Bytes32) : BlockSubmissionPayload where
  blockHex := Hex.encode header ++ pushVarintHex (jobMeta.txnCount.toNat + 1) ++
    Hex.encode (coinb1Patched share jobMeta ++ share.extranonce.toList ++ jobMeta.coinb2Bin) ++
    String.join jobMeta.txnDataHex
  blockHashHex := Hex.encode shareHash.toList.reverse

def sendsCoinbase (entry : JobEntry) (crossProtocolCoinbaseAlreadySeen : Bool) : Bool :=
  let cbId := entry.jobMeta.coinbaseId.toNat
  let alreadySentPerKey := entry.serverHasCoinbase.toList.getD cbId false
  !alreadySentPerKey && !crossProtocolCoinbaseAlreadySeen

def shareBody (share : SubmittedShareInputs) (entry : JobEntry) (userCfg : ShareUserConfig)
    (crossProtocolCoinbaseAlreadySeen isBlock : Bool) (paddingByte : UInt8) : Bytes :=
  let sharePrefix : ShareSubmissionPrefix :=
    { jobId := entry.jobMeta.datumJobIdx
      coinbaseId := entry.jobMeta.coinbaseId
      flags := if isBlock then 0x01 else 0
      targetByte := floorPot share.currentDiff
      ntime := share.ntime
      nonce := share.nonce
      version := share.version
      extranonce := share.extranonce }
  sharePrefix.encode ++ formatShareUsername share.username userCfg ++ [0] ++
    List.replicate 4 0 ++
    (if entry.serverHasMerkleBranches then [] else merkleBlock entry.jobMeta) ++
    (if sendsCoinbase entry crossProtocolCoinbaseAlreadySeen then coinbaseBlock entry.jobMeta
      else []) ++
    [0xFE] ++ List.replicate (1 + paddingByte.toNat % 80) paddingByte

def markSent (entry : JobEntry) (crossProtocolCoinbaseAlreadySeen : Bool) : JobEntry :=
  { entry with
    serverHasMerkleBranches := true
    serverHasCoinbase :=
      if sendsCoinbase entry crossProtocolCoinbaseAlreadySeen then
        ⟨entry.serverHasCoinbase.toList.set entry.jobMeta.coinbaseId.toNat true, by
          rw [List.length_set, List.Vector.toList_length]⟩
      else entry.serverHasCoinbase }

def buildShareSubmission (share : SubmittedShareInputs) (entry : JobEntry)
    (userCfg : ShareUserConfig) (crossProtocolCoinbaseAlreadySeen : Bool)
    (paddingByte : UInt8) : ShareEncoded × JobEntry :=
  let header := shareHeader sha256d share entry.jobMeta
  let shareHash := sha256d header
  let isBlock := hashMeetsTarget shareHash entry.jobMeta.blockTarget
  let body :=
    shareBody share entry userCfg crossProtocolCoinbaseAlreadySeen isBlock paddingByte
  let blockSubmission :=
    if isBlock then some (blockPayload share entry.jobMeta header shareHash) else none
  ({ body, blockSubmission }, markSent entry crossProtocolCoinbaseAlreadySeen)

end Hashing

end DatumGateway.ShareEncoder

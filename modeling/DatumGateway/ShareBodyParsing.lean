import DatumGateway.ShareEncoder

namespace DatumGateway.ShareBodyParsing

open DatumGateway.BlockTemplate
open DatumGateway.ByteReader
open DatumGateway.ByteString
open DatumGateway.ShareEncoder
open DatumGateway.SharedTemplate
open DatumGateway.StratumV1Assembler

structure MerkleSection where
  prevhashBin : Bytes32
  targetPotIndex : UInt16
  /-- Display byte order. -/
  nbitsBin : ByteVec 4
  datumCoinbaserId : UInt8
  height : UInt32
  coinbaseValue : UInt64
  txnCount : UInt32
  txnTotalWeight : UInt32
  txnTotalSize : UInt32
  txnTotalSigops : UInt32
  /-- Display byte order. -/
  merkleBranchesBin : List Bytes32
  deriving DecidableEq

structure CoinbaseSection where
  coinbaseId : UInt8
  coinb1Bin : Bytes
  coinb2Bin : Bytes
  deriving DecidableEq

structure ShareSubmission where
  sharePrefix : ShareSubmissionPrefix
  username : Bytes
  merkle : Option MerkleSection
  coinbase : Option CoinbaseSection
  deriving DecidableEq

def readSharePrefix : Reader ShareSubmissionPrefix :=
  fun bs =>
    match ShareSubmissionPrefix.decode bs with
    | .ok sharePrefix => some (sharePrefix, bs.drop shareSubmissionPrefixLen)
    | .error _ => none

def readMerkleSection : Reader MerkleSection := do
  let prevhashBin ← readVec 32
  let targetPotIndex ← readUInt16
  let nbitsLe ← readVec 4
  let datumCoinbaserId ← readUInt8
  let height ← readUInt32
  let coinbaseValue ← readUInt64
  let txnCount ← readUInt32
  let txnTotalWeight ← readUInt32
  let txnTotalSize ← readUInt32
  let txnTotalSigops ← readUInt32
  let branchCount ← readUInt8
  let branchesLe ← readMany (readVec 32) branchCount.toNat
  return {
    prevhashBin, targetPotIndex, nbitsBin := nbitsLe.reverse, datumCoinbaserId, height
    coinbaseValue, txnCount, txnTotalWeight, txnTotalSize, txnTotalSigops
    merkleBranchesBin := branchesLe.map List.Vector.reverse }

def readCoinbaseSection : Reader CoinbaseSection := do
  let coinbaseId ← readUInt8
  let coinb1Len ← readUInt16
  let coinb2Len ← readUInt16
  let coinb1Bin ← readBytes coinb1Len.toNat
  let coinb2Bin ← readBytes coinb2Len.toNat
  return { coinbaseId, coinb1Bin, coinb2Bin }

def readShareSubmission : Reader ShareSubmission := do
  let sharePrefix ← readSharePrefix
  let username ← readUntilNul
  readLiteral (List.replicate 4 0)
  let merkle ← readTagged 0x01 readMerkleSection
  let coinbase ← readTagged 0x02 readCoinbaseSection
  readLiteral [0xFE]
  return { sharePrefix, username, merkle, coinbase }

/-- What is behind the terminator is padding. -/
def parseShareSubmission (body : Bytes) : Option ShareSubmission :=
  (readShareSubmission.run body).map Prod.fst

/-! What each part is written as. -/

def MerkleSection.bytes (m : MerkleSection) : Bytes :=
  m.prevhashBin.toList ++ (leBytes 2 m.targetPotIndex.toNat ++ (m.nbitsBin.toList.reverse ++
    ([m.datumCoinbaserId] ++ (leBytes 4 m.height.toNat ++ (leBytes 8 m.coinbaseValue.toNat ++
      (leBytes 4 m.txnCount.toNat ++ (leBytes 4 m.txnTotalWeight.toNat ++
        (leBytes 4 m.txnTotalSize.toNat ++ (leBytes 4 m.txnTotalSigops.toNat ++
          ([UInt8.ofNat m.merkleBranchesBin.length] ++
            m.merkleBranchesBin.flatMap fun branch => branch.toList.reverse))))))))))

def CoinbaseSection.bytes (c : CoinbaseSection) : Bytes :=
  [c.coinbaseId] ++ (leBytes 2 c.coinb1Bin.length ++ (leBytes 2 c.coinb2Bin.length ++
    (c.coinb1Bin ++ c.coinb2Bin)))

def ShareSubmission.bytes (s : ShareSubmission) : Bytes :=
  s.sharePrefix.encode ++ (s.username ++ [0] ++ (List.replicate 4 0 ++
    (taggedBytes 0x01 MerkleSection.bytes s.merkle ++
      (taggedBytes 0x02 CoinbaseSection.bytes s.coinbase ++ [0xFE]))))

/-- The name ends before its terminator, and every length fits the bytes it is written in. -/
structure ShareSubmission.Fits (s : ShareSubmission) : Prop where
  username : 0 ∉ s.username
  merkle : ∀ m, s.merkle = some m → m.merkleBranchesBin.length < 256
  coinbase : ∀ c, s.coinbase = some c → c.coinb1Bin.length < 65536 ∧ c.coinb2Bin.length < 65536

theorem reads_readSharePrefix (p : ShareSubmissionPrefix) : Reads readSharePrefix p.encode p := by
  intro rest
  simp only [readSharePrefix, StateT.run, ShareSubmissionPrefix.decode_encode_append,
    List.drop_left' p.length_encode]

theorem reads_readBranches {n : UInt8} {branches : List Bytes32} (hn : branches.length = n.toNat) :
    Reads (readMany (readVec 32) n.toNat) (branches.flatMap fun branch => branch.toList.reverse)
      (branches.map List.Vector.reverse) := by
  have hmany : Reads (readMany (readVec 32) (branches.map List.Vector.reverse).length)
      ((branches.map List.Vector.reverse).flatMap List.Vector.toList)
      (branches.map List.Vector.reverse) :=
    reads_readMany fun branch _ => reads_readVec branch
  simpa [List.flatMap_map, hn] using hmany

theorem reads_readMerkleSection {m : MerkleSection} (hcount : m.merkleBranchesBin.length < 256) :
    Reads readMerkleSection m.bytes m := by
  have hlen : m.merkleBranchesBin.length = (UInt8.ofNat m.merkleBranchesBin.length).toNat := by
    rw [UInt8.toNat_ofNat_of_lt' hcount]
  have hnbits : Reads (readVec 4) m.nbitsBin.toList.reverse m.nbitsBin.reverse := by
    rw [← ByteVec.toList_reverse]
    exact reads_readVec m.nbitsBin.reverse
  have hback : (m.merkleBranchesBin.map List.Vector.reverse).map List.Vector.reverse =
      m.merkleBranchesBin := by
    rw [List.map_map]
    exact List.map_id'' ByteVec.reverse_reverse m.merkleBranchesBin
  have hread : Reads readMerkleSection m.bytes { m with
      nbitsBin := m.nbitsBin.reverse.reverse
      merkleBranchesBin := (m.merkleBranchesBin.map List.Vector.reverse).map
        List.Vector.reverse } :=
    (reads_readVec m.prevhashBin).bind ((reads_readUInt16 m.targetPotIndex).bind
      (hnbits.bind ((reads_readUInt8 m.datumCoinbaserId).bind ((reads_readUInt32 m.height).bind
        ((reads_readUInt64 m.coinbaseValue).bind ((reads_readUInt32 m.txnCount).bind
          ((reads_readUInt32 m.txnTotalWeight).bind ((reads_readUInt32 m.txnTotalSize).bind
            ((reads_readUInt32 m.txnTotalSigops).bind ((reads_readUInt8 _).bind
              (reads_readBranches hlen).bind_pure))))))))))
  rwa [ByteVec.reverse_reverse, hback] at hread

theorem reads_readCoinbaseSection {c : CoinbaseSection} (hcoinb1 : c.coinb1Bin.length < 65536)
    (hcoinb2 : c.coinb2Bin.length < 65536) : Reads readCoinbaseSection c.bytes c := by
  have hcoinb1' : Reads (readBytes (UInt16.ofNat c.coinb1Bin.length).toNat) c.coinb1Bin
      c.coinb1Bin := by
    rw [UInt16.toNat_ofNat_of_lt' hcoinb1]
    exact reads_readBytes c.coinb1Bin
  have hcoinb2' : Reads (readBytes (UInt16.ofNat c.coinb2Bin.length).toNat) c.coinb2Bin
      c.coinb2Bin := by
    rw [UInt16.toNat_ofNat_of_lt' hcoinb2]
    exact reads_readBytes c.coinb2Bin
  have hlen1 := reads_readUInt16 (UInt16.ofNat c.coinb1Bin.length)
  have hlen2 := reads_readUInt16 (UInt16.ofNat c.coinb2Bin.length)
  rw [UInt16.toNat_ofNat_of_lt' hcoinb1] at hlen1
  rw [UInt16.toNat_ofNat_of_lt' hcoinb2] at hlen2
  exact (reads_readUInt8 c.coinbaseId).bind (hlen1.bind (hlen2.bind
    (hcoinb1'.bind hcoinb2'.bind_pure)))

theorem reads_readShareSubmission {s : ShareSubmission} (hfits : s.Fits) :
    Reads readShareSubmission s.bytes s := by
  have hmerkle : ∀ m, s.merkle = some m → Reads readMerkleSection m.bytes m :=
    fun m hm => reads_readMerkleSection (hfits.merkle m hm)
  have hcoinbase : ∀ c, s.coinbase = some c → Reads readCoinbaseSection c.bytes c :=
    fun c hc => reads_readCoinbaseSection (hfits.coinbase c hc).1 (hfits.coinbase c hc).2
  have htail : ∃ b, (taggedBytes 0x02 CoinbaseSection.bytes s.coinbase ++ [0xFE]).head? = some b ∧
      b ≠ 0x01 := by
    cases s.coinbase with
    | none => exact ⟨0xFE, rfl, by decide⟩
    | some c => exact ⟨0x02, rfl, by decide⟩
  obtain ⟨b, hhead, hne⟩ := htail
  refine (reads_readSharePrefix s.sharePrefix).bind ((reads_readUntilNul hfits.username).bind
    ((reads_readLiteral (List.replicate 4 0)).bind (Reads.bind_readTagged hmerkle ?_ hhead hne)))
  exact Reads.bind_readTagged hcoinbase (reads_readLiteral [0xFE]).bind_pure rfl (by decide)

theorem yields_readShareSubmission : Yields readShareSubmission ShareSubmission.Fits := by
  have hmerkle : Yields readMerkleSection fun m => m.merkleBranchesBin.length < 256 := by
    refine Yields.bind_right fun prevhashBin => Yields.bind_right fun targetPotIndex =>
      Yields.bind_right fun nbitsLe => Yields.bind_right fun datumCoinbaserId =>
      Yields.bind_right fun height => Yields.bind_right fun coinbaseValue =>
      Yields.bind_right fun txnCount => Yields.bind_right fun txnTotalWeight =>
      Yields.bind_right fun txnTotalSize => Yields.bind_right fun txnTotalSigops =>
      Yields.bind_right fun branchCount => ?_
    refine (yields_readMany (readVec 32) branchCount.toNat).bind fun branchesLe hlen =>
      Yields.pure ?_
    rw [List.length_map, hlen]
    exact branchCount.toNat_lt
  have hcoinbase : Yields readCoinbaseSection fun c =>
      c.coinb1Bin.length < 65536 ∧ c.coinb2Bin.length < 65536 := by
    refine Yields.bind_right fun coinbaseId => Yields.bind_right fun coinb1Len =>
      Yields.bind_right fun coinb2Len => ?_
    refine (yields_readBytes coinb1Len.toNat).bind fun coinb1Bin hcoinb1 =>
      (yields_readBytes coinb2Len.toNat).bind fun coinb2Bin hcoinb2 => Yields.pure ?_
    rw [hcoinb1, hcoinb2]
    exact ⟨coinb1Len.toNat_lt, coinb2Len.toNat_lt⟩
  refine Yields.bind_right fun sharePrefix => yields_readUntilNul.bind fun username husername =>
    Yields.bind_right fun _ => ?_
  refine (yields_readTagged 0x01 hmerkle).bind fun merkle hm =>
    (yields_readTagged 0x02 hcoinbase).bind fun coinbase hc => Yields.bind_right fun _ =>
      Yields.pure ⟨husername, hm, hc⟩

theorem parseShareSubmission_bytes_iff (s : ShareSubmission) (padding : Bytes) :
    parseShareSubmission (s.bytes ++ padding) = some s ↔ s.Fits := by
  constructor
  · intro hparse
    obtain ⟨⟨t, rest⟩, hread, rfl⟩ := Option.map_eq_some_iff.mp hparse
    exact yields_readShareSubmission _ _ _ hread
  · intro hfits
    rw [parseShareSubmission, reads_readShareSubmission hfits padding, Option.map_some]

/-! What the body of a share says, part by part. -/

def merkleSectionOf (jobMeta : JobMeta) : MerkleSection where
  prevhashBin := jobMeta.prevhashBin
  targetPotIndex := jobMeta.targetPotIndex
  nbitsBin := jobMeta.nbitsBin
  datumCoinbaserId := jobMeta.datumCoinbaserId
  height := jobMeta.height
  coinbaseValue := jobMeta.coinbaseValue
  txnCount := jobMeta.txnCount
  txnTotalWeight := jobMeta.txnTotalWeight
  txnTotalSize := jobMeta.txnTotalSize
  txnTotalSigops := jobMeta.txnTotalSigops
  merkleBranchesBin := jobMeta.merkleBranchesBin

def coinbaseSectionOf (jobMeta : JobMeta) : CoinbaseSection where
  coinbaseId := jobMeta.coinbaseId
  coinb1Bin := jobMeta.coinb1Bin
  coinb2Bin := jobMeta.coinb2Bin

def submissionOf (share : SubmittedShareInputs) (entry : JobEntry) (userCfg : ShareUserConfig)
    (crossProtocolCoinbaseAlreadySeen isBlock : Bool) : ShareSubmission where
  sharePrefix :=
    { jobId := entry.jobMeta.datumJobIdx
      coinbaseId := entry.jobMeta.coinbaseId
      flags := if isBlock then 0x01 else 0
      targetByte := floorPot share.currentDiff
      ntime := share.ntime
      nonce := share.nonce
      version := share.version
      extranonce := share.extranonce }
  username := formatShareUsername share.username userCfg
  merkle :=
    if entry.serverHasMerkleBranches then none else some (merkleSectionOf entry.jobMeta)
  coinbase :=
    if sendsCoinbase entry crossProtocolCoinbaseAlreadySeen then
      some (coinbaseSectionOf entry.jobMeta)
    else none

theorem merkleBlock_eq (jobMeta : JobMeta) :
    merkleBlock jobMeta = 0x01 :: (merkleSectionOf jobMeta).bytes := by
  simp only [merkleBlock, MerkleSection.bytes, merkleSectionOf, List.append_assoc]
  rfl

theorem coinbaseBlock_eq (jobMeta : JobMeta) :
    coinbaseBlock jobMeta = 0x02 :: (coinbaseSectionOf jobMeta).bytes := by
  simp only [coinbaseBlock, CoinbaseSection.bytes, coinbaseSectionOf, List.append_assoc]
  rfl

theorem shareBody_eq (share : SubmittedShareInputs) (entry : JobEntry) (userCfg : ShareUserConfig)
    (crossProtocolCoinbaseAlreadySeen isBlock : Bool) (paddingByte : UInt8) :
    shareBody share entry userCfg crossProtocolCoinbaseAlreadySeen isBlock paddingByte =
      (submissionOf share entry userCfg crossProtocolCoinbaseAlreadySeen isBlock).bytes ++
        List.replicate (1 + paddingByte.toNat % 80) paddingByte := by
  have hmerkle : (if entry.serverHasMerkleBranches then [] else merkleBlock entry.jobMeta) =
      taggedBytes 0x01 MerkleSection.bytes
        (if entry.serverHasMerkleBranches then none else some (merkleSectionOf entry.jobMeta)) := by
    split_ifs
    · rfl
    · exact merkleBlock_eq entry.jobMeta
  have hcoinbase : (if sendsCoinbase entry crossProtocolCoinbaseAlreadySeen then
        coinbaseBlock entry.jobMeta else []) =
      taggedBytes 0x02 CoinbaseSection.bytes
        (if sendsCoinbase entry crossProtocolCoinbaseAlreadySeen then
          some (coinbaseSectionOf entry.jobMeta) else none) := by
    split_ifs
    · exact coinbaseBlock_eq entry.jobMeta
    · rfl
  rw [shareBody, hmerkle, hcoinbase]
  simp only [submissionOf, ShareSubmission.bytes, List.append_assoc]

/-- The text to be written has no terminator in it, and each length that is written fits. -/
def expressible (share : SubmittedShareInputs) (entry : JobEntry) (userCfg : ShareUserConfig)
    (crossProtocolCoinbaseAlreadySeen : Bool) : Bool :=
  !(formatShareUsername share.username userCfg).contains 0 &&
    (entry.serverHasMerkleBranches || decide (entry.jobMeta.merkleBranchesBin.length < 256)) &&
    (!sendsCoinbase entry crossProtocolCoinbaseAlreadySeen ||
      decide (entry.jobMeta.coinb1Bin.length < 65536 ∧ entry.jobMeta.coinb2Bin.length < 65536))

theorem fits_submissionOf_iff (share : SubmittedShareInputs) (entry : JobEntry)
    (userCfg : ShareUserConfig) (crossProtocolCoinbaseAlreadySeen isBlock : Bool) :
    (submissionOf share entry userCfg crossProtocolCoinbaseAlreadySeen isBlock).Fits ↔
      expressible share entry userCfg crossProtocolCoinbaseAlreadySeen = true := by
  simp only [expressible, Bool.and_eq_true, Bool.or_eq_true, Bool.not_eq_true', decide_eq_true_eq,
    List.contains_eq_mem, decide_eq_false_iff_not]
  constructor
  · rintro ⟨husername, hmerkle, hcoinbase⟩
    refine ⟨⟨husername, ?_⟩, ?_⟩
    · cases hsent : entry.serverHasMerkleBranches with
      | true => exact Or.inl rfl
      | false =>
          exact Or.inr (hmerkle (merkleSectionOf entry.jobMeta) (by simp [submissionOf, hsent]))
    · cases hsends : sendsCoinbase entry crossProtocolCoinbaseAlreadySeen with
      | false => exact Or.inl rfl
      | true =>
          exact Or.inr
            (hcoinbase (coinbaseSectionOf entry.jobMeta) (by simp [submissionOf, hsends]))
  · rintro ⟨⟨husername, hmerkle⟩, hcoinbase⟩
    refine ⟨husername, ?_, ?_⟩
    · intro m hm
      obtain ⟨hsent, hm⟩ := Option.ite_none_left_eq_some.mp hm
      obtain rfl := Option.some.inj hm
      exact hmerkle.resolve_left hsent
    · intro c hc
      obtain ⟨hsends, hc⟩ := Option.ite_none_right_eq_some.mp hc
      obtain rfl := Option.some.inj hc
      exact hcoinbase.resolve_left (by simp [hsends])

section Building

variable (sha256d : Bytes → Bytes32)

def encodedSubmission (share : SubmittedShareInputs) (entry : JobEntry)
    (userCfg : ShareUserConfig) (crossProtocolCoinbaseAlreadySeen : Bool) : ShareSubmission :=
  submissionOf share entry userCfg crossProtocolCoinbaseAlreadySeen
    (hashMeetsTarget (sha256d (shareHeader sha256d share entry.jobMeta)) entry.jobMeta.blockTarget)

/-- A body can be read back exactly if its share is expressible in the layout. -/
theorem parseShareSubmission_buildShareSubmission_iff (share : SubmittedShareInputs)
    (entry : JobEntry) (userCfg : ShareUserConfig) (crossProtocolCoinbaseAlreadySeen : Bool)
    (paddingByte : UInt8) :
    parseShareSubmission (buildShareSubmission sha256d share entry userCfg
        crossProtocolCoinbaseAlreadySeen paddingByte).1.body =
      some (encodedSubmission sha256d share entry userCfg crossProtocolCoinbaseAlreadySeen) ↔
      expressible share entry userCfg crossProtocolCoinbaseAlreadySeen = true := by
  rw [encodedSubmission, ← fits_submissionOf_iff, ← parseShareSubmission_bytes_iff, ← shareBody_eq]
  rfl

end Building

def fullUser : ShareUserConfig where
  poolAddress := "pool"
  passFullUsers := true
  passWorkers := false

def nulShare : SubmittedShareInputs where
  username := "a\x00b"
  extranonce := ByteVec.fill 12 0
  ntime := 0
  nonce := 0
  version := 0
  currentDiff := 1
  patchedCoinb1Bin := none

def plainEntry : JobEntry where
  jobMeta := jobMetaOf 0 0 (plainState (fun _ => ByteVec.fill 32 0) emptyTemplate)
  templateSeed := 0
  serverHasMerkleBranches := false
  serverHasCoinbase := List.Vector.replicate 8 false

/-- The pool would read the user name of this share as ending before its zero byte. -/
theorem parse_nulShare_ne :
    parseShareSubmission (buildShareSubmission (fun _ => ByteVec.fill 32 0) nulShare plainEntry
        fullUser false 0).1.body ≠
      some (encodedSubmission (fun _ => ByteVec.fill 32 0) nulShare plainEntry fullUser false) := by
  decide +kernel

end DatumGateway.ShareBodyParsing

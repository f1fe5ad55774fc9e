import DatumGateway.ByteReader
import DatumGateway.ChannelTargets
import DatumGateway.ShareBodyParsing

namespace DatumGateway.BlockPayloads

open DatumGateway.BlockTemplate
open DatumGateway.ByteReader
open DatumGateway.ByteString
open DatumGateway.ChannelTargets
open DatumGateway.Coinbaser
open DatumGateway.CoinbaseSplit
open DatumGateway.JobTracker
open DatumGateway.MerkleBranches
open DatumGateway.SharedTemplate
open DatumGateway.ShareBodyParsing
open DatumGateway.ShareEncoder
open DatumGateway.StratumV1Assembler

theorem decode_pushVarintHex (v : ℕ) : Hex.decode (pushVarintHex v) = some (compactSize v) := by
  have htwo : Hex.decode "fd" = some [0xFD] := by decide
  have hfour : Hex.decode "fe" = some [0xFE] := by decide
  have height : Hex.decode "ff" = some [0xFF] := by decide
  rw [pushVarintHex, compactSize]
  split_ifs
  · exact Hex.decode_encode _
  · exact Hex.decode_append htwo (Hex.decode_encode _)
  · exact Hex.decode_append hfour (Hex.decode_encode _)
  · exact Hex.decode_append height (Hex.decode_encode _)

/-- The coinbase transaction that the share was hashed with. -/
def coinbaseOf (share : SubmittedShareInputs) (jobMeta : JobMeta) : Bytes :=
  coinb1Patched share jobMeta ++ share.extranonce.toList ++ jobMeta.coinb2Bin

theorem decode_blockHex {jobMeta : JobMeta} {txs : List Bytes}
    (htxs : jobMeta.txnDataHex.map Hex.decode = txs.map some) (share : SubmittedShareInputs)
    (header : Bytes) (shareHash : Bytes32) :
    Hex.decode (blockPayload share jobMeta header shareHash).blockHex =
      some (header ++ compactSize (jobMeta.txnCount.toNat + 1) ++ coinbaseOf share jobMeta ++
        txs.flatten) := by
  have hheader := Hex.decode_append (Hex.decode_encode header)
    (decode_pushVarintHex (jobMeta.txnCount.toNat + 1))
  have hcoinbase := Hex.decode_append hheader (Hex.decode_encode (coinbaseOf share jobMeta))
  exact Hex.decode_append hcoinbase (Hex.decode_join htxs)

section Hashing

variable (sha256d : Bytes → Bytes32)

theorem length_shareHeader (share : SubmittedShareInputs) (jobMeta : JobMeta) :
    (shareHeader sha256d share jobMeta).length = 80 := by
  simp [shareHeader, headerBytes]

theorem merkleRoot_of_shareHeader (share : SubmittedShareInputs) (jobMeta : JobMeta) :
    ((shareHeader sha256d share jobMeta).drop 36).take 32 =
      (foldMerkleBranches sha256d (sha256d (coinbaseOf share jobMeta))
        jobMeta.merkleBranchesBin).toList := by
  have hfront : (leBytes 4 share.version.toNat ++ jobMeta.prevhashBin.toList).length = 36 := by
    simp
  rw [shareHeader, headerBytes]
  simp only [List.append_assoc]
  rw [← List.append_assoc, List.drop_left' hfront]
  exact List.take_left' (List.Vector.toList_length _)

theorem flags_buildShareSubmission (share : SubmittedShareInputs) (entry : JobEntry)
    (userCfg : ShareUserConfig) (xprotSeen : Bool) (paddingByte : UInt8) :
    (buildShareSubmission sha256d share entry userCfg xprotSeen paddingByte).1.body.getD 3 0 =
      if hashMeetsTarget (sha256d (shareHeader sha256d share entry.jobMeta))
        entry.jobMeta.blockTarget then 0x01 else 0 := by
  simp only [buildShareSubmission, shareBody, ShareSubmissionPrefix.encode, List.append_assoc]
  rfl

theorem blockSubmission_buildShareSubmission (share : SubmittedShareInputs) (entry : JobEntry)
    (userCfg : ShareUserConfig) (xprotSeen : Bool) (paddingByte : UInt8) :
    (buildShareSubmission sha256d share entry userCfg xprotSeen paddingByte).1.blockSubmission =
      if hashMeetsTarget (sha256d (shareHeader sha256d share entry.jobMeta))
        entry.jobMeta.blockTarget then
        some (blockPayload share entry.jobMeta (shareHeader sha256d share entry.jobMeta)
          (sha256d (shareHeader sha256d share entry.jobMeta)))
      else none :=
  rfl

/-- The header, the flag, the hash and the block of a submission agree with each other and with
the template. -/
theorem block_payload_consistent (template : Template) (coinbaser : CoinbaserBlob)
    (scriptsig : ScriptSigInputs) (jobIdSeed : UInt64) (datumJobIdx coinbaseId : UInt8)
    (entry : JobEntry)
    (hmeta : entry.jobMeta = jobMetaOf datumJobIdx coinbaseId
      (fromTemplateAndBlob sha256d template coinbaser scriptsig jobIdSeed))
    (hcount : template.transactions.length < 2 ^ 32) (txs : List Bytes)
    (htxs : template.transactions.map (fun tx => Hex.decode tx.data) = txs.map some)
    (share : SubmittedShareInputs) (userCfg : ShareUserConfig) (xprotSeen : Bool)
    (paddingByte : UInt8) :
    let built := (buildShareSubmission sha256d share entry userCfg xprotSeen paddingByte).1
    let header := shareHeader sha256d share entry.jobMeta
    let isBlock := leValue (sha256d header).toList ≤ leValue entry.jobMeta.blockTarget.toList
    header.length = 80 ∧ (built.blockSubmission.isSome ↔ isBlock) ∧
      (built.body.getD 3 0 &&& 1 = 1 ↔ isBlock) ∧
      ∀ payload, built.blockSubmission = some payload →
        payload.blockHashHex = Hex.encode (sha256d header).toList.reverse ∧
        ∃ coinbase,
          Hex.decode payload.blockHex =
            some (header ++ compactSize (template.transactions.length + 1) ++ coinbase ++
              txs.flatten) ∧
          (header.drop 36).take 32 = (foldMerkleBranches sha256d (sha256d coinbase)
            entry.jobMeta.merkleBranchesBin).toList := by
  intro built header isBlock
  have hmeets : hashMeetsTarget (sha256d header) entry.jobMeta.blockTarget = true ↔ isBlock :=
    hashMeetsTarget_iff _ _
  have hdata : entry.jobMeta.txnDataHex.map Hex.decode = txs.map some := by
    rw [hmeta, ← htxs]
    exact List.map_map
  have hlength : entry.jobMeta.txnCount.toNat = template.transactions.length := by
    rw [hmeta]
    exact UInt32.toNat_ofNat_of_lt' hcount
  have hsubmission :=
    blockSubmission_buildShareSubmission sha256d share entry userCfg xprotSeen paddingByte
  refine ⟨length_shareHeader sha256d share entry.jobMeta, ?_, ?_, ?_⟩
  · rw [← hmeets, hsubmission]
    split_ifs with hblock
    · exact iff_of_true rfl hblock
    · exact iff_of_false nofun hblock
  · rw [← hmeets, flags_buildShareSubmission]
    split_ifs with hblock
    · exact iff_of_true rfl hblock
    · exact iff_of_false (by decide) hblock
  · intro payload hpayload
    rw [hsubmission] at hpayload
    obtain ⟨-, hpayload⟩ := Option.ite_none_right_eq_some.mp hpayload
    obtain rfl := Option.some.inj hpayload
    refine ⟨rfl, coinbaseOf share entry.jobMeta, ?_, merkleRoot_of_shareHeader sha256d share _⟩
    rw [decode_blockHex hdata, hlength]

end Hashing

def oneTxTemplate : Template :=
  { emptyTemplate with
    transactions := [{ data := "c0ffee", txid := "", sigops := 0, weight := 12 }] }

def oneTxEntry : JobEntry where
  jobMeta := jobMetaOf 0 0 (plainState (fun _ => ByteVec.fill 32 0) oneTxTemplate)
  templateSeed := 0
  serverHasMerkleBranches := true
  serverHasCoinbase := List.Vector.replicate 8 true

theorem block_payload_of_one_transaction :
    let built :=
      (buildShareSubmission (fun _ => ByteVec.fill 32 0) nulShare oneTxEntry fullUser false 0).1
    built.body.getD 3 0 &&& 1 = 1 ∧
      ∃ payload, built.blockSubmission = some payload ∧ ∃ header coinbase,
        Hex.decode payload.blockHex =
          some (header ++ [2] ++ coinbase ++ [[0xC0, 0xFF, 0xEE]].flatten) := by
  intro built
  obtain ⟨-, hsome, hflag, hpayload⟩ := block_payload_consistent (fun _ => ByteVec.fill 32 0)
    oneTxTemplate { datumId := 0, outputs := [] } {} 0 0 0 oneTxEntry rfl (by decide)
    [[0xC0, 0xFF, 0xEE]] (by decide) nulShare fullUser false 0
  have hblock : leValue (ByteVec.fill 32 0).toList ≤
      leValue oneTxEntry.jobMeta.blockTarget.toList := by decide
  obtain ⟨payload, hpresent⟩ := Option.isSome_iff_exists.mp (hsome.mpr hblock)
  obtain ⟨-, coinbase, hdecode, -⟩ := hpayload payload hpresent
  exact ⟨hflag.mpr hblock, payload, hpresent, _, coinbase, hdecode⟩

end DatumGateway.BlockPayloads

import DatumGateway.MerkleBranchSeparation
import DatumGateway.MiningListener

namespace DatumGateway.SubmittedHeader

open DatumGateway.BlockTemplate
open DatumGateway.ByteString
open DatumGateway.ChannelManager
open DatumGateway.JobTracker
open DatumGateway.MerkleBranches
open DatumGateway.MiningListener
open DatumGateway.SharedTemplate
open DatumGateway.ShareEncoder
open DatumGateway.SharePath
open DatumGateway.StratumV1Assembler

section Headers

variable (sha256d : Bytes → Bytes32)

def hashedHeader {σ : Type} (m : Manager σ) (tracker : Tracker) (s : Submission) : Option Bytes :=
  (acceptedBy m tracker s).map fun (channel, entry) =>
    shareHeader sha256d (submittedInputs channel s) entry.jobMeta

/-- The bytes that a miner puts together from a `SetNewPrevHash` and its own choices. -/
def workHeader (prevHash : SetNewPrevHash) (merkleRoot : Bytes32)
    (share : SubmitSharesStandard) : Bytes :=
  leBytes 4 share.version.toNat ++ prevHash.prevHash.toList ++ merkleRoot.toList ++
    leBytes 4 share.ntime.toNat ++ leBytes 4 prevHash.nbits.toNat ++ leBytes 4 share.nonce.toNat

/-- The header that a miner hashed for a share of the job it was sent on opening its channel;
none if the share does not answer that job. -/
def minedHeader : List MiningOut → Submission → Option Bytes
  | [.openExtendedMiningChannelSuccess success, .newExtendedMiningJob job,
      .setNewPrevHash prevHash], .extended share =>
      if share.channelId = job.channelId ∧ share.jobId = job.jobId ∧
          share.extranonce.length = success.extranonceSize.toNat then
        let coinbase := job.coinbaseTxPrefix ++ success.extranoncePrefix ++ share.extranonce ++
          job.coinbaseTxSuffix
        some (workHeader prevHash (job.merklePath.foldl (hashPair sha256d) (sha256d coinbase))
          share.toSubmitSharesStandard)
      else none
  | [.openStandardMiningChannelSuccess _, .newMiningJob job, .setNewPrevHash prevHash],
      .standard share =>
      if share.channelId = job.channelId ∧ share.jobId = job.jobId then
        some (workHeader prevHash job.merkleRoot share)
      else none
  | _, _ => none

end Headers

/-- The header over a given coinbase, with the fields that the template fixes. -/
def coinbaseHeader (sha256d : Bytes → Bytes32) (template : TemplateState) (coinbase : Bytes)
    (share : SubmitSharesStandard) : Bytes :=
  headerBytes share.version template.prevHash
    (foldMerkleBranches sha256d (sha256d coinbase) template.merkleBranches) share.ntime
    template.nbits share.nonce

theorem coinbaseHeader_root_eq {sha256d : Bytes → Bytes32} {template : TemplateState}
    {coinbase coinbase' : Bytes} {share : SubmitSharesStandard}
    (heq : coinbaseHeader sha256d template coinbase share =
      coinbaseHeader sha256d template coinbase' share) :
    foldMerkleBranches sha256d (sha256d coinbase) template.merkleBranches =
      foldMerkleBranches sha256d (sha256d coinbase') template.merkleBranches := by
  simp only [coinbaseHeader, headerBytes, List.append_left_inj, List.append_right_inj] at heq
  exact ByteVec.toList_injective heq

/-- The share is for the given job of a channel of the given kind, and rolls what that kind
leaves of the twelve extranonce bytes. -/
def Answers (kind : ChannelKind) (channelId jobId : UInt32) (s : Submission) : Prop :=
  s.kind = kind ∧ s.share.channelId = channelId ∧ s.share.jobId = jobId ∧
    prefixLength kind + s.extranonce.length = 12

theorem workHeader_buildSetNewPrevHash (channelId jobId : UInt32) (template : TemplateState)
    (merkleRoot : Bytes32) (share : SubmitSharesStandard) :
    workHeader (buildSetNewPrevHash channelId jobId template) merkleRoot share =
      headerBytes share.version template.prevHash merkleRoot share.ntime template.nbits
        share.nonce := by
  rw [workHeader, leBytes_nbits_buildSetNewPrevHash, headerBytes]
  rfl

theorem minedHeader_grantedFrames (sha256d : Bytes → Bytes32) (kind : ChannelKind)
    (requestId channelId jobId : UInt32) (target : Bytes32) (extranoncePrefix : Bytes)
    (template : TemplateState) (s : Submission) (header : Bytes) :
    minedHeader sha256d
        (grantedFrames sha256d kind requestId channelId jobId target extranoncePrefix template) s =
        some header ↔
      Answers kind channelId jobId s ∧
        coinbaseHeader sha256d template
          (template.coinb1 ++ extranoncePrefix ++ s.extranonce ++ template.coinb2) s.share =
          header := by
  cases kind with
  | extended =>
      cases s with
      | extended share =>
          have hsize : share.extranonce.length = UInt16.toNat 10 ↔
              2 + share.extranonce.length = 12 := by
            rw [show UInt16.toNat 10 = 10 from rfl]
            omega
          simp only [minedHeader, grantedFrames, newExtendedJob, Option.ite_none_right_eq_some,
            workHeader_buildSetNewPrevHash, List.foldl_map, Option.some.injEq, Answers,
            Submission.kind, Submission.share, Submission.extranonce, prefixLength, true_and,
            hsize]
          rfl
      | standard share =>
          simp [minedHeader, grantedFrames, Answers, Submission.kind]
  | standard =>
      cases s with
      | extended share =>
          simp [minedHeader, grantedFrames, Answers, Submission.kind]
      | standard share =>
          simp only [minedHeader, grantedFrames, buildNewMiningJob, Option.ite_none_right_eq_some,
            workHeader_buildSetNewPrevHash, Option.some.injEq, Answers, Submission.kind,
            Submission.share, Submission.extranonce, prefixLength, List.length_nil, true_and,
            and_true, List.append_nil]
          rfl

theorem hashedHeader_of_granted {sha256d : Bytes → Bytes32} {σ : Type} {kind : ChannelKind}
    {m : Manager σ} {msg : OpenMiningChannel} {template : TemplateState}
    {extranoncePrefix : Bytes} {target : Bytes32} {channel : OpenedChannel}
    {opened : List MiningOut × Manager σ}
    (hgranted : Granted sha256d kind m msg template extranoncePrefix target channel opened)
    (tracker : Tracker) {s : Submission} (hs : Answers kind m.nextChannelId m.nextJobId s) :
    hashedHeader sha256d opened.2 (seedJobTracker (some template) opened.1 tracker) s =
      some (coinbaseHeader sha256d template
        (template.coinb1.set template.targetPotIndex.toNat 3 ++ extranoncePrefix ++
          s.extranonce ++ template.coinb2) s.share) := by
  obtain ⟨hkind, hchannelId, hjobId, hlen⟩ := hs
  have hlookup : opened.2.channels.lookup s.share.channelId = some channel := by
    rw [hgranted.channels, hchannelId, AList.lookup_insert]
  have hget : (seedJobTracker (some template) opened.1 tracker).get s.jobKey =
      some (Tracker.freshEntry (jobMetaFromTemplate template 0 0) template.jobIdSeed) := by
    rw [hgranted.frames, seedJobTracker_grantedFrames, Submission.jobKey, hchannelId, hjobId,
      Tracker.get_insert]
  have hfits : fitsChannel channel s = true := by
    have hextended := hgranted.isExtended_channel
    subst hkind
    cases s with
    | extended share =>
        have hsize : share.extranonce.length = 10 := by
          have : 2 + share.extranonce.length = 12 := hlen
          omega
        rw [fitsChannel, hextended, hsize]
        rfl
    | standard share =>
        rw [fitsChannel, hextended]
        rfl
  have hfull : (fullExtranonce channel.extranoncePrefix s.extranonce).toList =
      extranoncePrefix ++ s.extranonce := by
    rw [hgranted.extranoncePrefix_channel]
    exact fullExtranonce_of_length (by rw [hgranted.length_extranoncePrefix, hlen])
  have haccepted := acceptedBy_eq_some_iff.mpr ⟨hlookup, hget, hfits⟩
  rw [hashedHeader, haccepted, Option.map_some]
  simp only [shareHeader, computeMerkleRoot, coinb1Patched, submittedInputs, finalizeInputs, hfull,
    coinbaseHeader, List.append_assoc]
  rfl

theorem exists_answers (kind : ChannelKind) (channelId jobId : UInt32) :
    ∃ s, Answers kind channelId jobId s := by
  cases kind with
  | extended =>
      exact ⟨.extended
        { channelId, sequenceNumber := 0, jobId, nonce := 0, ntime := 0, version := 0
          extranonce := List.replicate 10 0 }, rfl, rfl, rfl, rfl⟩
  | standard =>
      exact ⟨.standard
        { channelId, sequenceNumber := 0, jobId, nonce := 0, ntime := 0, version := 0 },
        rfl, rfl, rfl, rfl⟩

theorem set_eq_self_iff {α : Type*} {l : List α} {i : ℕ} (hi : i < l.length) (x : α) :
    l.set i x = l ↔ l[i]? = some x := by
  constructor
  · intro hset
    rw [← hset, List.getElem?_set_self hi]
  · intro hget
    obtain ⟨-, rfl⟩ := List.getElem?_eq_some_iff.mp hget
    exact List.set_getElem_self hi

/-- The gateway hashes the header that the miner hashed, for every hash function and every share
of a channel opened on the template, exactly when the byte it patches already holds the exponent
of the fixed difficulty. -/
theorem hashedHeader_eq_minedHeader_iff {σ : Type} (alloc : ExtranonceAllocator σ)
    (kind : ChannelKind) (m : Manager σ) (template : TemplateState) (msg : OpenMiningChannel)
    (tracker : Tracker) (sha256d₀ : Bytes → Bytes32)
    (hpot : template.targetPotIndex.toNat < template.coinb1.length)
    (hopen : refused (openChannel sha256d₀ alloc kind m (some template) msg).1 = false) :
    (∀ (sha256d : Bytes → Bytes32) (s : Submission) (header : Bytes),
      let opened := openChannel sha256d alloc kind m (some template) msg
      minedHeader sha256d opened.1 s = some header →
        hashedHeader sha256d opened.2 (seedJobTracker (some template) opened.1 tracker) s =
          some header) ↔
      template.coinb1[template.targetPotIndex.toNat]? = some 3 := by
  rcases openChannel_cases alloc kind m template msg with hrefused |
    ⟨extranoncePrefix, target, channel, hgranted⟩
  · obtain ⟨errorCode, hframes⟩ := (hrefused sha256d₀).frames
    rw [hframes] at hopen
    simp [refused] at hopen
  · rw [← set_eq_self_iff hpot]
    constructor
    · intro hequal
      obtain ⟨s, hs⟩ := exists_answers kind m.nextChannelId m.nextJobId
      by_contra hset
      have hcoinbases : template.coinb1.set template.targetPotIndex.toNat 3 ++ extranoncePrefix ++
            s.extranonce ++ template.coinb2 ≠
          template.coinb1 ++ extranoncePrefix ++ s.extranonce ++ template.coinb2 := by
        simpa using hset
      obtain ⟨sha256d, hroots⟩ := MerkleBranchSeparation.exists_hash_fold_ne hcoinbases
      have hmined := (minedHeader_grantedFrames sha256d kind msg.requestId m.nextChannelId
        m.nextJobId target extranoncePrefix template s _).mpr ⟨hs, rfl⟩
      have hheaders := hequal sha256d s _ (by rw [(hgranted sha256d).frames]; exact hmined)
      rw [hashedHeader_of_granted (hgranted sha256d) tracker hs] at hheaders
      exact hroots _ _ (coinbaseHeader_root_eq (Option.some.inj hheaders))
    · intro hset sha256d s header
      dsimp only
      rw [(hgranted sha256d).frames, minedHeader_grantedFrames]
      rintro ⟨hs, rfl⟩
      rw [← (hgranted sha256d).frames, hashedHeader_of_granted (hgranted sha256d) tracker hs,
        hset]

theorem hashedHeader_eq_minedHeader_of_pot_three :
    let template := plainState (fun _ => zeroHash) emptyTemplate { potPlaceholder := 3 }
    ∀ (sha256d : Bytes → Bytes32) (s : Submission) (header : Bytes),
      let opened :=
        openChannel sha256d countingAllocator .extended emptyManager (some template)
          plainOpenRequest
      minedHeader sha256d opened.1 s = some header →
        hashedHeader sha256d opened.2 (seedJobTracker (some template) opened.1 {}) s =
          some header :=
  (hashedHeader_eq_minedHeader_iff countingAllocator .extended emptyManager
    (plainState (fun _ => zeroHash) emptyTemplate { potPlaceholder := 3 }) plainOpenRequest {}
    (fun _ => zeroHash) (by decide +kernel) (by decide +kernel)).mpr (by decide +kernel)

def sumHash (bs : Bytes) : Bytes32 :=
  ByteVec.fill 32 bs.sum

/-- Under the default placeholder the first share of the first channel is hashed differently. -/
theorem hashedHeader_firstShare_ne :
    let template := plainState (fun _ => zeroHash) emptyTemplate
    let opened := openChannel sumHash countingAllocator .extended emptyManager (some template)
      plainOpenRequest
    let mined := minedHeader sumHash opened.1 firstShare
    mined.isSome ∧ hashedHeader sumHash opened.2
      (seedJobTracker (some template) opened.1 {}) firstShare ≠ mined := by
  decide +kernel

end DatumGateway.SubmittedHeader

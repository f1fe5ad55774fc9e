import DatumGateway.ChannelManager

namespace DatumGateway.HeaderAgreement

open DatumGateway.BlockTemplate
open DatumGateway.ByteString
open DatumGateway.ChannelManager
open DatumGateway.MerkleBranches
open DatumGateway.SharedTemplate
open DatumGateway.ShareEncoder
open DatumGateway.StratumV1Assembler

structure HeaderParts where
  prevHash : Bytes
  merkleRoot : Bytes
  nbits : Bytes
  deriving DecidableEq

section Readings

variable (sha256d : Bytes → Bytes32) (coinbaseTxid : Bytes32)

/-- The branch fold of a miner that hashes the branches as it received them. -/
def notifyRoot (merkleBranch : List String) : Option Bytes32 :=
  merkleBranch.foldlM
    (fun acc branch => (Hex.decode branch).map fun bytes => sha256d (acc.toList ++ bytes))
    coinbaseTxid

/-- What a miner reads from a notify: the words of the previous hash swapped, the
branches as they came, `nbits` little-endian. -/
def notifyParts (notify : NotifyParams) : Option HeaderParts := do
  let prevHash ← Hex.decode notify.prevHash
  let merkleRoot ← notifyRoot sha256d coinbaseTxid notify.merkleBranch
  let nbits ← Hex.decode notify.nbitsHex
  return { prevHash := swapWords prevHash, merkleRoot := merkleRoot.toList, nbits := nbits.reverse }

def relayParts (jobMeta : JobMeta) : HeaderParts where
  prevHash := jobMeta.prevhashBin.toList
  merkleRoot := (foldMerkleBranches sha256d coinbaseTxid jobMeta.merkleBranchesBin).toList
  nbits := jobMeta.nbitsBin.toList.reverse

def framesParts (job : NewExtendedMiningJob) (prevHash : SetNewPrevHash) : HeaderParts where
  prevHash := prevHash.prevHash.toList
  merkleRoot := (job.merklePath.foldl (hashPair sha256d) coinbaseTxid).toList
  nbits := leBytes 4 prevHash.nbits.toNat

end Readings

/-- The header of a share is written from the parts of its relay. -/
example (sha256d : Bytes → Bytes32) (share : SubmittedShareInputs) (jobMeta : JobMeta) :
    let coinbaseTxid := sha256d
      (coinb1Patched share jobMeta ++ share.extranonce.toList ++ jobMeta.coinb2Bin)
    let parts := relayParts sha256d coinbaseTxid jobMeta
    shareHeader sha256d share jobMeta =
      leBytes 4 share.version.toNat ++ parts.prevHash ++ parts.merkleRoot ++
        leBytes 4 share.ntime.toNat ++ parts.nbits ++ leBytes 4 share.nonce.toNat :=
  rfl

theorem framesParts_eq_relayParts (sha256d : Bytes → Bytes32) (coinbaseTxid : Bytes32)
    (channelId jobId : UInt32) (datumJobIdx coinbaseId : UInt8) (state : TemplateState)
    {job : NewExtendedMiningJob} (hjob : buildNewExtendedJob channelId jobId state = some job) :
    framesParts sha256d coinbaseTxid job (buildSetNewPrevHash channelId jobId state) =
      relayParts sha256d coinbaseTxid (jobMetaOf datumJobIdx coinbaseId state) := by
  obtain rfl := Option.some.inj (Option.ite_none_right_eq_some.mp hjob).2
  have hnbits := leBytes_nbits_buildSetNewPrevHash channelId jobId state
  simp only [framesParts, relayParts, jobMetaOf, newExtendedJob, foldMerkleBranches,
    List.foldl_map, hnbits]
  rfl

theorem notifyRoot_encode (sha256d : Bytes → Bytes32) (coinbaseTxid : Bytes32)
    (branches : List Bytes32) :
    notifyRoot sha256d coinbaseTxid (branches.map fun branch => Hex.encode branch.toList) =
      some (branches.foldl (hashPair sha256d) coinbaseTxid) := by
  induction branches generalizing coinbaseTxid with
  | nil => rfl
  | cons branch branches ih =>
      rw [List.map_cons, notifyRoot, List.foldlM_cons, Hex.decode_encode, Option.map_some,
        Option.bind_eq_bind, Option.bind_some, ← notifyRoot, ih, List.foldl_cons, hashPair]

theorem notifyParts_notifyFromTemplateState (sha256d : Bytes → Bytes32) (coinbaseTxid : Bytes32)
    (jobId : String) (datumJobIdx coinbaseId : UInt8) (state : TemplateState) (cleanJobs : Bool) :
    notifyParts sha256d coinbaseTxid
        (notifyFromTemplateState jobId datumJobIdx coinbaseId state cleanJobs).1 =
      some
        { prevHash := state.prevHash.toList.reverse
          merkleRoot := (state.merkleBranches.foldl (hashPair sha256d) coinbaseTxid).toList
          nbits := state.nbits.toList.reverse } := by
  have hlen : state.prevHash.toList.reverse.length = 32 := by
    rw [List.length_reverse, List.Vector.toList_length]
  have hswap : swapWords (swapWords state.prevHash.toList.reverse) =
      state.prevHash.toList.reverse :=
    swapWords_swapWords (by rw [hlen]; decide)
  simp only [notifyParts, notifyFromTemplateState, swapPrevHashForStratum, Hex.decode_encode,
    if_pos hlen, notifyRoot_encode, hswap, Option.bind_eq_bind, Option.bind_some, Option.pure_def]

theorem exists_last_not {α : Type*} (p : α → Prop) [DecidablePred p] {l : List α}
    (hl : ¬ ∀ x ∈ l, p x) :
    ∃ before x after, l = before ++ x :: after ∧ ¬ p x ∧ ∀ y ∈ after, p y := by
  induction l with
  | nil => simp at hl
  | cons x l ih =>
      by_cases hrest : ∀ y ∈ l, p y
      · refine ⟨[], x, l, rfl, ?_, hrest⟩
        intro hx
        exact hl (List.forall_mem_cons.mpr ⟨hx, hrest⟩)
      · obtain ⟨before, z, after, rfl, hz, hafter⟩ := ih hrest
        exact ⟨x :: before, z, after, rfl, hz, hafter⟩

/-- If the folds over the branches and over the reversed branches agree for every hash, each
branch reads the same in both directions. -/
theorem reverse_eq_of_folds_eq {branches : List Bytes32}
    (hfolds : ∀ (sha256d : Bytes → Bytes32) (coinbaseTxid : Bytes32),
      branches.foldl (hashPair sha256d) coinbaseTxid =
        foldMerkleBranches sha256d coinbaseTxid branches) :
    ∀ branch ∈ branches, branch.reverse = branch := by
  by_contra hbranches
  obtain ⟨before, last, after, rfl, hlast, hafter⟩ :=
    exists_last_not (fun branch : Bytes32 => branch.reverse = branch) hbranches
  -- this operation takes over the last such branch and keeps it from then on
  obtain ⟨sha256d, hsha⟩ := exists_hashPair_eq fun acc branch =>
    if branch = last ∨ branch = last.reverse then branch else acc
  replace hsha := congrFun₂ hsha
  have hkeep : ∀ acc : Bytes32, after.foldl (hashPair sha256d) acc = acc ∧
      foldMerkleBranches sha256d acc after = acc := by
    clear hfolds hbranches
    induction after with
    | nil => exact fun acc => ⟨rfl, rfl⟩
    | cons branch after ih =>
        intro acc
        have hbranch : branch.reverse = branch := hafter branch List.mem_cons_self
        have hother : ¬ (branch = last ∨ branch = last.reverse) := by
          rintro (rfl | rfl)
          · exact hlast hbranch
          · rw [ByteVec.reverse_reverse] at hbranch
            exact hlast hbranch.symm
        have hstep : hashPair sha256d acc branch = acc := by
          rw [hsha, if_neg hother]
        have hrest := ih (fun x hx => hafter x (List.mem_cons_of_mem _ hx)) acc
        rw [foldMerkleBranches] at hrest ⊢
        simpa only [List.foldl_cons, hbranch, hstep] using hrest
  have heq := hfolds sha256d zeroHash
  have hforward : ∀ acc, hashPair sha256d acc last = last := by
    intro acc
    rw [hsha, if_pos (Or.inl rfl)]
  have hbackward : ∀ acc, hashPair sha256d acc last.reverse = last.reverse := by
    intro acc
    rw [hsha, if_pos (Or.inr rfl)]
  rw [foldMerkleBranches, List.foldl_append, List.foldl_cons, hforward, (hkeep _).1,
    List.foldl_append, List.foldl_cons, hbackward, ← foldMerkleBranches, (hkeep _).2] at heq
  exact hlast heq.symm

/-- A notify, the frames of the other protocol and the share encoder agree on a template, for
every hash and every coinbase, exactly when its previous hash and its branches read the same in
both directions. -/
theorem notifyParts_eq_relayParts_iff (jobId : String) (datumJobIdx coinbaseId : UInt8)
    (state : TemplateState) (cleanJobs : Bool) (channelId sv2JobId : UInt32) :
    (∀ (sha256d : Bytes → Bytes32) (coinbaseTxid : Bytes32),
      let (notify, jobMeta) :=
        notifyFromTemplateState jobId datumJobIdx coinbaseId state cleanJobs
      notifyParts sha256d coinbaseTxid notify = some (relayParts sha256d coinbaseTxid jobMeta) ∧
        ∀ job, buildNewExtendedJob channelId sv2JobId state = some job →
          notifyParts sha256d coinbaseTxid notify = some (framesParts sha256d coinbaseTxid job
            (buildSetNewPrevHash channelId sv2JobId state))) ↔
      state.prevHash.reverse = state.prevHash ∧
        ∀ branch ∈ state.merkleBranches, branch.reverse = branch := by
  constructor
  · intro hagree
    have hparts := fun sha256d coinbaseTxid =>
      Option.some.inj ((notifyParts_notifyFromTemplateState sha256d coinbaseTxid jobId datumJobIdx
        coinbaseId state cleanJobs).symm.trans (hagree sha256d coinbaseTxid).1)
    simp only [relayParts, jobMetaOf, HeaderParts.mk.injEq] at hparts
    constructor
    · apply ByteVec.toList_injective
      rw [ByteVec.toList_reverse]
      exact (hparts (fun _ => zeroHash) zeroHash).1
    · apply reverse_eq_of_folds_eq
      intro sha256d coinbaseTxid
      exact ByteVec.toList_injective (hparts sha256d coinbaseTxid).2.1
  · rintro ⟨hprev, hbranches⟩ sha256d coinbaseTxid
    have hrelay : notifyParts sha256d coinbaseTxid
        (notifyFromTemplateState jobId datumJobIdx coinbaseId state cleanJobs).1 =
          some (relayParts sha256d coinbaseTxid (jobMetaOf datumJobIdx coinbaseId state)) := by
      have hfold : state.merkleBranches.foldl (hashPair sha256d) coinbaseTxid =
          foldMerkleBranches sha256d coinbaseTxid state.merkleBranches := by
        apply List.foldl_ext
        intro acc branch hbranch
        rw [hbranches branch hbranch]
      rw [notifyParts_notifyFromTemplateState, hfold, ← ByteVec.toList_reverse, hprev]
      rfl
    refine ⟨hrelay, fun job hjob => ?_⟩
    rw [framesParts_eq_relayParts sha256d coinbaseTxid channelId sv2JobId datumJobIdx coinbaseId
      state hjob]
    exact hrelay

/-- On top of the block with hash `00…01`, in internal order `01 00 … 00`, the miner hashes the
previous hash backwards. -/
theorem notifyParts_ne_relayParts :
    let state := plainState (fun _ => zeroHash) { emptyTemplate with
      previousBlockHash := Hex.encode (List.replicate 31 0 ++ [1]) }
    let (notify, jobMeta) := notifyFromTemplateState "1" 0 0 state true
    notifyParts (fun _ => zeroHash) zeroHash notify ≠
      some (relayParts (fun _ => zeroHash) zeroHash jobMeta) := by
  decide +kernel

end DatumGateway.HeaderAgreement

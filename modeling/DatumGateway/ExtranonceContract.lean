import DatumGateway.ChannelOpening
import DatumGateway.TransitionSystem

namespace DatumGateway.ExtranonceContract

open DatumGateway.ByteString
open DatumGateway.ChannelManager
open DatumGateway.ChannelOpening
open DatumGateway.ExtranonceSpace
open DatumGateway.FloatValues
open DatumGateway.JobTracker
open DatumGateway.KeyedMaps
open DatumGateway.ListPrefixes
open DatumGateway.MerkleBranches
open DatumGateway.MiningListener
open DatumGateway.OpenRequests
open DatumGateway.SharedTemplate
open DatumGateway.ShareEncoder
open DatumGateway.SharePath
open DatumGateway.StratumV1Assembler
open DatumGateway.TransitionSystem

/-- The request as it comes in; the handler does not look at the size. -/
structure OpenExtendedMiningChannel extends OpenMiningChannel where
  minExtranonceSize : UInt16

structure ChannelState (σ : Type) where
  manager : Manager σ
  /-- The size that each extended channel was told when it was opened. -/
  granted : KeyMap UInt32 UInt16 := ∅

inductive ChannelAction where
  | openExtended (templateRx : Option TemplateState) (msg : OpenExtendedMiningChannel)
  | openStandard (templateRx : Option TemplateState) (msg : OpenMiningChannel)
  | closeChannel (channelId : UInt32)
  | templateUpdate (template : TemplateState) (ids : List UInt32)

def noteGranted (granted : KeyMap UInt32 UInt16) : MiningOut → KeyMap UInt32 UInt16
  | .openExtendedMiningChannelSuccess success =>
      granted.insert success.channelId success.extranonceSize
  | _ => granted

section Steps

variable (sha256d : Bytes → Bytes32) {σ α : Type} (alloc : ExtranonceAllocator σ)
variable (acc : ShareAccounting α) (userCfg : ShareUserConfig)

def openStep (s : ChannelState σ) (kind : ChannelKind) (templateRx : Option TemplateState)
    (msg : OpenMiningChannel) : ChannelState σ :=
  let (outs, manager) := openChannel sha256d alloc kind s.manager templateRx msg
  { manager, granted := outs.foldl noteGranted s.granted }

def channelStep (s : ChannelState σ) : ChannelAction → Option (ChannelState σ)
  | .openExtended templateRx msg =>
      some (openStep sha256d alloc s .extended templateRx msg.toOpenMiningChannel)
  | .openStandard templateRx msg => some (openStep sha256d alloc s .standard templateRx msg)
  | .closeChannel channelId =>
      some { s with manager := handleCloseChannel alloc s.manager channelId }
  | .templateUpdate template ids =>
      some { s with manager := (onTemplateUpdate sha256d template s.manager ids).2 }

def newConnection (allocator : σ) (minHashrateThreshold : FloatValue) (minTargetLe : Bytes32) :
    ChannelState σ where
  manager := withPolicy allocator minHashrateThreshold minTargetLe

/-- The partition of the 12 bytes leaves as many as are asked for, and nothing else is in the way
of the request. -/
structure Meetable (m : Manager σ) (templateRx : Option TemplateState)
    (msg : OpenExtendedMiningChannel) : Prop where
  grantable : Grantable alloc .extended m templateRx msg.toOpenMiningChannel
  size : msg.minExtranonceSize.toNat + prefixLength .extended ≤ 12

/-- The answer to a request grants what it asks for, or is an error. -/
structure AnswersRequest (m : Manager σ) (templateRx : Option TemplateState)
    (msg : OpenExtendedMiningChannel) (outs : List MiningOut) : Prop where
  enough : ∀ success, .openExtendedMiningChannelSuccess success ∈ outs →
    msg.minExtranonceSize ≤ success.extranonceSize ∧
      success.extranonceSize.toNat + success.extranoncePrefix.length = 12
  refused : ¬ Meetable alloc m templateRx msg →
    ∃ errorCode, outs = [.openMiningChannelError msg.requestId errorCode]

/-- The header of a share of the job, over the coinbase with these extranonce bytes. -/
def headerOver (inputs : SubmittedShareInputs) (jobMeta : JobMeta) (extranonce : Bytes) : Bytes :=
  headerBytes inputs.version jobMeta.prevhashBin
    (foldMerkleBranches sha256d
      (sha256d (coinb1Patched inputs jobMeta ++ extranonce ++ jobMeta.coinb2Bin))
      jobMeta.merkleBranchesBin)
    inputs.ntime jobMeta.nbitsBin inputs.nonce

/-- An accepted share has as many bytes as were granted, and what is hashed for it is the prefix
and these bytes. -/
structure AcceptsPlaced (channel : OpenedChannel) (size : UInt16)
    (templateRx : Option TemplateState) (tracker : Tracker) (paddingByte : UInt8)
    (share : SubmitSharesExtended) (body : Bytes) : Prop where
  length : share.extranonce.length = size.toNat
  hashed : ∃ entry, tracker.get (.sv2 share.channelId share.jobId) = some entry ∧
    let inputs := submittedInputs channel (.extended share)
    let xprotSeen := tracker.crossProtocolCoinbaseAlreadySeen (templateSeed templateRx)
      entry.jobMeta.coinbaseId
    body = (buildShareSubmission sha256d inputs entry userCfg xprotSeen paddingByte).1.body ∧
      shareHeader sha256d inputs entry.jobMeta =
        headerOver sha256d inputs entry.jobMeta (channel.extranoncePrefix ++ share.extranonce)

structure PlacesShares (m : Manager σ) (cid : UInt32) (channel : OpenedChannel) (size : UInt16) :
    Prop where
  partition : size.toNat + channel.extranoncePrefix.length = 12
  accepted : ∀ templateRx accounting tracker paddingByte share body, share.channelId = cid →
    outcomeBody (handleSubmitExtended sha256d acc m templateRx userCfg accounting tracker share
      paddingByte).1 = some body →
    AcceptsPlaced sha256d userCfg channel size templateRx tracker paddingByte share body

structure KeepsContract (s : ChannelState σ) : Prop where
  placed : ∀ cid channel, s.manager.channels.lookup cid = some channel →
    channel.isExtended = true → ∃ size, s.granted.lookup cid = some size ∧
      PlacesShares sha256d acc userCfg s.manager cid channel size
  injective : ∀ cid cid' p q x y, prefixAt s.manager cid = some p →
    prefixAt s.manager cid' = some q → p ++ x = q ++ y → cid = cid' ∧ x = y

/-- The whole contract, for a step: an extended request is answered as it asks, and the open
channels are as they were told. -/
def StepKeepsContract (s : ChannelState σ) (a : ChannelAction) (t : ChannelState σ) : Prop :=
  (∀ templateRx msg, a = .openExtended templateRx msg →
    AnswersRequest alloc s.manager templateRx msg
      (openChannel sha256d alloc .extended s.manager templateRx msg.toOpenMiningChannel).1) ∧
    KeepsContract sha256d acc userCfg t

/-- Ten bytes are enough for the request, or it is refused for another reason. -/
def AsksForTen (s : ChannelState σ) : ChannelAction → Prop
  | .openExtended templateRx msg =>
      Grantable alloc .extended s.manager templateRx msg.toOpenMiningChannel →
        msg.minExtranonceSize ≤ 10
  | _ => True

end Steps

section Shares

variable (sha256d : Bytes → Bytes32) {σ α : Type} (acc : ShareAccounting α)
variable (userCfg : ShareUserConfig)

theorem placesShares {m : Manager σ} {cid : UInt32} {channel : OpenedChannel}
    (hchannel : m.channels.lookup cid = some channel) (hextended : channel.isExtended = true)
    (hprefixes : channel.extranoncePrefix.length = 2) :
    PlacesShares sha256d acc userCfg m cid channel 10 := by
  constructor
  · rw [hprefixes]
    rfl
  · rintro templateRx accounting tracker paddingByte share body rfl hbody
    cases haccepted : acceptedBy m tracker (.extended share) with
    | none =>
        obtain ⟨errorCode, accounting', hrejected⟩ : ∃ errorCode accounting',
            handleSubmitExtended sha256d acc m templateRx userCfg accounting tracker share
              paddingByte = (.rejected errorCode, accounting', tracker) :=
          handleSubmit_of_acceptedBy_none sha256d acc haccepted
        rw [hrejected] at hbody
        cases hbody
    | some found =>
        obtain ⟨channel', entry⟩ := found
        have hencoded : handleSubmitExtended sha256d acc m templateRx userCfg accounting tracker
            share paddingByte = _ :=
          handleSubmit_of_acceptedBy_some sha256d acc haccepted
        rw [hencoded, outcomeBody_shareOutcome] at hbody
        obtain ⟨hlookup, hentry, hfits⟩ := acceptedBy_eq_some_iff.mp haccepted
        obtain rfl := Option.some.inj (hchannel.symm.trans hlookup)
        have hlength : share.extranonce.length = 10 := by
          simpa [fitsChannel, hextended] using hfits
        have hplaced : (submittedInputs channel (.extended share)).extranonce.toList =
            channel.extranoncePrefix ++ share.extranonce :=
          fullExtranonce_of_length (by rw [hprefixes, Submission.extranonce, hlength])
        refine ⟨hlength, entry, hentry, (Option.some.inj hbody).symm, ?_⟩
        rw [shareHeader, computeMerkleRoot, hplaced]
        rfl

end Shares

section Invariant

variable (sha256d : Bytes → Bytes32) {σ α : Type} {alloc : ExtranonceAllocator σ}
variable (acc : ShareAccounting α) (userCfg : ShareUserConfig) (held : σ → Set Bytes)

/-- Every extended channel that is open was told ten bytes, and has a prefix of the other two. -/
structure TenGranted (s : ChannelState σ) : Prop where
  kept : WellKept held s.manager
  granted : ∀ cid channel, s.manager.channels.lookup cid = some channel →
    channel.isExtended = true →
      s.granted.lookup cid = some 10 ∧ channel.extranoncePrefix.length = 2

variable {held}

theorem tenGranted_newConnection (allocator : σ) (minHashrateThreshold : FloatValue)
    (minTargetLe : Bytes32) :
    TenGranted held (newConnection allocator minHashrateThreshold minTargetLe) := by
  refine ⟨⟨?_, ?_, ?_⟩, ?_⟩
  · intro cid p hp
    cases hp
  · intro cid p hp
    cases hp
  · intro cid cid' p q hne hp
    cases hp
  · intro cid channel hchannel
    cases hchannel

theorem foldl_noteGranted_grantedFrames (granted : KeyMap UInt32 UInt16) (kind : ChannelKind)
    (requestId channelId jobId : UInt32) (target : Bytes32) (p : Bytes)
    (template : TemplateState) :
    (grantedFrames sha256d kind requestId channelId jobId target p template).foldl noteGranted
        granted =
      match kind with
      | .extended => granted.insert channelId 10
      | .standard => granted := by
  cases kind with
  | extended => rfl
  | standard => rfl

theorem TenGranted.openStep (htracks : TracksIndices alloc held) {s : ChannelState σ}
    (hten : TenGranted held s) (kind : ChannelKind) (templateRx : Option TemplateState)
    (msg : OpenMiningChannel) :
    TenGranted held (openStep sha256d alloc s kind templateRx msg) := by
  refine ⟨hten.kept.openOutcome (htracks.openChannel sha256d kind s.manager templateRx msg), ?_⟩
  unfold ExtranonceContract.openStep
  have hopening := openChannel_opening sha256d alloc kind s.manager templateRx msg
  generalize openChannel sha256d alloc kind s.manager templateRx msg = opened at hopening
  cases hopening with
  | refused errorCode hnot => exact hten.granted
  | undone errorCode p allocator hnot halloc => exact hten.granted
  | granted template userIdentity maxTargetLe p allocator hgrantable hadmitted htemplate halloc =>
      intro cid channel hchannel hextended
      dsimp only at hchannel ⊢
      rw [foldl_noteGranted_grantedFrames]
      have hlength := length_allocate alloc halloc
      rcases lookup_insert_eq_some_iff.mp hchannel with ⟨rfl, rfl⟩ | ⟨hne, hold⟩
      · obtain rfl : kind = .extended := of_decide_eq_true hextended
        exact ⟨AList.lookup_insert _, hlength⟩
      · obtain ⟨hgranted, hprefixes⟩ := hten.granted cid channel hold hextended
        refine ⟨?_, hprefixes⟩
        cases kind with
        | extended => exact (AList.lookup_insert_ne hne).trans hgranted
        | standard => exact hgranted

theorem TenGranted.channelStep (htracks : TracksIndices alloc held) {s t : ChannelState σ}
    {a : ChannelAction} (hten : TenGranted held s)
    (hstep : channelStep sha256d alloc s a = some t) : TenGranted held t := by
  cases a with
  | openExtended templateRx msg =>
      obtain rfl := Option.some.inj hstep
      exact hten.openStep sha256d htracks .extended templateRx msg.toOpenMiningChannel
  | openStandard templateRx msg =>
      obtain rfl := Option.some.inj hstep
      exact hten.openStep sha256d htracks .standard templateRx msg
  | closeChannel channelId =>
      obtain rfl := Option.some.inj hstep
      refine ⟨hten.kept.handleCloseChannel htracks channelId, ?_⟩
      intro cid channel hchannel
      refine hten.granted cid channel ?_
      unfold handleCloseChannel at hchannel
      cases hclosed : s.manager.channels.lookup channelId with
      | none =>
          rw [hclosed] at hchannel
          exact hchannel
      | some closed =>
          rw [hclosed] at hchannel
          exact (lookup_erase_eq_some_iff.mp hchannel).2
  | templateUpdate template ids =>
      obtain rfl := Option.some.inj hstep
      refine ⟨hten.kept.onTemplateUpdate sha256d template ids, ?_⟩
      intro cid channel hchannel hextended
      let shown : OpenedChannel → Bool × Bytes := fun c => (c.isExtended, c.extranoncePrefix)
      have hshown := onTemplateUpdate_keeps sha256d
        (f := fun m : Manager σ => (m.channels.lookup cid).map shown)
        (fun m id => map_lookup_updateChannel sha256d (fun _ _ => rfl) template m id cid)
        s.manager ids
      rw [hchannel, Option.map_some, eq_comm, Option.map_eq_some_iff] at hshown
      obtain ⟨before, hbefore, hsame⟩ := hshown
      obtain ⟨hkind, hprefixes⟩ := Prod.mk.inj hsame
      obtain ⟨hgranted, hlength⟩ := hten.granted cid before hbefore (hkind.trans hextended)
      exact ⟨hgranted, by rw [← hprefixes, hlength]⟩

theorem TenGranted.keepsContract {s : ChannelState σ} (hten : TenGranted held s) :
    KeepsContract sha256d acc userCfg s := by
  constructor
  · intro cid channel hchannel hextended
    obtain ⟨hgranted, hprefixes⟩ := hten.granted cid channel hchannel hextended
    exact ⟨10, hgranted, placesShares sha256d acc userCfg hchannel hextended hprefixes⟩
  · intro cid cid' p q x y hp hq heq
    by_cases hcid : cid = cid'
    · subst hcid
      obtain rfl := Option.some.inj (hp.symm.trans hq)
      exact ⟨rfl, List.append_cancel_left heq⟩
    · have hcomparable : Comparable p q := by
        apply List.prefix_or_prefix_of_prefix
        · exact List.prefix_append p x
        · rw [heq]
          exact List.prefix_append q y
      exact absurd hcomparable (hten.kept.apart cid cid' p q hcid hp hq)

end Invariant

theorem answersRequest_iff (sha256d : Bytes → Bytes32) {σ : Type} (alloc : ExtranonceAllocator σ)
    (m : Manager σ) (templateRx : Option TemplateState) (msg : OpenExtendedMiningChannel) :
    AnswersRequest alloc m templateRx msg
        (openChannel sha256d alloc .extended m templateRx msg.toOpenMiningChannel).1 ↔
      (Grantable alloc .extended m templateRx msg.toOpenMiningChannel →
        msg.minExtranonceSize ≤ 10) := by
  have hopening := openChannel_opening sha256d alloc .extended m templateRx
    msg.toOpenMiningChannel
  generalize openChannel sha256d alloc .extended m templateRx msg.toOpenMiningChannel = opened
    at hopening
  have herror : ∀ errorCode, AnswersRequest alloc m templateRx msg
      [.openMiningChannelError msg.requestId errorCode] := by
    intro errorCode
    refine ⟨?_, fun _ => ⟨errorCode, rfl⟩⟩
    intro success hsuccess
    simp at hsuccess
  cases hopening with
  | refused errorCode hnot => exact iff_of_true (herror errorCode) fun h => absurd h hnot
  | undone errorCode p allocator hnot halloc =>
      exact iff_of_true (herror errorCode) fun h => absurd h hnot
  | granted template userIdentity maxTargetLe p allocator hgrantable hadmitted htemplate halloc =>
      have hlength := length_allocate alloc halloc
      constructor
      · intro hanswers _
        exact (hanswers.enough _ (List.mem_cons_self ..)).1
      · intro hsize
        have hten := hsize hgrantable
        constructor
        · intro success hsuccess
          simp only [grantedFrames, List.mem_cons, MiningOut.openExtendedMiningChannelSuccess.injEq,
            reduceCtorEq, List.not_mem_nil, or_false] at hsuccess
          subst hsuccess
          exact ⟨hten, by rw [hlength]; rfl⟩
        · intro hunmet
          refine absurd ⟨hgrantable, ?_⟩ hunmet
          have hle := UInt16.le_iff_toNat_le.mp hten
          simp only [prefixLength]
          change msg.minExtranonceSize.toNat ≤ 10 at hle
          omega

/-- The contract is kept in every step exactly if no request that gets through asks for more than
ten bytes. -/
theorem keepsContract_iff (sha256d : Bytes → Bytes32) {σ α : Type} (alloc : ExtranonceAllocator σ)
    (acc : ShareAccounting α) (userCfg : ShareUserConfig) (held : σ → Set Bytes)
    (htracks : TracksIndices alloc held) (allocator : σ) (minHashrateThreshold : FloatValue)
    (minTargetLe : Bytes32) (actions : List ChannelAction) :
    EveryStep (channelStep sha256d alloc) (StepKeepsContract sha256d alloc acc userCfg)
        (newConnection allocator minHashrateThreshold minTargetLe) actions ↔
      Guarded (channelStep sha256d alloc) (AsksForTen alloc)
        (newConnection allocator minHashrateThreshold minTargetLe) actions := by
  refine everyStep_iff_guarded_of_invariant (TenGranted held)
    (fun s a t hten hstep => hten.channelStep sha256d htracks hstep) ?_
    (tenGranted_newConnection allocator minHashrateThreshold minTargetLe) actions
  intro s a t hten hstep
  have hkeeps : KeepsContract sha256d acc userCfg t :=
    (hten.channelStep sha256d htracks hstep).keepsContract sha256d acc userCfg
  unfold StepKeepsContract
  simp only [hkeeps, and_true]
  cases a with
  | openExtended templateRx msg =>
      rw [AsksForTen, ← answersRequest_iff sha256d]
      constructor
      · intro hanswers
        exact hanswers templateRx msg rfl
      · rintro hanswers _ _ ⟨⟩
        exact hanswers
  | openStandard templateRx msg => simp [AsksForTen]
  | closeChannel channelId => simp [AsksForTen]
  | templateUpdate template ids => simp [AsksForTen]

theorem tracksIndices_leastFreeAllocator : TracksIndices leastFreeAllocator livePrefixes := by
  have hallocated : ∀ kind s p s', allocate leastFreeAllocator kind s = some (p, s') →
      (∀ q ∈ livePrefixes s, q.take 2 ≠ p.take 2) ∧ p ∈ livePrefixes s' ∧
        livePrefixes s ⊆ livePrefixes s' := by
    intro kind s p s' halloc
    obtain ⟨hindex, rfl⟩ := allocate_leastFreeAllocator halloc
    refine ⟨hindex, Finset.mem_insert_self p s, ?_⟩
    intro q hq
    exact Finset.mem_insert_of_mem hq
  constructor
  · intro _ s p s' halloc
    exact hallocated .extended s p s' halloc
  · intro s p s' halloc
    exact hallocated .standard s p s' halloc
  · intro p s q hq hne
    exact Finset.mem_erase.mpr ⟨hne, hq⟩

def requestFor (minExtranonceSize : UInt16) : OpenExtendedMiningChannel :=
  { plainOpenRequest with minExtranonceSize }

def firstTemplate : Option TemplateState :=
  some (plainState (fun _ => ByteVec.fill 32 0) BlockTemplate.emptyTemplate)

def firstConnection : ChannelState (Finset Bytes) :=
  newConnection ∅ (.finite 0) (ByteVec.fill 32 255)

def poolAccount : ShareUserConfig where
  poolAddress := ""
  passFullUsers := false
  passWorkers := false

theorem keepsContract_for_eight_bytes :
    let step := channelStep (fun _ => ByteVec.fill 32 0) leastFreeAllocator
    let actions : List ChannelAction :=
      [.openExtended firstTemplate (requestFor 8), .openStandard firstTemplate plainOpenRequest]
    (runActions step firstConnection actions).any
        (fun t => decide (t.granted.lookup 1 = some 10 ∧ prefixAt t.manager 1 = some [0, 0] ∧
          prefixAt t.manager 2 = some [0, 1, 0, 0, 0, 0, 0, 0, 0, 0, 0, 0])) = true ∧
      EveryStep step (StepKeepsContract (fun _ => ByteVec.fill 32 0) leastFreeAllocator
        plainAccounting poolAccount) firstConnection actions := by
  intro step actions
  refine ⟨by decide +kernel, ?_⟩
  refine (keepsContract_iff (fun _ => ByteVec.fill 32 0) leastFreeAllocator plainAccounting
    poolAccount livePrefixes tracksIndices_leastFreeAllocator ∅ (.finite 0) (ByteVec.fill 32 255)
    actions).mpr ?_
  intro s hs
  refine ⟨fun _ => by decide, ?_⟩
  intro t ht
  exact ⟨trivial, trivial⟩

theorem eleven_bytes_granted_ten :
    ¬ EveryStep (channelStep (fun _ => ByteVec.fill 32 0) leastFreeAllocator)
      (StepKeepsContract (fun _ => ByteVec.fill 32 0) leastFreeAllocator plainAccounting
        poolAccount) firstConnection [.openExtended firstTemplate (requestFor 11)] := by
  intro hevery
  obtain ⟨⟨hanswers, -⟩, -⟩ := hevery _ rfl
  have hmissing : ¬ Meetable leastFreeAllocator firstConnection.manager firstTemplate
      (requestFor 11) := by
    rintro ⟨-, hsize⟩
    exact absurd hsize (by decide)
  obtain ⟨errorCode, herror⟩ := (hanswers firstTemplate (requestFor 11) rfl).refused hmissing
  have hgranted : refused (openChannel (fun _ => ByteVec.fill 32 0) leastFreeAllocator .extended
      firstConnection.manager firstTemplate (requestFor 11).toOpenMiningChannel).1 = false := by
    decide +kernel
  rw [herror] at hgranted
  cases hgranted

end DatumGateway.ExtranonceContract

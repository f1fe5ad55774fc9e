import DatumGateway.SharePath

namespace DatumGateway.MiningListener

open DatumGateway.ByteString
open DatumGateway.ChannelManager
open DatumGateway.JobTracker
open DatumGateway.SharedTemplate
open DatumGateway.ShareEncoder
open DatumGateway.SharePath
open DatumGateway.StratumV1Assembler

def jobMetaFromTemplate (template : TemplateState) (datumJobIdx coinbaseId : UInt8) : JobMeta :=
  jobMetaOf datumJobIdx coinbaseId template

def emittedKey : MiningOut → Option JobKey
  | .newExtendedMiningJob j => some (.sv2 j.channelId j.jobId)
  | .newMiningJob j => some (.sv2 j.channelId j.jobId)
  | _ => none

/-- `templateRx` is the template that the listener reads now, after the frames were built. -/
def seedJobTracker (templateRx : Option TemplateState) (outs : List MiningOut)
    (tracker : Tracker) : Tracker :=
  match templateRx with
  | none => tracker
  | some template =>
      (outs.filterMap emittedKey).foldl
        (fun tracker key =>
          tracker.insert key (jobMetaFromTemplate template 0 0) template.jobIdSeed)
        tracker

/-- What every insertion of a job of the template keeps, the seeding of a channel keeps. -/
theorem seedJobTracker_induction {p : Tracker → Prop} {templateRx : Option TemplateState}
    {outs : List MiningOut} {tracker : Tracker} (hstart : p tracker)
    (hinsert : ∀ template ∈ templateRx, ∀ key tracker, p tracker →
      p (tracker.insert key (jobMetaFromTemplate template 0 0) template.jobIdSeed)) :
    p (seedJobTracker templateRx outs tracker) := by
  cases templateRx with
  | none => exact hstart
  | some template =>
      unfold seedJobTracker
      dsimp only
      generalize outs.filterMap emittedKey = keys
      induction keys generalizing tracker with
      | nil => exact hstart
      | cons key keys ih => exact ih (hinsert template rfl key tracker hstart)

section Connection

variable (sha256d : Bytes → Bytes32) {σ α : Type} (alloc : ExtranonceAllocator σ)
variable (acc : ShareAccounting α)

inductive ChannelKind where
  | extended
  | standard
  deriving DecidableEq, Repr

def openChannel (kind : ChannelKind) (m : Manager σ) (templateRx : Option TemplateState)
    (msg : OpenMiningChannel) : List MiningOut × Manager σ :=
  match kind with
  | .extended => handleOpenExtendedMiningChannel alloc m templateRx msg
  | .standard => handleOpenStandardMiningChannel sha256d alloc m templateRx msg

def refused : List MiningOut → Bool
  | [.openMiningChannelError _ _] => true
  | _ => false

def grantedFrames (kind : ChannelKind) (requestId channelId jobId : UInt32) (target : Bytes32)
    (extranoncePrefix : Bytes) (template : TemplateState) : List MiningOut :=
  match kind with
  | .extended =>
      [.openExtendedMiningChannelSuccess
        { requestId, channelId, target, extranonceSize := 10, extranoncePrefix
          groupChannelId := 0 },
        .newExtendedMiningJob (newExtendedJob channelId jobId template),
        .setNewPrevHash (buildSetNewPrevHash channelId jobId template)]
  | .standard =>
      [.openStandardMiningChannelSuccess
        { requestId, channelId, target, extranoncePrefix, groupChannelId := 0 },
        .newMiningJob (buildNewMiningJob sha256d channelId jobId extranoncePrefix template),
        .setNewPrevHash (buildSetNewPrevHash channelId jobId template)]

def prefixLength : ChannelKind → ℕ
  | .extended => 2
  | .standard => 12

/-- A granted request takes the next channel and job id, and the channel it opens is stored
with the prefix that the frames tell. -/
structure Granted (kind : ChannelKind) (m : Manager σ) (msg : OpenMiningChannel)
    (template : TemplateState) (extranoncePrefix : Bytes) (target : Bytes32)
    (channel : OpenedChannel) (opened : List MiningOut × Manager σ) : Prop where
  length_extranoncePrefix : extranoncePrefix.length = prefixLength kind
  frames : opened.1 = grantedFrames sha256d kind msg.requestId m.nextChannelId m.nextJobId target
    extranoncePrefix template
  extranoncePrefix_channel : channel.extranoncePrefix = extranoncePrefix
  isExtended_channel : channel.isExtended = decide (kind = .extended)
  lastJobId_channel : channel.lastJobId = m.nextJobId
  channels : opened.2.channels = m.channels.insert m.nextChannelId channel
  nextChannelId : opened.2.nextChannelId = m.nextChannelId + 1
  nextJobId : opened.2.nextJobId = m.nextJobId + 1

structure Refused (m : Manager σ) (msg : OpenMiningChannel)
    (opened : List MiningOut × Manager σ) : Prop where
  frames : ∃ errorCode, opened.1 = [.openMiningChannelError msg.requestId errorCode]
  channels : opened.2.channels = m.channels

theorem handleOpen_cases (m : Manager σ) (msg : OpenMiningChannel) :
    (∃ errorCode, ∀ inner, handleOpen m msg inner =
      ([.openMiningChannelError msg.requestId errorCode], m)) ∨
      ∃ userIdentity maxTargetLe,
        (msg.userIdentity ≠ [] ∧ Utf8Text.decodeStrict msg.userIdentity = some userIdentity ∧
          (msg.nominalHashRate.isFinite = true ∧ msg.nominalHashRate.atMost 0 = false ∧
            msg.nominalHashRate.lt m.minHashrateThreshold = false) ∧
          ByteVec.ofBytes? 32 msg.maxTarget = some maxTargetLe) ∧
        ∀ inner, handleOpen m msg inner =
          openReply msg.requestId (inner userIdentity maxTargetLe) := by
  unfold handleOpen
  by_cases hnamed : msg.userIdentity = []
  · rw [if_pos hnamed]
    exact Or.inl ⟨_, fun _ => rfl⟩
  · rw [if_neg hnamed]
    cases huser : Utf8Text.decodeStrict msg.userIdentity with
    | none => exact Or.inl ⟨_, fun _ => rfl⟩
    | some userIdentity =>
        dsimp only
        split_ifs with hrate
        · exact Or.inl ⟨_, fun _ => rfl⟩
        · cases htarget : ByteVec.ofBytes? 32 msg.maxTarget with
          | none => exact Or.inl ⟨_, fun _ => rfl⟩
          | some maxTargetLe =>
              simp only [Bool.or_eq_true, not_or, Bool.not_eq_true, Bool.not_eq_false'] at hrate
              obtain ⟨⟨hfinite, hzero⟩, hbelow⟩ := hrate
              exact Or.inr ⟨userIdentity, maxTargetLe,
                ⟨hnamed, rfl, ⟨hfinite, hzero, hbelow⟩, rfl⟩, fun _ => rfl⟩

theorem openChannel_outcomes (kind : ChannelKind) (m : Manager σ) (template : TemplateState)
    (msg : OpenMiningChannel) :
    (∃ errorCode, ∀ sha256d, openChannel sha256d alloc kind m (some template) msg =
        ([.openMiningChannelError msg.requestId errorCode], m)) ∨
      (¬ FitsJobFrame template ∧
        ∀ sha256d, Refused m msg (openChannel sha256d alloc kind m (some template) msg)) ∨
      ∃ extranoncePrefix target channel, ∀ sha256d,
        Granted sha256d kind m msg template extranoncePrefix target channel
          (openChannel sha256d alloc kind m (some template) msg) := by
  rcases handleOpen_cases m msg with
    ⟨errorCode, herror⟩ | ⟨userIdentity, maxTargetLe, -, hopen⟩
  · left
    refine ⟨errorCode, fun sha256d => ?_⟩
    cases kind with
    | extended => rw [openChannel, handleOpenExtendedMiningChannel, herror]
    | standard => rw [openChannel, handleOpenStandardMiningChannel, herror]
  · cases kind with
    | extended =>
        simp only [openChannel, handleOpenExtendedMiningChannel, hopen, openExtendedInner]
        cases halloc : alloc.allocateExtended 10 m.allocator with
        | none => exact Or.inl ⟨_, fun _ => rfl⟩
        | some allocated =>
            obtain ⟨extranoncePrefix, allocator⟩ := allocated
            have hlen := alloc.length_allocateExtended _ _ _ _ halloc
            by_cases hfits : FitsJobFrame template
            · right; right
              simp only [buildNewExtendedJob_of_fits hfits, hlen, Nat.reduceLT, if_false]
              exact ⟨extranoncePrefix, _, _, fun _ => ⟨hlen, rfl, rfl, rfl, rfl, rfl, rfl, rfl⟩⟩
            · right; left
              refine ⟨hfits, ?_⟩
              rw [FitsJobFrame] at hfits
              simp only [buildNewExtendedJob, if_neg hfits]
              exact fun _ => ⟨⟨_, rfl⟩, rfl⟩
    | standard =>
        simp only [openChannel, handleOpenStandardMiningChannel, hopen, openStandardInner]
        cases halloc : alloc.allocateStandard m.allocator with
        | none => exact Or.inl ⟨_, fun _ => rfl⟩
        | some allocated =>
            obtain ⟨extranoncePrefix, allocator⟩ := allocated
            have hlen := alloc.length_allocateStandard _ _ _ halloc
            right; right
            simp only [hlen, Nat.reduceLT, if_false]
            exact ⟨extranoncePrefix, _, _, fun _ => ⟨hlen, rfl, rfl, rfl, rfl, rfl, rfl, rfl⟩⟩

theorem openChannel_cases (kind : ChannelKind) (m : Manager σ) (template : TemplateState)
    (msg : OpenMiningChannel) :
    (∀ sha256d, Refused m msg (openChannel sha256d alloc kind m (some template) msg)) ∨
      ∃ extranoncePrefix target channel, ∀ sha256d,
        Granted sha256d kind m msg template extranoncePrefix target channel
          (openChannel sha256d alloc kind m (some template) msg) := by
  rcases openChannel_outcomes alloc kind m template msg with ⟨errorCode, hsame⟩ |
    ⟨-, hrefused⟩ | hgranted
  · left
    intro sha256d
    rw [hsame]
    exact ⟨⟨errorCode, rfl⟩, rfl⟩
  · exact Or.inl hrefused
  · exact Or.inr hgranted

theorem seedJobTracker_grantedFrames (kind : ChannelKind) (requestId channelId jobId : UInt32)
    (target : Bytes32) (extranoncePrefix : Bytes) (template current : TemplateState)
    (tracker : Tracker) :
    seedJobTracker (some current)
        (grantedFrames sha256d kind requestId channelId jobId target extranoncePrefix template)
        tracker =
      tracker.insert (.sv2 channelId jobId) (jobMetaFromTemplate current 0 0)
        current.jobIdSeed := by
  cases kind with
  | extended => rfl
  | standard => rfl

def countingAllocator : ExtranonceAllocator ℕ where
  allocateExtended _ n := if n < 65536 then some ((leBytes 2 n).reverse, n + 1) else none
  allocateStandard n :=
    if n < 65536 then some ((leBytes 2 n).reverse ++ List.replicate 10 0, n + 1) else none
  release _ n := n
  length_allocateExtended := by
    rintro _ n extranoncePrefix n' halloc
    obtain ⟨-, hsome⟩ := Option.ite_none_right_eq_some.mp halloc
    obtain ⟨rfl, -⟩ := Prod.mk.inj (Option.some.inj hsome)
    simp
  length_allocateStandard := by
    rintro n extranoncePrefix n' halloc
    obtain ⟨-, hsome⟩ := Option.ite_none_right_eq_some.mp halloc
    obtain ⟨rfl, -⟩ := Prod.mk.inj (Option.some.inj hsome)
    simp

def emptyManager : Manager ℕ where
  allocator := 0
  minHashrateThreshold := .finite 0
  minTargetLe := ByteVec.fill 32 255

def plainOpenRequest : OpenMiningChannel where
  requestId := 1
  userIdentity := [0x61]
  nominalHashRate := .finite 1
  maxTarget := List.replicate 32 255

theorem openChannel_none (kind : ChannelKind) (m : Manager σ) (msg : OpenMiningChannel) :
    ∃ errorCode, openChannel sha256d alloc kind m none msg =
      ([.openMiningChannelError msg.requestId errorCode], m) := by
  rcases handleOpen_cases m msg with
    ⟨errorCode, herror⟩ | ⟨userIdentity, maxTargetLe, -, hopen⟩
  · cases kind with
    | extended => exact ⟨errorCode, by rw [openChannel, handleOpenExtendedMiningChannel, herror]⟩
    | standard => exact ⟨errorCode, by rw [openChannel, handleOpenStandardMiningChannel, herror]⟩
  · cases kind with
    | extended => exact ⟨_, by rw [openChannel, handleOpenExtendedMiningChannel, hopen]; rfl⟩
    | standard => exact ⟨_, by rw [openChannel, handleOpenStandardMiningChannel, hopen]; rfl⟩

theorem length_keys_openChannel_le (kind : ChannelKind) (m : Manager σ)
    (templateRx : Option TemplateState) (msg : OpenMiningChannel) :
    ((openChannel sha256d alloc kind m templateRx msg).1.filterMap emittedKey).length ≤ 1 := by
  cases templateRx with
  | none =>
      obtain ⟨errorCode, hnone⟩ := openChannel_none sha256d alloc kind m msg
      rw [hnone]
      exact Nat.zero_le 1
  | some template =>
      rcases openChannel_cases alloc kind m template msg with hrefused |
        ⟨extranoncePrefix, target, channel, hgranted⟩
      · obtain ⟨errorCode, hframes⟩ := (hrefused sha256d).frames
        rw [hframes]
        exact Nat.zero_le 1
      · rw [(hgranted sha256d).frames]
        cases kind with
        | extended => exact Nat.le_refl 1
        | standard => exact Nat.le_refl 1

/-! Shares of either kind of channel. -/

inductive Submission where
  | extended (share : SubmitSharesExtended)
  | standard (share : SubmitSharesStandard)
  deriving DecidableEq, Repr

namespace Submission

def share : Submission → SubmitSharesStandard
  | .extended share => share.toSubmitSharesStandard
  | .standard share => share

def extranonce : Submission → Bytes
  | .extended share => share.extranonce
  | .standard _ => []

def kind : Submission → ChannelKind
  | .extended _ => .extended
  | .standard _ => .standard

def jobKey (s : Submission) : JobKey :=
  .sv2 s.share.channelId s.share.jobId

end Submission

def templateSeed (templateRx : Option TemplateState) : UInt64 :=
  match templateRx with
  | some template => template.jobIdSeed
  | none => 0

def currentDiff : UInt64 := 8

theorem floorPot_currentDiff : floorPot currentDiff = 3 := by
  decide +kernel

def handleSubmitExtended (m : Manager σ) (templateRx : Option TemplateState)
    (userCfg : ShareUserConfig) (accounting : α) (tracker : Tracker)
    (share : SubmitSharesExtended) (paddingByte : UInt8) : ShareOutcome × α × Tracker :=
  match m.channels.lookup share.channelId with
  | some channel =>
      if channel.isExtended then
        validateExtendedShare sha256d acc share 10 channel.extranoncePrefix currentDiff userCfg
          channel.userIdentity true accounting tracker (.sv2 share.channelId share.jobId)
          (templateSeed templateRx) paddingByte
      else (.rejected "bad-extranonce-size", accounting, tracker)
  | none => (.rejected "invalid-channel-id", accounting, tracker)

def handleSubmitStandard (m : Manager σ) (templateRx : Option TemplateState)
    (userCfg : ShareUserConfig) (accounting : α) (tracker : Tracker)
    (share : SubmitSharesStandard) (paddingByte : UInt8) : ShareOutcome × α × Tracker :=
  match m.channels.lookup share.channelId with
  | some channel =>
      if channel.isExtended then (.rejected "invalid-share", accounting, tracker)
      else
        validateStandardShare sha256d acc share channel.extranoncePrefix currentDiff userCfg
          channel.userIdentity true accounting tracker (.sv2 share.channelId share.jobId)
          (templateSeed templateRx) paddingByte
  | none => (.rejected "invalid-channel-id", accounting, tracker)

def handleSubmit (m : Manager σ) (templateRx : Option TemplateState) (userCfg : ShareUserConfig)
    (accounting : α) (tracker : Tracker) (paddingByte : UInt8) :
    Submission → ShareOutcome × α × Tracker
  | .extended share =>
      handleSubmitExtended sha256d acc m templateRx userCfg accounting tracker share paddingByte
  | .standard share =>
      handleSubmitStandard sha256d acc m templateRx userCfg accounting tracker share paddingByte

/-- A share of the first job of the first channel of a connection, all of it zero. -/
def firstShare : Submission :=
  .extended
    { channelId := 1, sequenceNumber := 0, jobId := 1, nonce := 0, ntime := 0, version := 0
      extranonce := List.replicate 10 0 }

def submittedInputs (channel : OpenedChannel) (s : Submission) : SubmittedShareInputs :=
  finalizeInputs s.share.nonce s.share.ntime s.share.version
    (fullExtranonce channel.extranoncePrefix s.extranonce) channel.userIdentity currentDiff

/-- A share has the form its channel asks for. -/
def fitsChannel (channel : OpenedChannel) : Submission → Bool
  | .extended share => channel.isExtended && share.extranonce.length == 10
  | .standard _ => !channel.isExtended

/-- The channel and the tracker entry that a share is encoded with, if it gets that far. -/
def acceptedBy (m : Manager σ) (tracker : Tracker) (s : Submission) :
    Option (OpenedChannel × JobEntry) := do
  let channel ← m.channels.lookup s.share.channelId
  let entry ← tracker.get s.jobKey
  if fitsChannel channel s then some (channel, entry) else none

theorem acceptedBy_eq_some_iff {m : Manager σ} {tracker : Tracker} {s : Submission}
    {channel : OpenedChannel} {entry : JobEntry} :
    acceptedBy m tracker s = some (channel, entry) ↔
      m.channels.lookup s.share.channelId = some channel ∧ tracker.get s.jobKey = some entry ∧
        fitsChannel channel s = true := by
  simp only [acceptedBy, Option.bind_eq_bind, Option.bind_eq_some_iff,
    Option.ite_none_right_eq_some, Option.some.injEq, Prod.mk.injEq]
  constructor
  · rintro ⟨channel, hchannel, entry, hentry, hfits, rfl, rfl⟩
    exact ⟨hchannel, hentry, hfits⟩
  · rintro ⟨hchannel, hentry, hfits⟩
    exact ⟨channel, hchannel, entry, hentry, hfits, rfl, rfl⟩

theorem handleSubmit_of_fitsChannel {m : Manager σ} {templateRx : Option TemplateState}
    {userCfg : ShareUserConfig} {accounting : α} {tracker : Tracker} {paddingByte : UInt8}
    {s : Submission} {channel : OpenedChannel}
    (hchannel : m.channels.lookup s.share.channelId = some channel)
    (hfits : fitsChannel channel s = true) :
    handleSubmit sha256d acc m templateRx userCfg accounting tracker paddingByte s =
      finalizeShare sha256d acc s.share.nonce s.share.ntime s.share.version
        (fullExtranonce channel.extranoncePrefix s.extranonce) channel.userIdentity currentDiff
        userCfg accounting tracker s.jobKey (templateSeed templateRx) paddingByte := by
  cases s with
  | extended share =>
      obtain ⟨hextended, hlen⟩ : channel.isExtended = true ∧ share.extranonce.length = 10 := by
        simpa [fitsChannel] using hfits
      have hchannel' : m.channels.lookup share.channelId = some channel := hchannel
      simp only [handleSubmit, handleSubmitExtended, hchannel', hextended, if_true,
        validateExtendedShare, hlen]
      rfl
  | standard share =>
      have hstandard : channel.isExtended = false := by simpa [fitsChannel] using hfits
      have hchannel' : m.channels.lookup share.channelId = some channel := hchannel
      simp only [handleSubmit, handleSubmitStandard, hchannel', hstandard, validateStandardShare]
      rfl

theorem handleSubmit_of_acceptedBy_none {m : Manager σ} {templateRx : Option TemplateState}
    {userCfg : ShareUserConfig} {accounting : α} {tracker : Tracker} {paddingByte : UInt8}
    {s : Submission} (hnone : acceptedBy m tracker s = none) :
    ∃ errorCode accounting', handleSubmit sha256d acc m templateRx userCfg accounting tracker
      paddingByte s = (.rejected errorCode, accounting', tracker) := by
  cases hchannel : m.channels.lookup s.share.channelId with
  | none =>
      cases s with
      | extended share =>
          have hchannel' : m.channels.lookup share.channelId = none := hchannel
          exact ⟨_, _, by rw [handleSubmit, handleSubmitExtended, hchannel']⟩
      | standard share =>
          have hchannel' : m.channels.lookup share.channelId = none := hchannel
          exact ⟨_, _, by rw [handleSubmit, handleSubmitStandard, hchannel']⟩
  | some channel =>
      by_cases hfits : fitsChannel channel s = true
      · have hget : tracker.get s.jobKey = none := by
          rw [Option.eq_none_iff_forall_ne_some]
          simpa [acceptedBy, hchannel, hfits] using hnone
        rw [handleSubmit_of_fitsChannel sha256d acc hchannel hfits, finalizeShare, hget]
        exact ⟨_, _, rfl⟩
      · cases s with
        | extended share =>
            have hchannel' : m.channels.lookup share.channelId = some channel := hchannel
            simp only [fitsChannel, Bool.and_eq_true, beq_iff_eq, not_and] at hfits
            simp only [handleSubmit, handleSubmitExtended, hchannel']
            split_ifs with hextended
            · have hsize : share.extranonce.length ≠ UInt16.toNat 10 := hfits hextended
              rw [validateExtendedShare, if_pos hsize]
              exact ⟨_, _, rfl⟩
            · exact ⟨_, _, rfl⟩
        | standard share =>
            have hchannel' : m.channels.lookup share.channelId = some channel := hchannel
            have hextended : channel.isExtended = true := by simpa [fitsChannel] using hfits
            simp only [handleSubmit, handleSubmitStandard, hchannel', hextended, if_true]
            exact ⟨_, _, rfl⟩

theorem handleSubmit_of_acceptedBy_some {m : Manager σ} {templateRx : Option TemplateState}
    {userCfg : ShareUserConfig} {accounting : α} {tracker : Tracker} {paddingByte : UInt8}
    {s : Submission} {channel : OpenedChannel} {entry : JobEntry}
    (hsome : acceptedBy m tracker s = some (channel, entry)) :
    let xprotSeen := tracker.crossProtocolCoinbaseAlreadySeen (templateSeed templateRx)
      entry.jobMeta.coinbaseId
    let encoded := buildShareSubmission sha256d (submittedInputs channel s) entry userCfg xprotSeen
      paddingByte
    handleSubmit sha256d acc m templateRx userCfg accounting tracker paddingByte s =
      (shareOutcome encoded.1, accounting, tracker.recordEncoded s.jobKey encoded.2
        (templateSeed templateRx) entry.jobMeta.coinbaseId xprotSeen) := by
  obtain ⟨hchannel, hget, hfits⟩ := acceptedBy_eq_some_iff.mp hsome
  rw [handleSubmit_of_fitsChannel sha256d acc hchannel hfits, finalizeShare, hget]
  rfl

theorem accounting_handleSubmit (m : Manager σ) (templateRx : Option TemplateState)
    (userCfg : ShareUserConfig) (accounting : α) (tracker : Tracker) (paddingByte : UInt8)
    (s : Submission) :
    (handleSubmit sha256d acc m templateRx userCfg accounting tracker paddingByte s).2.1 =
        accounting ∨
      ∃ errorCode, (handleSubmit sha256d acc m templateRx userCfg accounting tracker paddingByte
        s).2.1 = acc.incrementRejectedShares errorCode accounting := by
  have hfinalize : ∀ nonce ntime version extranonce username diff jobKey seed,
      let accounting' := (finalizeShare sha256d acc nonce ntime version extranonce username diff
        userCfg accounting tracker jobKey seed paddingByte).2.1
      accounting' = accounting ∨
        ∃ errorCode, accounting' = acc.incrementRejectedShares errorCode accounting := by
    intro nonce ntime version extranonce username diff jobKey seed
    unfold finalizeShare
    cases tracker.get jobKey with
    | none => exact Or.inr ⟨_, rfl⟩
    | some entry => exact Or.inl rfl
  cases s with
  | extended share =>
      simp only [handleSubmit, handleSubmitExtended, validateExtendedShare]
      cases m.channels.lookup share.channelId with
      | none => exact Or.inl rfl
      | some channel =>
          dsimp only
          split_ifs
          · exact Or.inr ⟨_, rfl⟩
          · exact Or.inr ⟨_, rfl⟩
          · exact hfinalize _ _ _ _ _ _ _ _
          · exact Or.inl rfl
  | standard share =>
      simp only [handleSubmit, handleSubmitStandard, validateStandardShare]
      cases m.channels.lookup share.channelId with
      | none => exact Or.inl rfl
      | some channel =>
          dsimp only
          split_ifs
          · exact Or.inl rfl
          · exact Or.inr ⟨_, rfl⟩
          · exact hfinalize _ _ _ _ _ _ _ _

end Connection

end DatumGateway.MiningListener

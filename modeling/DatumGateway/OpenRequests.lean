import DatumGateway.ChannelTargets

namespace DatumGateway.OpenRequests

open DatumGateway.ByteString
open DatumGateway.ChannelManager
open DatumGateway.ChannelTargets
open DatumGateway.MiningListener
open DatumGateway.SharedTemplate

section Requests

variable (sha256d : Bytes → Bytes32) {σ : Type} (alloc : ExtranonceAllocator σ)

/-- The request passes the checks, with the values that are read from it. -/
structure Admitted (m : Manager σ) (msg : OpenMiningChannel) (userIdentity : String)
    (maxTargetLe : Bytes32) : Prop where
  named : msg.userIdentity ≠ []
  userIdentity : Utf8Text.decodeStrict msg.userIdentity = some userIdentity
  hashRate : AcceptsHashRate m msg.nominalHashRate
  maxTarget : ByteVec.ofBytes? 32 msg.maxTarget = some maxTargetLe

theorem handleOpen_of_admitted {m : Manager σ} {msg : OpenMiningChannel} {userIdentity : String}
    {maxTargetLe : Bytes32} (hadmitted : Admitted m msg userIdentity maxTargetLe)
    (inner : String → Bytes32 → Except ChannelOpenError (List MiningOut) × Manager σ) :
    handleOpen m msg inner = openReply msg.requestId (inner userIdentity maxTargetLe) := by
  obtain ⟨hnamed, huser, ⟨hfinite, hzero, hbelow⟩, htarget⟩ := hadmitted
  simp only [handleOpen, if_neg hnamed, huser, hfinite, hzero, hbelow, htarget, Bool.not_true,
    Bool.or_false, Bool.false_eq_true, if_false]

theorem handleOpen_of_not_admitted {m : Manager σ} {msg : OpenMiningChannel}
    (hrefused : ∀ userIdentity maxTargetLe, ¬ Admitted m msg userIdentity maxTargetLe) :
    ∃ errorCode, ∀ inner, handleOpen m msg inner =
      ([.openMiningChannelError msg.requestId errorCode], m) := by
  rcases handleOpen_cases m msg with
    herror | ⟨userIdentity, maxTargetLe, ⟨hnamed, huser, hrate, htarget⟩, -⟩
  · exact herror
  · exact absurd ⟨hnamed, huser, hrate, htarget⟩ (hrefused userIdentity maxTargetLe)

def allocate (kind : ChannelKind) (s : σ) : Option (Bytes × σ) :=
  match kind with
  | .extended => alloc.allocateExtended 10 s
  | .standard => alloc.allocateStandard s

theorem length_allocate {kind : ChannelKind} {s s' : σ} {p : Bytes}
    (halloc : allocate alloc kind s = some (p, s')) : p.length = prefixLength kind := by
  cases kind with
  | extended => exact alloc.length_allocateExtended _ _ _ _ halloc
  | standard => exact alloc.length_allocateStandard _ _ _ halloc

/-- There is nothing in the way of the request: it passes the checks, there are a template, of
which a job can be sent, and a prefix. -/
structure Grantable (kind : ChannelKind) (m : Manager σ) (templateRx : Option TemplateState)
    (msg : OpenMiningChannel) : Prop where
  admitted : ∃ userIdentity maxTargetLe, Admitted m msg userIdentity maxTargetLe
  template : ∃ template, templateRx = some template ∧ (kind = .extended → FitsJobFrame template)
  allocated : (allocate alloc kind m.allocator).isSome

def openedChannel (kind : ChannelKind) (m : Manager σ) (msg : OpenMiningChannel)
    (userIdentity : String) (maxTargetLe : Bytes32) (p : Bytes) : OpenedChannel where
  channelId := m.nextChannelId
  userIdentity
  isExtended := decide (kind = .extended)
  extranoncePrefix := p
  lastJobId := m.nextJobId
  nominalHashRate := msg.nominalHashRate
  maxTargetLe

/-- All that an open request can do. -/
inductive Opening (kind : ChannelKind) (m : Manager σ) (templateRx : Option TemplateState)
    (msg : OpenMiningChannel) : List MiningOut × Manager σ → Prop
  | refused (errorCode : String) (hnot : ¬ Grantable alloc kind m templateRx msg) :
      Opening kind m templateRx msg ([.openMiningChannelError msg.requestId errorCode], m)
  /-- A job cannot be encoded, and the handle of the prefix is dropped. -/
  | undone (errorCode : String) (p : Bytes) (allocator : σ)
      (hnot : ¬ Grantable alloc kind m templateRx msg)
      (halloc : allocate alloc kind m.allocator = some (p, allocator)) :
      Opening kind m templateRx msg ([.openMiningChannelError msg.requestId errorCode],
        { m with
          allocator := alloc.release p allocator
          nextChannelId := m.nextChannelId + 1
          nextJobId := m.nextJobId + 1 })
  | granted (template : TemplateState) (userIdentity : String) (maxTargetLe : Bytes32)
      (p : Bytes) (allocator : σ) (hgrantable : Grantable alloc kind m templateRx msg)
      (hadmitted : Admitted m msg userIdentity maxTargetLe)
      (htemplate : templateRx = some template)
      (halloc : allocate alloc kind m.allocator = some (p, allocator)) :
      Opening kind m templateRx msg
        (grantedFrames sha256d kind msg.requestId m.nextChannelId m.nextJobId
          (clampTargetToMinHashrateLe maxTargetLe m.minTargetLe) p template,
        { m with
          allocator
          nextChannelId := m.nextChannelId + 1
          nextJobId := m.nextJobId + 1
          channels := m.channels.insert m.nextChannelId
            (openedChannel kind m msg userIdentity maxTargetLe p) })

theorem not_grantable_of_no_template (kind : ChannelKind) (m : Manager σ)
    (msg : OpenMiningChannel) : ¬ Grantable alloc kind m none msg := by
  rintro ⟨-, ⟨template, htemplate, -⟩, -⟩
  cases htemplate

theorem not_grantable_of_unallocated (kind : ChannelKind) {m : Manager σ}
    (halloc : allocate alloc kind m.allocator = none) (templateRx : Option TemplateState)
    (msg : OpenMiningChannel) : ¬ Grantable alloc kind m templateRx msg := by
  rintro ⟨-, -, hallocated⟩
  rw [halloc] at hallocated
  cases hallocated

theorem opening_extended (m : Manager σ) (templateRx : Option TemplateState)
    (msg : OpenMiningChannel) {userIdentity : String} {maxTargetLe : Bytes32}
    (hadmitted : Admitted m msg userIdentity maxTargetLe) :
    Opening sha256d alloc .extended m templateRx msg (openReply msg.requestId
      (openExtendedInner alloc m templateRx msg.requestId userIdentity msg.nominalHashRate
        maxTargetLe)) := by
  unfold openExtendedInner
  cases templateRx with
  | none => exact .refused _ (not_grantable_of_no_template alloc _ m msg)
  | some template =>
      dsimp only
      cases halloc : alloc.allocateExtended 10 m.allocator with
      | none => exact .refused _ (not_grantable_of_unallocated alloc .extended halloc _ msg)
      | some allocated =>
          obtain ⟨p, allocator⟩ := allocated
          have hlen := alloc.length_allocateExtended _ _ _ _ halloc
          by_cases hfits : FitsJobFrame template
          · simp only [buildNewExtendedJob_of_fits hfits, hlen, Nat.reduceLT, if_false]
            refine .granted template userIdentity maxTargetLe p allocator ?_ hadmitted rfl halloc
            exact ⟨⟨userIdentity, maxTargetLe, hadmitted⟩, ⟨template, rfl, fun _ => hfits⟩,
              Option.isSome_of_eq_some halloc⟩
          · have hencode : buildNewExtendedJob m.nextChannelId m.nextJobId template = none :=
              if_neg hfits
            simp only [hencode]
            refine .undone _ p allocator ?_ halloc
            rintro ⟨-, ⟨template', htemplate, hfits'⟩, -⟩
            obtain rfl := Option.some.inj htemplate
            exact hfits (hfits' rfl)

theorem opening_standard (m : Manager σ) (templateRx : Option TemplateState)
    (msg : OpenMiningChannel) {userIdentity : String} {maxTargetLe : Bytes32}
    (hadmitted : Admitted m msg userIdentity maxTargetLe) :
    Opening sha256d alloc .standard m templateRx msg (openReply msg.requestId
      (openStandardInner sha256d alloc m templateRx msg.requestId userIdentity
        msg.nominalHashRate maxTargetLe)) := by
  unfold openStandardInner
  cases templateRx with
  | none => exact .refused _ (not_grantable_of_no_template alloc _ m msg)
  | some template =>
      dsimp only
      cases halloc : alloc.allocateStandard m.allocator with
      | none => exact .refused _ (not_grantable_of_unallocated alloc .standard halloc _ msg)
      | some allocated =>
          obtain ⟨p, allocator⟩ := allocated
          have hlen := alloc.length_allocateStandard _ _ _ halloc
          simp only [hlen, Nat.reduceLT, if_false]
          refine .granted template userIdentity maxTargetLe p allocator ?_ hadmitted rfl halloc
          refine ⟨⟨userIdentity, maxTargetLe, hadmitted⟩, ⟨template, rfl, ?_⟩,
            Option.isSome_of_eq_some halloc⟩
          intro hkind
          cases hkind

theorem openChannel_opening (kind : ChannelKind) (m : Manager σ)
    (templateRx : Option TemplateState) (msg : OpenMiningChannel) :
    Opening sha256d alloc kind m templateRx msg
      (openChannel sha256d alloc kind m templateRx msg) := by
  by_cases hadmitted : ∃ userIdentity maxTargetLe, Admitted m msg userIdentity maxTargetLe
  · obtain ⟨userIdentity, maxTargetLe, hadmitted⟩ := hadmitted
    cases kind with
    | extended =>
        rw [openChannel, handleOpenExtendedMiningChannel, handleOpen_of_admitted hadmitted]
        exact opening_extended sha256d alloc m templateRx msg hadmitted
    | standard =>
        rw [openChannel, handleOpenStandardMiningChannel, handleOpen_of_admitted hadmitted]
        exact opening_standard sha256d alloc m templateRx msg hadmitted
  · have hnot : ¬ Grantable alloc kind m templateRx msg := fun h => hadmitted h.admitted
    push Not at hadmitted
    obtain ⟨errorCode, herror⟩ := handleOpen_of_not_admitted hadmitted
    cases kind with
    | extended =>
        rw [openChannel, handleOpenExtendedMiningChannel, herror]
        exact .refused errorCode hnot
    | standard =>
        rw [openChannel, handleOpenStandardMiningChannel, herror]
        exact .refused errorCode hnot

end Requests

end DatumGateway.OpenRequests

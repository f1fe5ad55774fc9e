import DatumGateway.FloatValues
import DatumGateway.KeyedMaps
import DatumGateway.ShareEncoder

namespace DatumGateway.ChannelManager

open DatumGateway.ByteString
open DatumGateway.FloatValues
open DatumGateway.KeyedMaps
open DatumGateway.MerkleBranches
open DatumGateway.SharedTemplate
open DatumGateway.Utf8Text

structure OpenExtendedMiningChannelSuccess where
  requestId : UInt32
  channelId : UInt32
  target : Bytes32
  extranonceSize : UInt16
  extranoncePrefix : Bytes
  groupChannelId : UInt32
  deriving DecidableEq

structure OpenStandardMiningChannelSuccess where
  requestId : UInt32
  channelId : UInt32
  target : Bytes32
  extranoncePrefix : Bytes
  groupChannelId : UInt32
  deriving DecidableEq

structure NewExtendedMiningJob where
  channelId : UInt32
  jobId : UInt32
  /-- Absent for a future job, which the next `SetNewPrevHash` activates. -/
  minNtime : Option UInt32
  version : UInt32
  versionRollingAllowed : Bool
  merklePath : List Bytes32
  coinbaseTxPrefix : Bytes
  coinbaseTxSuffix : Bytes
  deriving DecidableEq

structure NewMiningJob where
  channelId : UInt32
  jobId : UInt32
  minNtime : Option UInt32
  version : UInt32
  merkleRoot : Bytes32
  deriving DecidableEq

structure SetNewPrevHash where
  channelId : UInt32
  jobId : UInt32
  prevHash : Bytes32
  minNtime : UInt32
  nbits : UInt32
  deriving DecidableEq

inductive MiningOut where
  | openExtendedMiningChannelSuccess (msg : OpenExtendedMiningChannelSuccess)
  | openStandardMiningChannelSuccess (msg : OpenStandardMiningChannelSuccess)
  | openMiningChannelError (requestId : UInt32) (errorCode : String)
  | newExtendedMiningJob (msg : NewExtendedMiningJob)
  | newMiningJob (msg : NewMiningJob)
  | setNewPrevHash (msg : SetNewPrevHash)
  | submitSharesSuccess (channelId lastSequenceNumber newSubmitsAcceptedCount : UInt32)
      (newSharesSum : UInt64)
  | submitSharesError (channelId sequenceNumber : UInt32) (errorCode : String)
  | setTarget (channelId : UInt32) (maximumTarget : Bytes32)
  | updateChannelError (channelId : UInt32) (errorCode : String)
  | setCustomMiningJobError (channelId requestId : UInt32) (errorCode : String)
  deriving DecidableEq

/-- An open request; extended and standard channels are asked for alike. -/
structure OpenMiningChannel where
  requestId : UInt32
  userIdentity : Bytes
  nominalHashRate : FloatValue
  maxTarget : Bytes

structure OpenedChannel where
  channelId : UInt32
  userIdentity : String
  isExtended : Bool
  extranoncePrefix : Bytes
  lastJobId : UInt32
  nominalHashRate : FloatValue
  maxTargetLe : Bytes32

/-- The allocator of extranonce prefixes for 12 extranonce bytes in all, 2 of them the index
of a channel, with `σ` for its bookkeeping. -/
structure ExtranonceAllocator (σ : Type) where
  allocateExtended : ℕ → σ → Option (Bytes × σ)
  allocateStandard : σ → Option (Bytes × σ)
  release : Bytes → σ → σ
  length_allocateExtended : ∀ n s extranoncePrefix s',
    allocateExtended n s = some (extranoncePrefix, s') → extranoncePrefix.length = 2
  length_allocateStandard : ∀ s extranoncePrefix s',
    allocateStandard s = some (extranoncePrefix, s') → extranoncePrefix.length = 12

structure Manager (σ : Type) where
  allocator : σ
  channels : KeyMap UInt32 OpenedChannel := ∅
  nextChannelId : UInt32 := 1
  nextJobId : UInt32 := 1
  minHashrateThreshold : FloatValue
  minTargetLe : Bytes32

inductive ChannelOpenError where
  | allocator
  | noTemplateYet
  | encode
  deriving DecidableEq, Repr

/-- The proposed target or the bound, compared from the most significant byte down. -/
def clampTarget (proposedLe boundLe : Bytes32) : Bytes32 :=
  go (proposedLe.toList.reverse.zip boundLe.toList.reverse)
where
  go : List (UInt8 × UInt8) → Bytes32
    | [] => proposedLe
    | (p, b) :: rest => if b < p then boundLe else if p < b then proposedLe else go rest

def clampTargetToMinHashrateLe (proposedLe minTargetLe : Bytes32) : Bytes32 :=
  clampTarget proposedLe minTargetLe

def clampTargetToChannelMax (proposedLe maxTargetLe : Bytes32) : Bytes32 :=
  clampTarget proposedLe maxTargetLe

def newExtendedJob (channelId jobId : UInt32) (template : TemplateState) :
    NewExtendedMiningJob where
  channelId
  jobId
  minNtime := none
  version := template.version
  versionRollingAllowed := true
  merklePath := template.merkleBranches.map List.Vector.reverse
  coinbaseTxPrefix := template.coinb1
  coinbaseTxSuffix := template.coinb2

/-- A job frame for the template; none if a field is too long for its encoding. -/
def buildNewExtendedJob (channelId jobId : UInt32) (template : TemplateState) :
    Option NewExtendedMiningJob :=
  if template.merkleBranches.length ≤ 255 ∧ template.coinb1.length ≤ 65535 ∧
      template.coinb2.length ≤ 65535 then
    some (newExtendedJob channelId jobId template)
  else none

/-- The fields of the template's jobs fit their encodings. -/
def FitsJobFrame (template : TemplateState) : Prop :=
  template.merkleBranches.length ≤ 255 ∧ template.coinb1.length ≤ 65535 ∧
    template.coinb2.length ≤ 65535

theorem buildNewExtendedJob_of_fits {template : TemplateState}
    (hfits : FitsJobFrame template) (channelId jobId : UInt32) :
    buildNewExtendedJob channelId jobId template =
      some (newExtendedJob channelId jobId template) :=
  if_pos hfits

def buildSetNewPrevHash (channelId jobId : UInt32) (template : TemplateState) :
    SetNewPrevHash where
  channelId
  jobId
  prevHash := template.prevHash
  minNtime := template.minNtime
  nbits := UInt32.ofNat (leValue template.nbits.toList.reverse)

theorem leBytes_nbits_buildSetNewPrevHash (channelId jobId : UInt32) (template : TemplateState) :
    leBytes 4 (buildSetNewPrevHash channelId jobId template).nbits.toNat =
      template.nbits.toList.reverse := by
  have hlt := leValue_lt_pow template.nbits.toList.reverse
  have hbytes := leBytes_leValue template.nbits.toList.reverse
  simp only [List.length_reverse, List.Vector.toList_length] at hlt hbytes
  rw [buildSetNewPrevHash, UInt32.toNat_ofNat_of_lt' (by simpa using hlt), hbytes]

section Hashing

variable (sha256d : Bytes → Bytes32)

def computeMerkleRootForStandard (coinb1 extranoncePrefix coinb2 : Bytes)
    (merkleBranchesBe : List Bytes32) : Bytes32 :=
  foldMerkleBranches sha256d (sha256d (coinb1 ++ extranoncePrefix ++ coinb2)) merkleBranchesBe

def buildNewMiningJob (channelId jobId : UInt32) (extranoncePrefix : Bytes)
    (template : TemplateState) : NewMiningJob where
  channelId
  jobId
  minNtime := none
  version := template.version
  merkleRoot := computeMerkleRootForStandard sha256d template.coinb1 extranoncePrefix
    template.coinb2 template.merkleBranches

section Allocating

variable {σ : Type} (alloc : ExtranonceAllocator σ)

def openExtendedInner (m : Manager σ) (templateRx : Option TemplateState) (requestId : UInt32)
    (userIdentity : String) (nominalHashRate : FloatValue) (maxTargetLe : Bytes32) :
    Except ChannelOpenError (List MiningOut) × Manager σ :=
  match templateRx with
  | none => (.error .noTemplateYet, m)
  | some template =>
      match alloc.allocateExtended 10 m.allocator with
      | none => (.error .allocator, m)
      | some (extranoncePrefix, allocator) =>
          let channelId := m.nextChannelId
          let jobId := m.nextJobId
          let m := { m with
            allocator, nextChannelId := channelId + 1, nextJobId := jobId + 1 }
          let initialTargetLe := clampTargetToMinHashrateLe maxTargetLe m.minTargetLe
          match buildNewExtendedJob channelId jobId template with
          | none =>
              (.error .encode, { m with allocator := alloc.release extranoncePrefix m.allocator })
          | some newJob =>
              if 32 < extranoncePrefix.length then
                (.error .encode,
                  { m with allocator := alloc.release extranoncePrefix m.allocator })
              else
                let channel :=
                  { channelId, userIdentity, isExtended := true, extranoncePrefix
                    lastJobId := jobId, nominalHashRate, maxTargetLe }
                (.ok
                  [.openExtendedMiningChannelSuccess
                    { requestId, channelId, target := initialTargetLe, extranonceSize := 10
                      extranoncePrefix, groupChannelId := 0 },
                    .newExtendedMiningJob newJob,
                    .setNewPrevHash (buildSetNewPrevHash channelId jobId template)],
                  { m with channels := m.channels.insert channelId channel })

def openStandardInner (m : Manager σ) (templateRx : Option TemplateState) (requestId : UInt32)
    (userIdentity : String) (nominalHashRate : FloatValue) (maxTargetLe : Bytes32) :
    Except ChannelOpenError (List MiningOut) × Manager σ :=
  match templateRx with
  | none => (.error .noTemplateYet, m)
  | some template =>
      match alloc.allocateStandard m.allocator with
      | none => (.error .allocator, m)
      | some (extranoncePrefix, allocator) =>
          let channelId := m.nextChannelId
          let jobId := m.nextJobId
          let m := { m with
            allocator, nextChannelId := channelId + 1, nextJobId := jobId + 1 }
          let initialTargetLe := clampTargetToMinHashrateLe maxTargetLe m.minTargetLe
          if 32 < extranoncePrefix.length then
            (.error .encode, { m with allocator := alloc.release extranoncePrefix m.allocator })
          else
            let channel :=
              { channelId, userIdentity, isExtended := false, extranoncePrefix
                lastJobId := jobId, nominalHashRate, maxTargetLe }
            (.ok
              [.openStandardMiningChannelSuccess
                { requestId, channelId, target := initialTargetLe, extranoncePrefix
                  groupChannelId := 0 },
                .newMiningJob (buildNewMiningJob sha256d channelId jobId extranoncePrefix template),
                .setNewPrevHash (buildSetNewPrevHash channelId jobId template)],
              { m with channels := m.channels.insert channelId channel })

def openReply (requestId : UInt32) :
    Except ChannelOpenError (List MiningOut) × Manager σ → List MiningOut × Manager σ
  | (.ok outs, m) => (outs, m)
  | (.error .allocator, m) =>
      ([.openMiningChannelError requestId "min-extranonce-size-too-large"], m)
  | (.error .noTemplateYet, m) => ([.openMiningChannelError requestId "unknown-user"], m)
  | (.error .encode, m) => ([.openMiningChannelError requestId "internal-encode-error"], m)

/-- The checks that both open handlers make before they allocate anything. -/
def handleOpen (m : Manager σ) (msg : OpenMiningChannel)
    (inner : String → Bytes32 → Except ChannelOpenError (List MiningOut) × Manager σ) :
    List MiningOut × Manager σ :=
  let openError := fun errorCode => [MiningOut.openMiningChannelError msg.requestId errorCode]
  match if msg.userIdentity = [] then none else decodeStrict msg.userIdentity with
  | none => (openError "invalid-user-identity", m)
  | some userIdentity =>
      if !msg.nominalHashRate.isFinite || msg.nominalHashRate.atMost 0 ||
          msg.nominalHashRate.lt m.minHashrateThreshold then
        (openError "invalid-nominal-hashrate", m)
      else
        match ByteVec.ofBytes? 32 msg.maxTarget with
        | none => (openError "max-target-out-of-range", m)
        | some maxTargetLe => openReply msg.requestId (inner userIdentity maxTargetLe)

def handleOpenExtendedMiningChannel (m : Manager σ) (templateRx : Option TemplateState)
    (msg : OpenMiningChannel) : List MiningOut × Manager σ :=
  handleOpen m msg fun userIdentity maxTargetLe =>
    openExtendedInner alloc m templateRx msg.requestId userIdentity msg.nominalHashRate maxTargetLe

def handleOpenStandardMiningChannel (m : Manager σ) (templateRx : Option TemplateState)
    (msg : OpenMiningChannel) : List MiningOut × Manager σ :=
  handleOpen m msg fun userIdentity maxTargetLe =>
    openStandardInner sha256d alloc m templateRx msg.requestId userIdentity msg.nominalHashRate
      maxTargetLe

def handleCloseChannel (m : Manager σ) (channelId : UInt32) : Manager σ :=
  match m.channels.lookup channelId with
  | some channel =>
      { m with
        channels := m.channels.erase channelId
        allocator := alloc.release channel.extranoncePrefix m.allocator }
  | none => m

end Allocating

def updateChannel {σ : Type} (template : TemplateState) (m : Manager σ) (cid : UInt32) :
    List MiningOut × Manager σ :=
  match m.channels.lookup cid with
  | none => ([], m)
  | some channel =>
      let jobId := m.nextJobId
      let job :=
        if channel.isExtended then
          (buildNewExtendedJob cid jobId template).toList.map MiningOut.newExtendedMiningJob
        else
          [.newMiningJob (buildNewMiningJob sha256d cid jobId channel.extranoncePrefix template)]
      (job ++ [.setNewPrevHash (buildSetNewPrevHash cid jobId template)],
        { m with
          nextJobId := jobId + 1
          channels := m.channels.insert cid { channel with lastJobId := jobId } })

/-- The frames of all open channels; `ids` lists them in the order of the hash map. -/
def onTemplateUpdate {σ : Type} (template : TemplateState) (m : Manager σ) :
    List UInt32 → List MiningOut × Manager σ
  | [] => ([], m)
  | cid :: ids =>
      let (outs, m) := updateChannel sha256d template m cid
      let (rest, m) := onTemplateUpdate template m ids
      (outs ++ rest, m)

end Hashing

end DatumGateway.ChannelManager

import DatumGateway.ExtranonceSpace
import DatumGateway.LeasedSlots

namespace DatumGateway.ChannelOpening

open DatumGateway.ByteString
open DatumGateway.ChannelManager
open DatumGateway.ChannelTargets
open DatumGateway.ExtranonceSpace
open DatumGateway.FloatValues
open DatumGateway.KeyedMaps
open DatumGateway.LeasedSlots
open DatumGateway.MiningListener
open DatumGateway.OpenRequests
open DatumGateway.SharedTemplate

/-! The managers that a connection can come to. -/

inductive ManagerAction where
  | openChannel (kind : ChannelKind) (templateRx : Option TemplateState) (msg : OpenMiningChannel)
  | closeChannel (channelId : UInt32)
  | templateUpdate (template : TemplateState) (ids : List UInt32)

def ManagerAction.isOpen : ManagerAction → Bool
  | .openChannel .. => true
  | _ => false

def channelNumber (i : ℕ) : UInt32 :=
  UInt32.ofNat (i + 1)

theorem channelNumber_succ (i : ℕ) : channelNumber (i + 1) = channelNumber i + 1 :=
  UInt32.ofNat_add (i + 1) 1

theorem channelNumber_injOn : Set.InjOn channelNumber (Set.Iio (2 ^ 32)) := by
  intro i hi j hj hij
  have hmod := congrArg UInt32.toNat hij
  simp only [channelNumber, UInt32.toNat_ofNat'] at hmod
  rw [Set.mem_Iio] at hi hj
  omega

section Runs

variable (sha256d : Bytes → Bytes32) {σ : Type} (alloc : ExtranonceAllocator σ)

def withPolicy (allocator : σ) (minHashrateThreshold : FloatValue) (minTargetLe : Bytes32) :
    Manager σ where
  allocator
  minHashrateThreshold
  minTargetLe

def managerStep (m : Manager σ) : ManagerAction → Manager σ
  | .openChannel kind templateRx msg => (openChannel sha256d alloc kind m templateRx msg).2
  | .closeChannel channelId => handleCloseChannel alloc m channelId
  | .templateUpdate template ids => (onTemplateUpdate sha256d template m ids).2

variable (live : σ → Set Bytes)

/-- A prefix is handed out only if it is not live, and is live until its handle is dropped. -/
structure TracksLive : Prop where
  allocate : ∀ kind s p s', allocate alloc kind s = some (p, s') →
    p ∉ live s ∧ live s' = insert p (live s)
  release : ∀ p s, p ∈ live s → live (alloc.release p s) = live s \ {p}

/-- The prefixes of the open channels are live and differ, and the ids that were given out are
the first `taken` ones. -/
structure Kept (taken : ℕ) (m : Manager σ) : Prop where
  nextChannelId : m.nextChannelId = channelNumber taken
  sound : Sound channelNumber taken (prefixAt m) (live m.allocator)

variable {alloc live}

theorem TracksLive.live_release (htracks : TracksLive alloc live) {kind : ChannelKind} {s s' : σ}
    {p : Bytes} (halloc : OpenRequests.allocate alloc kind s = some (p, s')) :
    live (alloc.release p s') = live s := by
  obtain ⟨hfresh, hlive⟩ := htracks.allocate kind s p s' halloc
  rw [htracks.release p s' (by rw [hlive]; exact Set.mem_insert _ _), hlive]
  exact Set.insert_sdiff_self_of_notMem hfresh

theorem kept_withPolicy (allocator : σ) (minHashrateThreshold : FloatValue)
    (minTargetLe : Bytes32) :
    Kept live 0 (withPolicy allocator minHashrateThreshold minTargetLe) :=
  ⟨rfl, sound_empty channelNumber _⟩

theorem Kept.openChannel (htracks : TracksLive alloc live) {taken : ℕ} {m : Manager σ}
    (hkept : Kept live taken m) {kind : ChannelKind} {templateRx : Option TemplateState}
    {msg : OpenMiningChannel} {opened : List MiningOut × Manager σ}
    (hopening : Opening sha256d alloc kind m templateRx msg opened) :
    ∃ taken' ≤ taken + 1, Kept live taken' opened.2 := by
  obtain ⟨hnext, hsound⟩ := hkept
  cases hopening with
  | refused errorCode hnot => exact ⟨taken, Nat.le_succ taken, hnext, hsound⟩
  | undone errorCode p allocator hnot halloc =>
      refine ⟨taken + 1, Nat.le_refl _, by rw [channelNumber_succ, hnext], ?_⟩
      have hlive := htracks.live_release halloc
      change Sound channelNumber (taken + 1) (prefixAt m) (live (alloc.release p allocator))
      rw [hlive]
      exact hsound.skip
  | granted template userIdentity maxTargetLe p allocator hgrantable hadmitted htemplate halloc =>
      refine ⟨taken + 1, Nat.le_refl _, by rw [channelNumber_succ, hnext], ?_⟩
      obtain ⟨hfresh, hlive⟩ := htracks.allocate kind _ _ _ halloc
      have hlease := hsound.lease hfresh
      rw [← hlive, ← hnext] at hlease
      convert hlease using 1
      funext cid
      rw [prefixAt_insert (m := m) rfl rfl, Function.update_apply]
      rfl

theorem Kept.closeChannel (htracks : TracksLive alloc live) {taken : ℕ} {m : Manager σ}
    (hkept : Kept live taken m) (channelId : UInt32) :
    Kept live taken (handleCloseChannel alloc m channelId) := by
  obtain ⟨hnext, hsound⟩ := hkept
  unfold handleCloseChannel
  cases hchannel : m.channels.lookup channelId with
  | none => exact ⟨hnext, hsound⟩
  | some channel =>
      have hprefix : prefixAt m channelId = some channel.extranoncePrefix := by
        rw [prefixAt, hchannel, Option.map_some]
      refine ⟨hnext, ?_⟩
      have hrelease := hsound.release hprefix
      rw [← htracks.release _ _ (hsound.leased _ _ hprefix)] at hrelease
      convert hrelease using 1
      funext cid
      rw [Function.update_apply]
      split_ifs with hcid
      · rw [hcid, prefixAt, AList.lookup_erase, Option.map_none]
      · rw [prefixAt, AList.lookup_erase_ne hcid]
        rfl

theorem nextChannelId_updateChannel (template : TemplateState) (m : Manager σ) (cid : UInt32) :
    (updateChannel sha256d template m cid).2.nextChannelId = m.nextChannelId := by
  unfold updateChannel
  cases m.channels.lookup cid with
  | none => rfl
  | some channel => rfl

theorem nextChannelId_onTemplateUpdate (template : TemplateState) (m : Manager σ)
    (ids : List UInt32) :
    (onTemplateUpdate sha256d template m ids).2.nextChannelId = m.nextChannelId :=
  onTemplateUpdate_keeps sha256d (f := Manager.nextChannelId)
    (nextChannelId_updateChannel sha256d template) m ids

theorem Kept.onTemplateUpdate {taken : ℕ} {m : Manager σ} (hkept : Kept live taken m)
    (template : TemplateState) (ids : List UInt32) :
    Kept live taken (onTemplateUpdate sha256d template m ids).2 := by
  refine ⟨(nextChannelId_onTemplateUpdate sha256d template m ids).trans hkept.nextChannelId, ?_⟩
  rw [allocator_onTemplateUpdate,
    funext fun cid => prefixAt_onTemplateUpdate sha256d template m ids cid]
  exact hkept.sound

theorem Kept.managerStep (htracks : TracksLive alloc live) {taken : ℕ} {m : Manager σ}
    (hkept : Kept live taken m) (a : ManagerAction) :
    ∃ taken' ≤ taken + a.isOpen.toNat, Kept live taken' (managerStep sha256d alloc m a) := by
  cases a with
  | openChannel kind templateRx msg =>
      exact hkept.openChannel sha256d htracks
        (openChannel_opening sha256d alloc kind m templateRx msg)
  | closeChannel channelId =>
      exact ⟨taken, Nat.le_refl _, hkept.closeChannel htracks channelId⟩
  | templateUpdate template ids =>
      exact ⟨taken, Nat.le_refl _, hkept.onTemplateUpdate sha256d template ids⟩

theorem Kept.foldl_managerStep (htracks : TracksLive alloc live) (actions : List ManagerAction)
    {taken : ℕ} {m : Manager σ} (hkept : Kept live taken m) :
    ∃ taken' ≤ taken + actions.countP ManagerAction.isOpen,
      Kept live taken' (actions.foldl (ChannelOpening.managerStep sha256d alloc) m) := by
  induction actions generalizing taken m with
  | nil => exact ⟨taken, Nat.le_refl _, hkept⟩
  | cons a actions ih =>
      obtain ⟨taken₁, hle, hkept₁⟩ := hkept.managerStep sha256d htracks a
      obtain ⟨taken', hle', hkept'⟩ := ih hkept₁
      refine ⟨taken', ?_, hkept'⟩
      have hcount : (a :: actions).countP ManagerAction.isOpen =
          actions.countP ManagerAction.isOpen + a.isOpen.toNat := by
        rw [List.countP_cons]
        cases a.isOpen with
        | false => rfl
        | true => rfl
      omega

end Runs

/-! What a miner is told of the channel that it asked for. -/

structure Announced where
  requestId : UInt32
  channelId : UInt32
  jobId : UInt32
  target : Bytes32
  extranoncePrefix : Bytes

/-- A success, a job and a `SetNewPrevHash`, which agree on the channel and on the job. -/
inductive Announces : ChannelKind → List MiningOut → Announced → Prop
  | extended (success : OpenExtendedMiningChannelSuccess) (job : NewExtendedMiningJob)
      (prevHash : SetNewPrevHash) (hjob : job.channelId = success.channelId)
      (hprevHash : prevHash.channelId = success.channelId) (hjobId : prevHash.jobId = job.jobId) :
      Announces .extended
        [.openExtendedMiningChannelSuccess success, .newExtendedMiningJob job,
          .setNewPrevHash prevHash]
        { requestId := success.requestId, channelId := success.channelId, jobId := job.jobId
          target := success.target, extranoncePrefix := success.extranoncePrefix }
  | standard (success : OpenStandardMiningChannelSuccess) (job : NewMiningJob)
      (prevHash : SetNewPrevHash) (hjob : job.channelId = success.channelId)
      (hprevHash : prevHash.channelId = success.channelId) (hjobId : prevHash.jobId = job.jobId) :
      Announces .standard
        [.openStandardMiningChannelSuccess success, .newMiningJob job, .setNewPrevHash prevHash]
        { requestId := success.requestId, channelId := success.channelId, jobId := job.jobId
          target := success.target, extranoncePrefix := success.extranoncePrefix }

theorem announces_grantedFrames (sha256d : Bytes → Bytes32) (kind : ChannelKind)
    (requestId channelId jobId : UInt32) (target : Bytes32) (extranoncePrefix : Bytes)
    (template : TemplateState) :
    Announces kind
      (grantedFrames sha256d kind requestId channelId jobId target extranoncePrefix template)
      { requestId, channelId, jobId, target, extranoncePrefix } := by
  cases kind with
  | extended => exact .extended _ _ _ rfl rfl rfl
  | standard => exact .standard _ _ _ rfl rfl rfl

/-- The stored channel is the announced one. -/
structure Stores (kind : ChannelKind) (told : Announced) (channel : OpenedChannel) : Prop where
  channelId : channel.channelId = told.channelId
  extranoncePrefix : channel.extranoncePrefix = told.extranoncePrefix
  lastJobId : channel.lastJobId = told.jobId
  isExtended : channel.isExtended = decide (kind = .extended)

section Outcomes

variable {σ : Type} (live : σ → Set Bytes)

/-- One new channel, with an id and a prefix that no other one has. -/
structure OpenGranted (kind : ChannelKind) (m : Manager σ) (msg : OpenMiningChannel)
    (opened : List MiningOut × Manager σ) (told : Announced) : Prop where
  frames : Announces kind opened.1 told
  requestId : told.requestId = msg.requestId
  freshId : m.channels.lookup told.channelId = none
  freshPrefix : ∀ cid channel, m.channels.lookup cid = some channel →
    channel.extranoncePrefix ≠ told.extranoncePrefix
  target_le_requested : targetValue told.target ≤ leValue msg.maxTarget
  target_le_minTarget : targetValue told.target ≤ targetValue m.minTargetLe
  added : ∃ channel, Stores kind told channel ∧ ∀ cid, opened.2.channels.lookup cid =
    if cid = told.channelId then some channel else m.channels.lookup cid
  live : live opened.2.allocator = insert told.extranoncePrefix (live m.allocator)

structure OpenRefused (m : Manager σ) (msg : OpenMiningChannel)
    (opened : List MiningOut × Manager σ) : Prop where
  frames : ∃ errorCode, opened.1 = [.openMiningChannelError msg.requestId errorCode]
  channels : opened.2.channels = m.channels
  live : live opened.2.allocator = live m.allocator

variable {live} {alloc : ExtranonceAllocator σ} {sha256d : Bytes → Bytes32}

theorem Kept.outcome (htracks : TracksLive alloc live) {taken : ℕ} {m : Manager σ}
    (hkept : Kept live taken m) (htaken : taken < 2 ^ 32) {kind : ChannelKind}
    {templateRx : Option TemplateState} {msg : OpenMiningChannel}
    {opened : List MiningOut × Manager σ}
    (hopening : Opening sha256d alloc kind m templateRx msg opened) :
    (∃ told, OpenGranted live kind m msg opened told) ∨ OpenRefused live m msg opened := by
  cases hopening with
  | refused errorCode hnot => exact Or.inr ⟨⟨errorCode, rfl⟩, rfl, rfl⟩
  | undone errorCode p allocator hnot halloc =>
      exact Or.inr ⟨⟨errorCode, rfl⟩, rfl, htracks.live_release halloc⟩
  | granted template userIdentity maxTargetLe p allocator hgrantable hadmitted htemplate halloc =>
      obtain ⟨hfresh, hlive⟩ := htracks.allocate kind _ _ _ halloc
      have hslot := hkept.sound.slot_eq_none channelNumber_injOn htaken
      rw [← hkept.nextChannelId] at hslot
      have htarget : leValue msg.maxTarget = targetValue maxTargetLe := by
        rw [targetValue, ByteVec.ofBytes?_eq_some_iff.mp hadmitted.maxTarget]
      let told : Announced :=
        { requestId := msg.requestId
          channelId := m.nextChannelId
          jobId := m.nextJobId
          target := clampTargetToMinHashrateLe maxTargetLe m.minTargetLe
          extranoncePrefix := p }
      refine Or.inl ⟨told, ?_⟩
      exact
        { frames := announces_grantedFrames sha256d kind _ _ _ _ _ template
          requestId := rfl
          freshId := Option.map_eq_none_iff.mp hslot
          freshPrefix := by
            intro cid channel hchannel hsame
            have hheld : prefixAt m cid = some channel.extranoncePrefix := by
              rw [prefixAt, hchannel, Option.map_some]
            rw [hsame] at hheld
            exact hkept.sound.ne_some hfresh cid hheld
          target_le_requested := by
            rw [htarget, targetValue_clamp]
            exact Nat.min_le_left _ _
          target_le_minTarget := by
            rw [targetValue_clamp]
            exact Nat.min_le_right _ _
          added := by
            refine ⟨openedChannel kind m msg userIdentity maxTargetLe p, ⟨rfl, rfl, rfl, rfl⟩,
              fun cid => ?_⟩
            split_ifs with hcid
            · rw [hcid]
              exact AList.lookup_insert _
            · exact AList.lookup_insert_ne hcid
          live := hlive }

end Outcomes

/-- An open request on a connection with fewer than 2 ^ 32 of them before leads to one new channel,
with an id and a prefix of its own, or to an error and nothing else. -/
theorem open_granted_or_refused (sha256d : Bytes → Bytes32) {σ : Type}
    (alloc : ExtranonceAllocator σ) (live : σ → Set Bytes) (htracks : TracksLive alloc live)
    (allocator : σ) (minHashrateThreshold : FloatValue) (minTargetLe : Bytes32)
    (actions : List ManagerAction) (hopens : actions.countP ManagerAction.isOpen < 2 ^ 32)
    (kind : ChannelKind) (templateRx : Option TemplateState) (msg : OpenMiningChannel) :
    let m := actions.foldl (managerStep sha256d alloc)
      (withPolicy allocator minHashrateThreshold minTargetLe)
    let opened := openChannel sha256d alloc kind m templateRx msg
    (∃ told, OpenGranted live kind m msg opened told) ∨ OpenRefused live m msg opened := by
  intro m opened
  have hstart : Kept live 0 (withPolicy allocator minHashrateThreshold minTargetLe) :=
    kept_withPolicy allocator minHashrateThreshold minTargetLe
  obtain ⟨taken, htaken, hkept⟩ := hstart.foldl_managerStep sha256d htracks actions
  exact hkept.outcome htracks (by omega) (openChannel_opening sha256d alloc kind m templateRx msg)

/-! An allocator that hands out the least index that is free. -/

def indexBytes (i : ℕ) : Bytes :=
  (leBytes 2 i).reverse

def freeIndex (s : Finset Bytes) : Option ℕ :=
  (List.range (min (s.card + 1) 65536)).find? fun i => decide (∀ p ∈ s, p.take 2 ≠ indexBytes i)

def leastFreeAllocator : ExtranonceAllocator (Finset Bytes) where
  allocateExtended _ s := (freeIndex s).map fun i => (indexBytes i, insert (indexBytes i) s)
  allocateStandard s :=
    (freeIndex s).map fun i =>
      let p := indexBytes i ++ List.replicate 10 0
      (p, insert p s)
  release p s := s.erase p
  length_allocateExtended := by
    intro _ s p s' halloc
    obtain ⟨i, -, hsome⟩ := Option.map_eq_some_iff.mp halloc
    obtain ⟨rfl, -⟩ := Prod.mk.inj hsome
    simp [indexBytes]
  length_allocateStandard := by
    intro s p s' halloc
    obtain ⟨i, -, hsome⟩ := Option.map_eq_some_iff.mp halloc
    obtain ⟨rfl, -⟩ := Prod.mk.inj hsome
    simp [indexBytes]

theorem take_two_indexBytes (i : ℕ) (rest : Bytes) :
    (indexBytes i ++ rest).take 2 = indexBytes i :=
  List.take_left' (by rw [indexBytes, List.length_reverse, length_leBytes])

theorem take_two_ne_of_freeIndex {s : Finset Bytes} {i : ℕ} (hfree : freeIndex s = some i) :
    ∀ p ∈ s, p.take 2 ≠ indexBytes i := by
  unfold freeIndex at hfree
  have hfirst := List.find?_some hfree
  exact of_decide_eq_true hfirst

theorem allocate_leastFreeAllocator {kind : ChannelKind} {s s' : Finset Bytes} {p : Bytes}
    (halloc : allocate leastFreeAllocator kind s = some (p, s')) :
    (∀ q ∈ s, q.take 2 ≠ p.take 2) ∧ s' = insert p s := by
  cases kind with
  | extended =>
      obtain ⟨i, hfree, hsome⟩ := Option.map_eq_some_iff.mp halloc
      obtain ⟨rfl, rfl⟩ := Prod.mk.inj hsome
      refine ⟨fun q hq => ?_, rfl⟩
      rw [← List.append_nil (indexBytes i), take_two_indexBytes]
      exact take_two_ne_of_freeIndex hfree q hq
  | standard =>
      obtain ⟨i, hfree, hsome⟩ := Option.map_eq_some_iff.mp halloc
      obtain ⟨rfl, rfl⟩ := Prod.mk.inj hsome
      refine ⟨fun q hq => ?_, rfl⟩
      rw [take_two_indexBytes]
      exact take_two_ne_of_freeIndex hfree q hq

def livePrefixes (s : Finset Bytes) : Set Bytes :=
  s

theorem tracksLive_leastFreeAllocator : TracksLive leastFreeAllocator livePrefixes where
  allocate kind s p s' halloc := by
    obtain ⟨hindex, rfl⟩ := allocate_leastFreeAllocator halloc
    refine ⟨?_, Finset.coe_insert p s⟩
    intro hp
    exact hindex p (Finset.mem_coe.mp hp) rfl
  release p s _ := Finset.coe_erase p s

theorem open_granted_after_close :
    let sha256d : Bytes → Bytes32 := fun _ => ByteVec.fill 32 0
    let template := some (plainState sha256d BlockTemplate.emptyTemplate)
    let actions : List ManagerAction :=
      [.openChannel .standard template plainOpenRequest, .closeChannel 1]
    let m := actions.foldl (managerStep sha256d leastFreeAllocator)
      (withPolicy ∅ (.finite 0) (ByteVec.fill 32 255))
    let opened := openChannel sha256d leastFreeAllocator .extended m template plainOpenRequest
    ∃ told, OpenGranted livePrefixes .extended m plainOpenRequest opened told := by
  intro sha256d template actions m opened
  have houtcome := open_granted_or_refused sha256d leastFreeAllocator livePrefixes
    tracksLive_leastFreeAllocator ∅ (.finite 0) (ByteVec.fill 32 255) actions (by decide +kernel)
    .extended template plainOpenRequest
  refine houtcome.resolve_right ?_
  rintro ⟨⟨errorCode, hframes⟩, -, -⟩
  have hgranted : refused opened.1 = false := by decide +kernel
  change opened.1 = _ at hframes
  rw [hframes] at hgranted
  cases hgranted

end DatumGateway.ChannelOpening

import DatumGateway.GatewayJobs
import DatumGateway.ListPrefixes
import DatumGateway.OpenRequests

namespace DatumGateway.ExtranonceSpace

open DatumGateway.BlockTemplate
open DatumGateway.ByteString
open DatumGateway.ChannelManager
open DatumGateway.FloatValues
open DatumGateway.GatewayJobs
open DatumGateway.KeyedMaps
open DatumGateway.ListPrefixes
open DatumGateway.MiningListener
open DatumGateway.OpenRequests
open DatumGateway.SharedTemplate
open DatumGateway.ShareEncoder
open DatumGateway.TransitionSystem

/-- All SV1 connections are on one thread, whose id is zero. -/
def extranonce1 (clientId : UInt32) : UInt32 :=
  ((0 : UInt32) <<< 22) ||| (clientId ^^^ 0xB10CF00D)

def extranonce1Bytes (clientId : UInt32) : Bytes :=
  (leBytes 4 (extranonce1 clientId).toNat).reverse

structure Sv1Miner where
  clientId : UInt32
  /-- The template of the last job that was sent to the miner. -/
  work : Option TemplateState

structure MinersState (σ : Type) where
  gateway : GatewayState σ := {}
  nextClientId : UInt32 := 0
  sv1 : KeyMap ℕ Sv1Miner := ∅

inductive MinersAction where
  | gateway (a : GatewayAction)
  | sv1Accept (id : ℕ)
  | sv1Notify (id : ℕ)
  | sv1Disconnect (id : ℕ)

inductive MinerId where
  | sv1 (id : ℕ)
  | sv2 (id : ℕ) (channelId : UInt32)
  deriving DecidableEq, Repr

/-- The extranonces that a miner with this prefix can put into a coinbase. -/
def extranonces (extranoncePrefix : Bytes) : Set (ByteVec 12) :=
  Set.range (fullExtranonce extranoncePrefix)

def prefixAt {σ : Type} (m : Manager σ) (channelId : UInt32) : Option Bytes :=
  (m.channels.lookup channelId).map OpenedChannel.extranoncePrefix

namespace MinersState

variable {σ : Type}

def extranoncePrefix (s : MinersState σ) : MinerId → Option Bytes
  | .sv1 id => (s.sv1.lookup id).map fun miner => extranonce1Bytes miner.clientId
  | .sv2 id channelId =>
      (s.gateway.connections.lookup id).bind fun conn => prefixAt conn.manager channelId

/-- The template that a miner works on: that of the last job it was sent. -/
def work (s : MinersState σ) : MinerId → Option TemplateState
  | .sv1 id => (s.sv1.lookup id).bind Sv1Miner.work
  | .sv2 id channelId =>
      (s.gateway.connections.lookup id).bind fun conn =>
        (conn.sent.lookup channelId).map Prod.snd

def DisjointWork (s : MinersState σ) : Prop :=
  ∀ i j p q template, i ≠ j → s.extranoncePrefix i = some p → s.extranoncePrefix j = some q →
    s.work i = some template → s.work j = some template →
      Disjoint (extranonces p) (extranonces q)

def sv1Prefixes (s : MinersState σ) : List Bytes :=
  s.sv1.entries.map fun e => extranonce1Bytes e.2.clientId

/-- The prefixes of the channels of all connections but one. -/
def channelPrefixes (s : MinersState σ) (except : Option ℕ) : List Bytes :=
  (s.gateway.connections.entries.filter fun e => some e.1 ≠ except).flatMap fun e =>
    e.2.manager.channels.entries.map fun channel => channel.2.extranoncePrefix

end MinersState

section Steps

variable (sha256d : Bytes → Bytes32) {σ : Type} (alloc : ExtranonceAllocator σ)
variable (newManager : Manager σ)

def minersStep (s : MinersState σ) : MinersAction → Option (MinersState σ)
  | .gateway a => do
      let gateway ← gatewayStep sha256d alloc newManager s.gateway a
      some { s with gateway }
  | .sv1Accept id =>
      match s.sv1.lookup id with
      | some _ => none
      | none =>
          some { s with
            nextClientId := s.nextClientId + 1
            sv1 := s.sv1.insert id { clientId := s.nextClientId, work := none } }
  | .sv1Notify id =>
      match s.sv1.lookup id, s.gateway.notify with
      | some miner, some (_, template) =>
          some { s with sv1 := s.sv1.insert id { miner with work := some template } }
      | _, _ => none
  | .sv1Disconnect id => some { s with sv1 := s.sv1.erase id }

def allocatedPrefix (kind : ChannelKind) (m : Manager σ) : Option Bytes :=
  match kind with
  | .extended => (alloc.allocateExtended 10 m.allocator).map Prod.fst
  | .standard => (alloc.allocateStandard m.allocator).map Prod.fst

/-- No word that starts with `p` starts with one of the others. -/
def apartFrom (p : Bytes) (others : List Bytes) : Bool :=
  others.all fun q => !(p.isPrefixOf q || q.isPrefixOf p)

/-- The allocators of different connections, and the numbering of SV1 clients, happen not to
give the same extranonces twice. -/
def givesFreshPrefix (s : MinersState σ) : MinersAction → Bool
  | .gateway (.connection id (.openChannel kind msg)) =>
      match s.gateway.connections.lookup id with
      | none => true
      | some conn =>
          refused (openChannel sha256d alloc kind conn.manager s.gateway.published msg).1 ||
            (allocatedPrefix alloc kind conn.manager).all fun p =>
              apartFrom p (s.sv1Prefixes ++ s.channelPrefixes (some id))
  | .sv1Accept _ =>
      apartFrom (extranonce1Bytes s.nextClientId) (s.channelPrefixes none) &&
        s.sv1.entries.all fun e => e.2.clientId != s.nextClientId
  | _ => true

end Steps

/-! The extranonces of a miner are those that start with its prefix. -/

theorem extranonces_eq_extensions {p : Bytes} (hp : p.length ≤ 12) :
    extranonces p = extensions 12 p := by
  ext v
  constructor
  · rintro ⟨extra, rfl⟩
    have htake : p.take 12 = p := List.take_of_length_le hp
    change p <+: p.take 12 ++ _ ++ _
    rw [htake, List.append_assoc]
    exact List.prefix_append p _
  · intro hv
    obtain ⟨extra, hextra⟩ := hv
    refine ⟨extra, List.Vector.toList_injective ?_⟩
    have hlen : p.length + extra.length = 12 := by
      rw [← List.length_append, hextra, List.Vector.toList_length]
    have htake : p.take 12 = p := List.take_of_length_le hp
    have hrest : extra.take (12 - p.length) = extra := List.take_of_length_le (by omega)
    simp only [fullExtranonce, List.Vector.toList_mk, htake, hrest]
    rw [show 12 - p.length - extra.length = 0 by omega, List.replicate_zero, List.append_nil,
      hextra]

theorem length_extranonce1Bytes (clientId : UInt32) : (extranonce1Bytes clientId).length = 4 := by
  rw [extranonce1Bytes, List.length_reverse, length_leBytes]

theorem extranonce1_injective : Function.Injective extranonce1 := by
  intro a b hab
  have hzero : ∀ clientId : UInt32, extranonce1 clientId = clientId ^^^ 0xB10CF00D := by
    intro clientId
    exact UInt32.zero_or
  rw [hzero, hzero] at hab
  have hback := congrArg (· ^^^ 0xB10CF00D) hab
  simpa [UInt32.xor_assoc] using hback

theorem extranonce1Bytes_injective : Function.Injective extranonce1Bytes := by
  intro a b hab
  have hbytes := congrArg leValue (List.reverse_injective hab)
  rw [leValue_leBytes_of_lt (UInt32.toNat_lt _),
    leValue_leBytes_of_lt (UInt32.toNat_lt _)] at hbytes
  exact extranonce1_injective (UInt32.toNat_inj.mp hbytes)

theorem comparable_iff {p q : Bytes} :
    (p.isPrefixOf q || q.isPrefixOf p) = true ↔ Comparable p q := by
  rw [Bool.or_eq_true, List.isPrefixOf_iff_prefix, List.isPrefixOf_iff_prefix]
  rfl

theorem apartFrom_iff {p : Bytes} {others : List Bytes} :
    apartFrom p others = true ↔ ∀ q ∈ others, ¬ Comparable p q := by
  simp only [apartFrom, List.all_eq_true, Bool.not_eq_true', ← Bool.not_eq_true, comparable_iff]

section Tracking

variable (sha256d : Bytes → Bytes32) {σ : Type} (alloc : ExtranonceAllocator σ)
variable (held : σ → Set Bytes)

/-- Prefixes that are held at the same time differ in the index of their channel, the first
two bytes; one is given up only when it is released. -/
structure TracksIndices : Prop where
  extended : ∀ n s p s', alloc.allocateExtended n s = some (p, s') →
    (∀ q ∈ held s, q.take 2 ≠ p.take 2) ∧ p ∈ held s' ∧ held s ⊆ held s'
  standard : ∀ s p s', alloc.allocateStandard s = some (p, s') →
    (∀ q ∈ held s, q.take 2 ≠ p.take 2) ∧ p ∈ held s' ∧ held s ⊆ held s'
  release : ∀ p s q, q ∈ held s → q ≠ p → q ∈ held (alloc.release p s)

/-- What a manager holds after an open request: either the same prefixes, or one more, under
an index that none of them has. -/
inductive OpenOutcome (kind : ChannelKind) (m : Manager σ) (opened : List MiningOut × Manager σ) :
    Prop where
  | same (hprefixes : ∀ cid, prefixAt opened.2 cid = prefixAt m cid)
      (hheld : held m.allocator ⊆ held opened.2.allocator)
  | granted (p : Bytes) (halloc : allocatedPrefix alloc kind m = some p)
      (hlen : 2 ≤ p.length ∧ p.length ≤ 12)
      (hgranted : refused opened.1 = false) (hindex : ∀ q ∈ held m.allocator, q.take 2 ≠ p.take 2)
      (hmem : p ∈ held opened.2.allocator) (hheld : held m.allocator ⊆ held opened.2.allocator)
      (hprefixes : ∀ cid, prefixAt opened.2 cid =
        if cid = m.nextChannelId then some p else prefixAt m cid)

variable {alloc held}

theorem TracksIndices.subset_release (htracks : TracksIndices alloc held) {s s' : σ} {p : Bytes}
    (hindex : ∀ q ∈ held s, q.take 2 ≠ p.take 2) (hsub : held s ⊆ held s') :
    held s ⊆ held (alloc.release p s') := by
  intro q hq
  refine htracks.release p s' q (hsub hq) ?_
  rintro rfl
  exact hindex q hq rfl

theorem prefixAt_insert {m m' : Manager σ} {channelId : UInt32} {channel : OpenedChannel}
    {p : Bytes} (hchannels : m'.channels = m.channels.insert channelId channel)
    (hprefixes : channel.extranoncePrefix = p) (cid : UInt32) :
    prefixAt m' cid = if cid = channelId then some p else prefixAt m cid := by
  rw [prefixAt, prefixAt, hchannels, ← hprefixes]
  split_ifs with hcid
  · rw [hcid, AList.lookup_insert, Option.map_some]
  · rw [AList.lookup_insert_ne hcid]

theorem TracksIndices.allocate (htracks : TracksIndices alloc held) {kind : ChannelKind} {s s' : σ}
    {p : Bytes} (halloc : OpenRequests.allocate alloc kind s = some (p, s')) :
    (∀ q ∈ held s, q.take 2 ≠ p.take 2) ∧ p ∈ held s' ∧ held s ⊆ held s' := by
  cases kind with
  | extended => exact htracks.extended _ _ _ _ halloc
  | standard => exact htracks.standard _ _ _ halloc

theorem TracksIndices.openChannel (htracks : TracksIndices alloc held) (kind : ChannelKind)
    (m : Manager σ) (templateRx : Option TemplateState) (msg : OpenMiningChannel) :
    OpenOutcome alloc held kind m (openChannel sha256d alloc kind m templateRx msg) := by
  have hopening := openChannel_opening sha256d alloc kind m templateRx msg
  generalize MiningListener.openChannel sha256d alloc kind m templateRx msg = opened at hopening
  cases hopening with
  | refused errorCode hnot => exact .same (fun _ => rfl) Set.Subset.rfl
  | undone errorCode p allocator hnot halloc =>
      obtain ⟨hindex, hmem, hsub⟩ := htracks.allocate halloc
      exact .same (fun _ => rfl) (htracks.subset_release hindex hsub)
  | granted template userIdentity maxTargetLe p allocator hgrantable hadmitted htemplate halloc =>
      obtain ⟨hindex, hmem, hsub⟩ := htracks.allocate halloc
      have hprefix : allocatedPrefix alloc kind m = some p := by
        cases kind with
        | extended => exact congrArg (Option.map Prod.fst) halloc
        | standard => exact congrArg (Option.map Prod.fst) halloc
      have hlen : 2 ≤ p.length ∧ p.length ≤ 12 := by
        rw [length_allocate alloc halloc]
        cases kind with
        | extended => decide
        | standard => decide
      have hgranted : refused (grantedFrames sha256d kind msg.requestId m.nextChannelId m.nextJobId
          (clampTargetToMinHashrateLe maxTargetLe m.minTargetLe) p template) = false := by
        cases kind with
        | extended => rfl
        | standard => rfl
      refine .granted p hprefix hlen hgranted hindex hmem hsub ?_
      intro cid
      apply prefixAt_insert
      · rfl
      · rfl

theorem map_lookup_updateChannel {β : Type*} {f : OpenedChannel → β}
    (hf : ∀ channel jobId, f { channel with lastJobId := jobId } = f channel)
    (template : TemplateState) (m : Manager σ) (cid cid' : UInt32) :
    ((updateChannel sha256d template m cid).2.channels.lookup cid').map f =
      (m.channels.lookup cid').map f := by
  unfold updateChannel
  cases hchannel : m.channels.lookup cid with
  | none => rfl
  | some channel =>
      dsimp only
      by_cases hcid : cid' = cid
      · rw [hcid, AList.lookup_insert, hchannel, Option.map_some, Option.map_some, hf]
      · rw [AList.lookup_insert_ne hcid]

theorem allocator_updateChannel (template : TemplateState) (m : Manager σ) (cid : UInt32) :
    (updateChannel sha256d template m cid).2.allocator = m.allocator := by
  unfold updateChannel
  cases m.channels.lookup cid with
  | none => rfl
  | some channel => rfl

theorem onTemplateUpdate_keeps {β : Type*} {f : Manager σ → β} {template : TemplateState}
    (hf : ∀ m cid, f (updateChannel sha256d template m cid).2 = f m) (m : Manager σ)
    (ids : List UInt32) : f (onTemplateUpdate sha256d template m ids).2 = f m := by
  induction ids generalizing m with
  | nil => rfl
  | cons id ids ih =>
      rw [onTemplateUpdate]
      exact (ih _).trans (hf m id)

theorem prefixAt_onTemplateUpdate (template : TemplateState) (m : Manager σ)
    (ids : List UInt32) (cid : UInt32) :
    prefixAt (onTemplateUpdate sha256d template m ids).2 cid = prefixAt m cid :=
  onTemplateUpdate_keeps sha256d (f := fun m => prefixAt m cid)
    (fun m id => map_lookup_updateChannel sha256d (fun _ _ => rfl) template m id cid) m ids

theorem allocator_onTemplateUpdate (template : TemplateState) (m : Manager σ)
    (ids : List UInt32) :
    (onTemplateUpdate sha256d template m ids).2.allocator = m.allocator :=
  onTemplateUpdate_keeps sha256d (f := Manager.allocator)
    (allocator_updateChannel sha256d template) m ids

theorem prefixAt_handleCloseChannel {m : Manager σ} {channelId cid : UInt32} {p : Bytes}
    (hp : prefixAt (handleCloseChannel alloc m channelId) cid = some p) :
    prefixAt m cid = some p := by
  unfold handleCloseChannel at hp
  cases hchannel : m.channels.lookup channelId with
  | none =>
      rw [hchannel] at hp
      exact hp
  | some channel =>
      rw [hchannel] at hp
      obtain ⟨channel', hlookup, hprefixes⟩ := Option.map_eq_some_iff.mp hp
      exact Option.map_eq_some_iff.mpr
        ⟨channel', (lookup_erase_eq_some_iff.mp hlookup).2, hprefixes⟩

variable (held)

/-- The manager knows the prefixes of its channels to be taken, and no two channels share one. -/
structure WellKept (m : Manager σ) : Prop where
  mem : ∀ cid p, prefixAt m cid = some p → p ∈ held m.allocator
  length : ∀ cid p, prefixAt m cid = some p → 2 ≤ p.length ∧ p.length ≤ 12
  apart : ∀ cid cid' p q, cid ≠ cid' → prefixAt m cid = some p → prefixAt m cid' = some q →
    ¬ Comparable p q

variable {held}

theorem WellKept.of_prefixAt {m m' : Manager σ} (hkept : WellKept held m)
    (hprefixes : ∀ cid p, prefixAt m' cid = some p → prefixAt m cid = some p)
    (hmem : ∀ cid p, prefixAt m' cid = some p → p ∈ held m'.allocator) : WellKept held m' where
  mem := hmem
  length cid p hp := hkept.length cid p (hprefixes cid p hp)
  apart cid cid' p q hne hp hq := hkept.apart cid cid' p q hne (hprefixes cid p hp)
    (hprefixes cid' q hq)

theorem WellKept.handleCloseChannel (htracks : TracksIndices alloc held) {m : Manager σ}
    (hkept : WellKept held m) (channelId : UInt32) :
    WellKept held (handleCloseChannel alloc m channelId) := by
  refine hkept.of_prefixAt (fun _ _ hp => prefixAt_handleCloseChannel hp) ?_
  intro cid p hp
  have hbefore := prefixAt_handleCloseChannel hp
  have hheld := hkept.mem cid p hbefore
  unfold ChannelManager.handleCloseChannel at hp ⊢
  cases hchannel : m.channels.lookup channelId with
  | none => exact hheld
  | some channel =>
      rw [hchannel] at hp
      obtain ⟨channel', hlookup, -⟩ := Option.map_eq_some_iff.mp hp
      have hne : cid ≠ channelId := (lookup_erase_eq_some_iff.mp hlookup).1
      refine htracks.release _ _ p hheld ?_
      rintro rfl
      have hclosed : prefixAt m channelId = some channel.extranoncePrefix := by
        rw [prefixAt, hchannel, Option.map_some]
      exact hkept.apart cid channelId _ _ hne hbefore hclosed (comparable_self _)

theorem WellKept.openOutcome {kind : ChannelKind} {m : Manager σ}
    {opened : List MiningOut × Manager σ} (hkept : WellKept held m)
    (houtcome : OpenOutcome alloc held kind m opened) : WellKept held opened.2 := by
  cases houtcome with
  | same hprefixes hheld =>
      refine hkept.of_prefixAt (fun cid p hp => (hprefixes cid).symm.trans hp) ?_
      intro cid p hp
      exact hheld (hkept.mem cid p ((hprefixes cid).symm.trans hp))
  | granted p halloc hlen hgranted hindex hmem hheld hprefixes =>
      -- a channel of the manager is the new one or one that it had
      have hcases : ∀ cid q, prefixAt opened.2 cid = some q →
          cid = m.nextChannelId ∧ q = p ∨ cid ≠ m.nextChannelId ∧ prefixAt m cid = some q := by
        intro cid q hq
        rw [hprefixes] at hq
        split_ifs at hq with hcid
        · exact Or.inl ⟨hcid, (Option.some.inj hq).symm⟩
        · exact Or.inr ⟨hcid, hq⟩
      have hnew : ∀ cid q, prefixAt m cid = some q → ¬ Comparable q p := by
        intro cid q hq hcomparable
        exact hindex q (hkept.mem cid q hq)
          (hcomparable.take_eq (hkept.length cid q hq).1 hlen.1)
      constructor
      · intro cid q hq
        rcases hcases cid q hq with ⟨-, rfl⟩ | ⟨-, hq⟩
        · exact hmem
        · exact hheld (hkept.mem cid q hq)
      · intro cid q hq
        rcases hcases cid q hq with ⟨-, rfl⟩ | ⟨-, hq⟩
        · exact hlen
        · exact hkept.length cid q hq
      · intro cid cid' q q' hne hq hq'
        rcases hcases cid q hq with ⟨hcid, rfl⟩ | ⟨-, hq⟩
        · rcases hcases cid' q' hq' with ⟨hcid', -⟩ | ⟨-, hq'⟩
          · exact absurd (hcid.trans hcid'.symm) hne
          · exact fun hcomparable => hnew cid' q' hq' hcomparable.symm
        · rcases hcases cid' q' hq' with ⟨-, rfl⟩ | ⟨-, hq'⟩
          · exact hnew cid q hq
          · exact hkept.apart cid cid' q q' hne hq hq'

theorem WellKept.onTemplateUpdate {m : Manager σ} (hkept : WellKept held m)
    (template : TemplateState) (ids : List UInt32) :
    WellKept held (onTemplateUpdate sha256d template m ids).2 := by
  have hprefixes : ∀ cid p,
      prefixAt (ChannelManager.onTemplateUpdate sha256d template m ids).2 cid = some p →
        prefixAt m cid = some p :=
    fun cid p hp => (prefixAt_onTemplateUpdate sha256d template m ids cid).symm.trans hp
  refine hkept.of_prefixAt hprefixes ?_
  intro cid p hp
  rw [allocator_onTemplateUpdate]
  exact hkept.mem cid p (hprefixes cid p hp)

theorem WellKept.connectionStep {s : GatewayState σ} {conn conn' : Connection σ}
    {a : ConnectionAction} {tracker : JobTracker.Tracker} (htracks : TracksIndices alloc held)
    (hkept : WellKept held conn.manager)
    (hstep : connectionStep sha256d alloc s conn a = some (conn', tracker)) :
    WellKept held conn'.manager := by
  rcases connectionStep_manager hstep with hsame | ⟨kind, msg, -, hopen⟩ |
    ⟨template, ids, hupdate⟩ | ⟨channelId, hclose⟩
  · rwa [hsame]
  · rw [hopen]
    exact hkept.openOutcome (htracks.openChannel sha256d kind conn.manager s.published msg)
  · rw [hupdate]
    exact hkept.onTemplateUpdate sha256d template ids
  · rw [hclose]
    exact hkept.handleCloseChannel htracks channelId

namespace MinersState

theorem mem_sv1Prefixes {s : MinersState σ} {id : ℕ} {p : Bytes}
    (hp : s.extranoncePrefix (.sv1 id) = some p) : p ∈ s.sv1Prefixes := by
  obtain ⟨miner, hminer, rfl⟩ := Option.map_eq_some_iff.mp hp
  exact List.mem_map.mpr ⟨⟨id, miner⟩, AList.mem_lookup_iff.mp hminer, rfl⟩

theorem mem_channelPrefixes {s : MinersState σ} {id : ℕ} {channelId : UInt32} {p : Bytes}
    {except : Option ℕ} (hp : s.extranoncePrefix (.sv2 id channelId) = some p)
    (hid : some id ≠ except) : p ∈ s.channelPrefixes except := by
  obtain ⟨conn, hconn, hp⟩ := Option.bind_eq_some_iff.mp hp
  obtain ⟨channel, hchannel, rfl⟩ := Option.map_eq_some_iff.mp hp
  refine List.mem_flatMap.mpr ⟨⟨id, conn⟩, List.mem_filter.mpr ⟨AList.mem_lookup_iff.mp hconn, ?_⟩,
    List.mem_map.mpr ⟨⟨channelId, channel⟩, AList.mem_lookup_iff.mp hchannel, rfl⟩⟩
  exact decide_eq_true hid

def Apart (s : MinersState σ) : Prop :=
  ∀ i j p q, i ≠ j → s.extranoncePrefix i = some p → s.extranoncePrefix j = some q →
    ¬ Comparable p q

theorem Apart.of_prefix {s t : MinersState σ} (hapart : s.Apart)
    (hprefixes : ∀ i p, t.extranoncePrefix i = some p → s.extranoncePrefix i = some p) :
    t.Apart :=
  fun i j p q hne hp hq => hapart i j p q hne (hprefixes i p hp) (hprefixes j q hq)

theorem Apart.of_new {s t : MinersState σ} (hapart : s.Apart) (new : MinerId) (newPrefix : Bytes)
    (hprefixes : ∀ i p, t.extranoncePrefix i = some p →
      i = new ∧ p = newPrefix ∨ i ≠ new ∧ s.extranoncePrefix i = some p)
    (hfresh : ∀ i p, i ≠ new → s.extranoncePrefix i = some p → ¬ Comparable newPrefix p) :
    t.Apart := by
  intro i j p q hne hp hq
  rcases hprefixes i p hp with ⟨rfl, rfl⟩ | ⟨hi, hp⟩
  · rcases hprefixes j q hq with ⟨rfl, -⟩ | ⟨hj, hq⟩
    · exact absurd rfl hne
    · exact hfresh j q hj hq
  · rcases hprefixes j q hq with ⟨rfl, rfl⟩ | ⟨hj, hq⟩
    · exact fun hcomparable => hfresh i p hi hp hcomparable.symm
    · exact hapart i j p q hne hp hq

structure Separate (held : σ → Set Bytes) (s : MinersState σ) : Prop where
  kept : ∀ id conn, s.gateway.connections.lookup id = some conn → WellKept held conn.manager
  apart : s.Apart

theorem Separate.disjointWork {s : MinersState σ} (hseparate : s.Separate held) :
    s.DisjointWork := by
  have hshort : ∀ i p, s.extranoncePrefix i = some p → p.length ≤ 12 := by
    intro i p hp
    cases i with
    | sv1 id =>
        obtain ⟨miner, -, rfl⟩ := Option.map_eq_some_iff.mp hp
        rw [length_extranonce1Bytes]
        decide
    | sv2 id channelId =>
        obtain ⟨conn, hconn, hp⟩ := Option.bind_eq_some_iff.mp hp
        exact ((hseparate.kept id conn hconn).length channelId p hp).2
  intro i j p q template hne hp hq _ _
  rw [extranonces_eq_extensions (hshort i p hp), extranonces_eq_extensions (hshort j q hq)]
  exact disjoint_extensions (hseparate.apart i j p q hne hp hq)

theorem extranoncePrefix_insert {s t : MinersState σ} {id : ℕ} {conn' : Connection σ}
    (hsv1 : t.sv1 = s.sv1)
    (hconnections : t.gateway.connections = s.gateway.connections.insert id conn') {i : MinerId}
    {p : Bytes} (hp : t.extranoncePrefix i = some p) :
    (∃ cid, i = .sv2 id cid ∧ prefixAt conn'.manager cid = some p) ∨
      (∀ cid, i ≠ .sv2 id cid) ∧ s.extranoncePrefix i = some p := by
  cases i with
  | sv1 id' =>
      refine Or.inr ⟨fun _ h => MinerId.noConfusion h, ?_⟩
      rw [extranoncePrefix, hsv1] at hp
      exact hp
  | sv2 id' cid =>
      obtain ⟨conn, hconn, hp⟩ := Option.bind_eq_some_iff.mp hp
      rw [hconnections] at hconn
      rcases lookup_insert_eq_some_iff.mp hconn with ⟨rfl, rfl⟩ | ⟨hne, hconn⟩
      · exact Or.inl ⟨cid, rfl, hp⟩
      · refine Or.inr ⟨?_, Option.bind_eq_some_iff.mpr ⟨conn, hconn, hp⟩⟩
        rintro cid' heq
        exact hne (MinerId.sv2.inj heq).1

theorem Separate.connectionStep {s t : MinersState σ} {id : ℕ} {conn conn' : Connection σ}
    {b : ConnectionAction} {tracker : JobTracker.Tracker} (htracks : TracksIndices alloc held)
    (hseparate : s.Separate held)
    (hguard : givesFreshPrefix sha256d alloc s (.gateway (.connection id b)) = true)
    (hconn : s.gateway.connections.lookup id = some conn)
    (hstep : connectionStep sha256d alloc s.gateway conn b = some (conn', tracker))
    (hsv1 : t.sv1 = s.sv1)
    (hconnections : t.gateway.connections = s.gateway.connections.insert id conn') :
    t.Separate held := by
  have hkept := hseparate.kept id conn hconn
  constructor
  · intro id' conn'' hconn''
    rw [hconnections] at hconn''
    rcases lookup_insert_eq_some_iff.mp hconn'' with ⟨-, rfl⟩ | ⟨-, hconn''⟩
    · exact hkept.connectionStep sha256d htracks hstep
    · exact hseparate.kept id' conn'' hconn''
  · have hbefore : ∀ cid p, prefixAt conn.manager cid = some p →
        s.extranoncePrefix (.sv2 id cid) = some p :=
      fun cid p hp => Option.bind_eq_some_iff.mpr ⟨conn, hconn, hp⟩
    -- a step that gives no channel a prefix
    have hsame : (∀ cid p, prefixAt conn'.manager cid = some p →
        prefixAt conn.manager cid = some p) → t.Apart := by
      intro hprefixes
      refine hseparate.apart.of_prefix fun i p hp => ?_
      rcases extranoncePrefix_insert hsv1 hconnections hp with ⟨cid, rfl, hp'⟩ | ⟨-, hp'⟩
      · exact hbefore cid p (hprefixes cid p hp')
      · exact hp'
    rcases connectionStep_manager hstep with hmanager | ⟨kind, msg, rfl, hmanager⟩ |
      ⟨template, ids, hmanager⟩ | ⟨channelId, hmanager⟩
    · exact hsame fun cid p hp => hmanager ▸ hp
    · cases htracks.openChannel sha256d kind conn.manager s.gateway.published msg with
      | same hprefixes hheld =>
          rw [hmanager] at hsame
          exact hsame fun cid p hp => (hprefixes cid).symm.trans hp
      | granted p halloc hlen hgranted hindex hmem hheld hprefixes =>
          simp only [givesFreshPrefix, hconn, hgranted, Bool.false_or, halloc, Option.all_some,
            apartFrom_iff, List.mem_append] at hguard
          refine hseparate.apart.of_new (.sv2 id conn.manager.nextChannelId) p ?_ ?_
          · intro i q hq
            rcases extranoncePrefix_insert hsv1 hconnections hq with ⟨cid, rfl, hq'⟩ | ⟨hne, hq'⟩
            · rw [hmanager, hprefixes] at hq'
              split_ifs at hq' with hcid
              · exact Or.inl ⟨by rw [hcid], (Option.some.inj hq').symm⟩
              · exact Or.inr ⟨fun heq => hcid (MinerId.sv2.inj heq).2, hbefore cid q hq'⟩
            · exact Or.inr ⟨hne _, hq'⟩
          · intro i q hne hq
            cases i with
            | sv1 id' => exact hguard q (Or.inl (mem_sv1Prefixes hq))
            | sv2 id' cid =>
                by_cases hid : id' = id
                · -- a channel of the same connection: the allocator gave it another index
                  subst hid
                  obtain ⟨conn₀, hconn₀, hq⟩ := Option.bind_eq_some_iff.mp hq
                  obtain rfl := Option.some.inj (hconn.symm.trans hconn₀)
                  intro hcomparable
                  exact hindex q (hkept.mem cid q hq)
                    (hcomparable.take_eq hlen.1 (hkept.length cid q hq).1).symm
                · exact hguard q (Or.inr (mem_channelPrefixes hq fun h => hid (Option.some.inj h)))
    · rw [hmanager] at hsame
      exact hsame fun cid p hp =>
        (prefixAt_onTemplateUpdate sha256d template conn.manager ids cid).symm.trans hp
    · rw [hmanager] at hsame
      exact hsame fun cid p hp => prefixAt_handleCloseChannel hp

theorem Separate.gatewayStep {newManager : Manager σ} {s t : MinersState σ} {a : GatewayAction}
    (htracks : TracksIndices alloc held) (hnew : newManager.channels = ∅)
    (hseparate : s.Separate held)
    (hguard : givesFreshPrefix sha256d alloc s (.gateway a) = true)
    (hstep : gatewayStep sha256d alloc newManager s.gateway a = some t.gateway)
    (hsv1 : t.sv1 = s.sv1) : t.Separate held := by
  rcases gatewayStep_managers hstep with ⟨id, b, conn, conn', tracker, rfl, hconn, hconnStep,
    hconnections⟩ | hmanagers
  · exact hseparate.connectionStep sha256d htracks hguard hconn hconnStep hsv1 hconnections
  · have hempty : ∀ cid, prefixAt newManager cid = none := by
      intro cid
      rw [prefixAt, hnew]
      rfl
    constructor
    · intro id conn' hconn'
      rcases hmanagers id conn' hconn' with hmanager | ⟨conn, hconn, hmanager⟩
      · rw [hmanager]
        constructor
        · intro cid p hp
          simp [hempty] at hp
        · intro cid p hp
          simp [hempty] at hp
        · intro cid cid' p q _ hp
          simp [hempty] at hp
      · exact hmanager ▸ hseparate.kept id conn hconn
    · refine hseparate.apart.of_prefix fun i p hp => ?_
      cases i with
      | sv1 id =>
          rw [extranoncePrefix, hsv1] at hp
          exact hp
      | sv2 id cid =>
          obtain ⟨conn', hconn', hp⟩ := Option.bind_eq_some_iff.mp hp
          rcases hmanagers id conn' hconn' with hmanager | ⟨conn, hconn, hmanager⟩
          · rw [hmanager, hempty] at hp
            cases hp
          · exact Option.bind_eq_some_iff.mpr ⟨conn, hconn, hmanager ▸ hp⟩

theorem Separate.sv1Accept {newManager : Manager σ} {s t : MinersState σ} {id : ℕ}
    (hseparate : s.Separate held)
    (hguard : givesFreshPrefix sha256d alloc s (.sv1Accept id) = true)
    (hstep : minersStep sha256d alloc newManager s (.sv1Accept id) = some t) :
    t.Separate held := by
  simp only [givesFreshPrefix, Bool.and_eq_true, apartFrom_iff, List.all_eq_true,
    bne_iff_ne] at hguard
  obtain ⟨hchannels, hclients⟩ := hguard
  simp only [minersStep] at hstep
  split at hstep
  · cases hstep
  · obtain rfl := Option.some.inj hstep
    refine ⟨hseparate.kept,
      hseparate.apart.of_new (.sv1 id) (extranonce1Bytes s.nextClientId) ?_ ?_⟩
    · intro i p hp
      cases i with
      | sv1 id' =>
          obtain ⟨miner, hminer, rfl⟩ := Option.map_eq_some_iff.mp hp
          rcases lookup_insert_eq_some_iff.mp hminer with ⟨rfl, rfl⟩ | ⟨hne, hminer⟩
          · exact Or.inl ⟨rfl, rfl⟩
          · exact Or.inr ⟨fun heq => hne (MinerId.sv1.inj heq),
              Option.map_eq_some_iff.mpr ⟨miner, hminer, rfl⟩⟩
      | sv2 id' cid => exact Or.inr ⟨fun heq => MinerId.noConfusion heq, hp⟩
    · intro i p hne hp
      cases i with
      | sv1 id' =>
          obtain ⟨miner, hminer, rfl⟩ := Option.map_eq_some_iff.mp hp
          rintro hcomparable
          have htake := hcomparable.take_eq (k := 4) (length_extranonce1Bytes _).ge
            (length_extranonce1Bytes _).ge
          rw [List.take_of_length_le (length_extranonce1Bytes _).le,
            List.take_of_length_le (length_extranonce1Bytes _).le] at htake
          exact hclients _ (AList.mem_lookup_iff.mp hminer) (extranonce1Bytes_injective htake).symm
      | sv2 id' cid => exact hchannels p (mem_channelPrefixes hp (Option.some_ne_none id'))

theorem Separate.step {newManager : Manager σ} {s t : MinersState σ} {a : MinersAction}
    (htracks : TracksIndices alloc held) (hnew : newManager.channels = ∅)
    (hseparate : s.Separate held) (hguard : givesFreshPrefix sha256d alloc s a = true)
    (hstep : minersStep sha256d alloc newManager s a = some t) : t.Separate held := by
  cases a with
  | gateway a =>
      simp only [minersStep, Option.bind_eq_bind, Option.bind_eq_some_iff] at hstep
      obtain ⟨gateway, hgateway, hsome⟩ := hstep
      obtain rfl := Option.some.inj hsome
      exact hseparate.gatewayStep sha256d htracks hnew hguard hgateway rfl
  | sv1Accept id => exact hseparate.sv1Accept sha256d hguard hstep
  | sv1Notify id =>
      simp only [minersStep] at hstep
      split at hstep
      · rename_i miner params template hminer hnotify
        obtain rfl := Option.some.inj hstep
        refine ⟨hseparate.kept, hseparate.apart.of_prefix fun i p hp => ?_⟩
        cases i with
        | sv1 id' =>
            obtain ⟨miner', hminer', rfl⟩ := Option.map_eq_some_iff.mp hp
            rcases lookup_insert_eq_some_iff.mp hminer' with ⟨rfl, rfl⟩ | ⟨-, hminer'⟩
            · exact Option.map_eq_some_iff.mpr ⟨miner, hminer, rfl⟩
            · exact Option.map_eq_some_iff.mpr ⟨miner', hminer', rfl⟩
        | sv2 id' cid => exact hp
      · cases hstep
  | sv1Disconnect id =>
      obtain rfl := Option.some.inj hstep
      refine ⟨hseparate.kept, hseparate.apart.of_prefix fun i p hp => ?_⟩
      cases i with
      | sv1 id' =>
          obtain ⟨miner, hminer, rfl⟩ := Option.map_eq_some_iff.mp hp
          exact Option.map_eq_some_iff.mpr ⟨miner, (lookup_erase_eq_some_iff.mp hminer).2, rfl⟩
      | sv2 id' cid => exact hp

end MinersState

/-- As long as no prefix is given out that overlaps one given out elsewhere, no two miners share
work. -/
theorem reachable_disjointWork {newManager : Manager σ} (htracks : TracksIndices alloc held)
    (hnew : newManager.channels = ∅) (t : MinersState σ)
    (hreaches : Reaches (minersStep sha256d alloc newManager)
      (fun s a => givesFreshPrefix sha256d alloc s a = true) {} t) : t.DisjointWork := by
  have hstart : MinersState.Separate held ({} : MinersState σ) := by
    constructor
    · intro id conn hconn
      cases hconn
    · intro i j p q hne hp hq
      cases i with
      | sv1 id => cases hp
      | sv2 id cid => cases hp
  have hseparate : t.Separate held :=
    hreaches.invariant hstart fun s a t hinv hguard hstep =>
      hinv.step sha256d htracks hnew hguard hstep
  exact hseparate.disjointWork

end Tracking

theorem tracksIndices_countingAllocator :
    TracksIndices countingAllocator fun n => {p | leValue (p.take 2).reverse < n} := by
  have hindex : ∀ n rest, n < 65536 →
      leValue (((leBytes 2 n).reverse ++ rest).take 2).reverse = n := by
    intro n rest hn
    rw [List.take_left' (by rw [List.length_reverse, length_leBytes]), List.reverse_reverse,
      leValue_leBytes_of_lt hn]
  have hfresh : ∀ (n : ℕ) (p : Bytes), leValue (p.take 2).reverse = n →
      (∀ q : Bytes, leValue (q.take 2).reverse < n → q.take 2 ≠ p.take 2) ∧
        leValue (p.take 2).reverse < n + 1 ∧
          ∀ q : Bytes, leValue (q.take 2).reverse < n → leValue (q.take 2).reverse < n + 1 := by
    rintro n p rfl
    refine ⟨?_, Nat.lt_succ_self _, fun q hq => Nat.lt_succ_of_lt hq⟩
    intro q hq heq
    rw [heq] at hq
    exact absurd hq (lt_irrefl _)
  constructor
  · intro _ n p n' halloc
    obtain ⟨hn, hsome⟩ := Option.ite_none_right_eq_some.mp halloc
    obtain ⟨rfl, rfl⟩ := Prod.mk.inj (Option.some.inj hsome)
    exact hfresh n _ (by simpa using hindex n [] hn)
  · intro n p n' halloc
    obtain ⟨hn, hsome⟩ := Option.ite_none_right_eq_some.mp halloc
    obtain ⟨rfl, rfl⟩ := Prod.mk.inj (Option.some.inj hsome)
    exact hfresh n _ (hindex n _ hn)
  · exact fun _ _ _ hq _ => hq

def openFirstChannel (id : ℕ) : List MinersAction :=
  [.accept id, .connection id (.openChannel .extended plainOpenRequest), .connection id .seedRead,
    .connection id .seedInsert, .connection id .send, .connection id .send,
    .connection id .send].map .gateway

def publishFirst : List MinersAction :=
  [.gateway (.publish (plainState (fun _ => ByteVec.fill 32 0) emptyTemplate))]

def sameWork (i j : MinerId) (t : MinersState ℕ) : Bool :=
  decide (t.work i = t.work j ∧ (t.work i).isSome ∧ t.extranoncePrefix j = some [0, 0])

theorem disjointWork_of_both_protocols :
    let step := minersStep (fun _ => ByteVec.fill 32 0) countingAllocator emptyManager
    ∃ t, Reaches step (fun s a =>
        givesFreshPrefix (fun _ => ByteVec.fill 32 0) countingAllocator s a = true) {} t ∧
      sameWork (.sv1 0) (.sv2 0 1) t = true ∧ t.DisjointWork := by
  intro step
  obtain ⟨t, hreaches, hwork⟩ := exists_reaches_of_runGuarded step
    (givesFreshPrefix (fun _ => ByteVec.fill 32 0) countingAllocator) {}
    (publishFirst ++ openFirstChannel 0 ++
      [.gateway .assemblerWake, .gateway .assemblerIndex, .gateway .assemblerInsert,
        .gateway .assemblerNotify, .sv1Accept 0, .sv1Notify 0])
    (sameWork (.sv1 0) (.sv2 0 1)) (by decide +kernel)
  exact ⟨t, hreaches, hwork, reachable_disjointWork (fun _ => ByteVec.fill 32 0)
    tracksIndices_countingAllocator rfl t hreaches⟩

/-- Each SV2 connection has an allocator of its own, and they all start with the same prefix. -/
theorem first_channels_of_two_connections_share_work :
    let step := minersStep (fun _ => ByteVec.fill 32 0) countingAllocator emptyManager
    ∃ t, Reachable step {} t ∧ ¬ t.DisjointWork := by
  intro step
  obtain ⟨t, hreachable, hshared⟩ := exists_reachable_of_runActions step {}
    (publishFirst ++ openFirstChannel 0 ++ openFirstChannel 1)
    (fun t => sameWork (.sv2 0 1) (.sv2 1 1) t &&
      decide (t.extranoncePrefix (.sv2 0 1) = some [0, 0]))
    (by decide +kernel)
  refine ⟨t, hreachable, ?_⟩
  rw [Bool.and_eq_true, sameWork, decide_eq_true_eq, decide_eq_true_eq] at hshared
  obtain ⟨⟨hwork, hsome, hprefixes₁⟩, hprefixes₀⟩ := hshared
  obtain ⟨template, htemplate⟩ := Option.isSome_iff_exists.mp hsome
  intro hdisjoint
  have hmem : fullExtranonce [0, 0] [] ∈ extranonces [0, 0] := ⟨[], rfl⟩
  exact Set.disjoint_left.mp (hdisjoint (.sv2 0 1) (.sv2 1 1) [0, 0] [0, 0] template (by decide)
    hprefixes₀ hprefixes₁ htemplate (hwork ▸ htemplate)) hmem hmem

end DatumGateway.ExtranonceSpace

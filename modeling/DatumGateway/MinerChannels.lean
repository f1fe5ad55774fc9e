import DatumGateway.ChannelOpening
import DatumGateway.JobStreams
import DatumGateway.TableReplicas

/-!
A miner and its connection: what the miner was told of its channels, and what the server holds
of them, while requests and frames are under way in both directions.
-/

namespace DatumGateway.MinerChannels

open DatumGateway.ByteString
open DatumGateway.ChannelManager
open DatumGateway.ChannelOpening
open DatumGateway.FloatValues
open DatumGateway.JobStreams
open DatumGateway.JobTracker
open DatumGateway.KeyedMaps
open DatumGateway.MiningConnection
open DatumGateway.MiningListener
open DatumGateway.OpenRequests
open DatumGateway.SharedTemplate
open DatumGateway.ShareEncoder
open DatumGateway.ShareForwarding
open DatumGateway.SharePath
open DatumGateway.TableReplicas
open DatumGateway.TransitionSystem

/-- A channel as its miner knows it; there is no job before the first previous hash. -/
structure KnownChannel where
  isExtended : Bool
  extranoncePrefix : Bytes
  jobId : Option UInt32
  deriving DecidableEq

def openedId : MiningOut → Option UInt32
  | .openExtendedMiningChannelSuccess msg => some msg.channelId
  | .openStandardMiningChannelSuccess msg => some msg.channelId
  | _ => none

/-- What a frame makes of the miner's entry of the channel. -/
def hear : MiningOut → UInt32 → Option KnownChannel → Option KnownChannel
  | .openExtendedMiningChannelSuccess msg, cid, entry =>
      if msg.channelId = cid then
        some { isExtended := true, extranoncePrefix := msg.extranoncePrefix, jobId := none }
      else entry
  | .openStandardMiningChannelSuccess msg, cid, entry =>
      if msg.channelId = cid then
        some { isExtended := false, extranoncePrefix := msg.extranoncePrefix, jobId := none }
      else entry
  | .setNewPrevHash msg, cid, entry =>
      if msg.channelId = cid then entry.map fun known => { known with jobId := some msg.jobId }
      else entry
  | _, _, entry => entry

theorem hear_of_openedId_ne {out : MiningOut} {cid : UInt32} (hnot : openedId out ≠ some cid) :
    hear out cid none = none ∧
      ∀ known, ∃ known', hear out cid (some known) = some known' ∧
        (known'.isExtended, known'.extranoncePrefix) =
          (known.isExtended, known.extranoncePrefix) := by
  cases out with
  | openExtendedMiningChannelSuccess msg =>
      have hcid : msg.channelId ≠ cid := fun hcid => hnot (congrArg some hcid)
      exact ⟨if_neg hcid, fun known => ⟨known, if_neg hcid, rfl⟩⟩
  | openStandardMiningChannelSuccess msg =>
      have hcid : msg.channelId ≠ cid := fun hcid => hnot (congrArg some hcid)
      exact ⟨if_neg hcid, fun known => ⟨known, if_neg hcid, rfl⟩⟩
  | setNewPrevHash msg =>
      by_cases hcid : msg.channelId = cid
      · exact ⟨if_pos hcid, fun known => ⟨_, if_pos hcid, rfl⟩⟩
      · exact ⟨if_neg hcid, fun known => ⟨known, if_neg hcid, rfl⟩⟩
  | _ => exact ⟨rfl, fun known => ⟨known, rfl, rfl⟩⟩

/-- The form and the prefix of a channel are those it was opened with. -/
def channelUpdates : Updates UInt32 KnownChannel MiningOut (Bool × Bytes) where
  hear := hear
  Opens out cid := openedId out = some cid
  kind known := (known.isExtended, known.extranoncePrefix)
  hear_none hnot := (hear_of_openedId_ne hnot).1
  hear_some known hnot := (hear_of_openedId_ne hnot).2 known

/-- The frame is about no entry. -/
def Silent (out : MiningOut) : Prop :=
  openedId out = none ∧ ∀ cid entry, hear out cid entry = entry

theorem silent_of_not_isStreamFrame {out : MiningOut} (hquiet : isStreamFrame out = false) :
    Silent out := by
  cases out with
  | openExtendedMiningChannelSuccess msg => cases hquiet
  | openStandardMiningChannelSuccess msg => cases hquiet
  | setNewPrevHash msg => cases hquiet
  | _ => exact ⟨rfl, fun _ _ => rfl⟩

theorem hearAll_silent {outs : List MiningOut} (hsilent : ∀ out ∈ outs, Silent out) (cid : UInt32)
    (entry : Option KnownChannel) : channelUpdates.hearAll outs cid entry = entry := by
  induction outs with
  | nil => rfl
  | cons out outs ih =>
      obtain ⟨hout, houts⟩ := List.forall_mem_cons.mp hsilent
      rw [Updates.hearAll_cons]
      have hsame : channelUpdates.hear out cid entry = entry := hout.2 cid entry
      rw [hsame]
      exact ih houts

/-! The server's channels, and what it tells of them. -/

def entryOf (channel : OpenedChannel) : KnownChannel where
  isExtended := channel.isExtended
  extranoncePrefix := channel.extranoncePrefix
  jobId := some channel.lastJobId

def serverTable {σ : Type} (m : Manager σ) (cid : UInt32) : Option KnownChannel :=
  (m.channels.lookup cid).map entryOf

section Telling

variable (sha256d : Bytes → Bytes32) {σ : Type} (alloc : ExtranonceAllocator σ)

theorem hearAll_grantedFrames (kind : ChannelKind) (requestId channelId jobId : UInt32)
    (target : Bytes32) (extranoncePrefix : Bytes) (template : TemplateState) (cid : UInt32)
    (entry : Option KnownChannel) :
    channelUpdates.hearAll
        (grantedFrames sha256d kind requestId channelId jobId target extranoncePrefix template) cid
        entry =
      if channelId = cid then
        some { isExtended := decide (kind = .extended), extranoncePrefix, jobId := some jobId }
      else entry := by
  cases kind with
  | extended =>
      simp only [grantedFrames, Updates.hearAll_cons, Updates.hearAll_nil, channelUpdates, hear,
        buildSetNewPrevHash]
      split_ifs
      · rfl
      · rfl
  | standard =>
      simp only [grantedFrames, Updates.hearAll_cons, Updates.hearAll_nil, channelUpdates, hear,
        buildSetNewPrevHash]
      split_ifs
      · rfl
      · rfl

theorem grantedFrames_cons (kind : ChannelKind) (requestId channelId jobId : UInt32)
    (target : Bytes32) (extranoncePrefix : Bytes) (template : TemplateState) :
    ∃ success rest, grantedFrames sha256d kind requestId channelId jobId target extranoncePrefix
        template = success :: rest ∧
      openedId success = some channelId ∧ ∀ out ∈ rest, openedId out = none := by
  cases kind with
  | extended => exact ⟨_, _, rfl, rfl, by simp [openedId]⟩
  | standard => exact ⟨_, _, rfl, rfl, by simp [openedId]⟩

theorem serverTable_insert {m : Manager σ} {channels : KeyMap UInt32 OpenedChannel}
    {channel : OpenedChannel} {cid : UInt32} (hchannels : channels = m.channels.insert cid channel)
    (key : UInt32) : (channels.lookup key).map entryOf =
      if cid = key then some (entryOf channel) else serverTable m key := by
  rw [hchannels]
  split_ifs with hkey
  · rw [← hkey, AList.lookup_insert, Option.map_some]
  · rw [AList.lookup_insert_ne (Ne.symm hkey), serverTable]

theorem updateChannel_tells (template : TemplateState) (m : Manager σ) (cid : UInt32) :
    (∀ out ∈ (updateChannel sha256d template m cid).1, openedId out = none) ∧
      ∀ key, channelUpdates.hearAll (updateChannel sha256d template m cid).1 key
        (serverTable m key) = serverTable (updateChannel sha256d template m cid).2 key := by
  unfold updateChannel
  cases hchannel : m.channels.lookup cid with
  | none => exact ⟨List.forall_mem_nil _, fun _ => rfl⟩
  | some channel =>
      dsimp only
      generalize hjob : (if channel.isExtended then
          (buildNewExtendedJob cid m.nextJobId template).toList.map MiningOut.newExtendedMiningJob
        else
          [.newMiningJob (buildNewMiningJob sha256d cid m.nextJobId channel.extranoncePrefix
            template)]) = job
      have hsilent : ∀ out ∈ job, Silent out := by
        intro out hout
        rw [← hjob] at hout
        split_ifs at hout with hextended
        · obtain ⟨msg, -, rfl⟩ := List.mem_map.mp hout
          exact ⟨rfl, fun _ _ => rfl⟩
        · obtain rfl := List.mem_singleton.mp hout
          exact ⟨rfl, fun _ _ => rfl⟩
      refine ⟨fun out hout => ?_, fun key => ?_⟩
      · rcases List.mem_append.mp hout with hout | hout
        · exact (hsilent out hout).1
        · obtain rfl := List.mem_singleton.mp hout
          rfl
      · rw [Updates.hearAll_append, hearAll_silent hsilent]
        refine Eq.trans ?_ (serverTable_insert (m := m) rfl key).symm
        by_cases hkey : cid = key
        · have hentry : serverTable m key = some (entryOf channel) := by
            rw [serverTable, ← hkey, hchannel, Option.map_some]
          rw [if_pos hkey, hentry]
          exact if_pos hkey
        · rw [if_neg hkey]
          exact if_neg hkey

theorem onTemplateUpdate_tells (template : TemplateState) (m : Manager σ) (ids : List UInt32) :
    (∀ out ∈ (onTemplateUpdate sha256d template m ids).1, openedId out = none) ∧
      ∀ key, channelUpdates.hearAll (onTemplateUpdate sha256d template m ids).1 key
        (serverTable m key) = serverTable (onTemplateUpdate sha256d template m ids).2 key := by
  induction ids generalizing m with
  | nil => exact ⟨List.forall_mem_nil _, fun _ => rfl⟩
  | cons cid ids ih =>
      obtain ⟨hfirst, hheard⟩ := updateChannel_tells sha256d template m cid
      obtain ⟨hrest, hheard'⟩ := ih (updateChannel sha256d template m cid).2
      refine ⟨List.forall_mem_append.mpr ⟨hfirst, hrest⟩, fun key => ?_⟩
      simp only [onTemplateUpdate]
      rw [Updates.hearAll_append, hheard, hheard']

theorem serverTable_handleCloseChannel (m : Manager σ) (channelId : UInt32) :
    serverTable (handleCloseChannel alloc m channelId) =
      Function.update (serverTable m) channelId none := by
  funext cid
  rw [Function.update_apply]
  unfold handleCloseChannel
  cases hchannel : m.channels.lookup channelId with
  | none =>
      split_ifs with hcid
      · rw [serverTable, hcid, hchannel, Option.map_none]
      · rfl
  | some channel =>
      split_ifs with hcid
      · rw [serverTable, hcid, AList.lookup_erase, Option.map_none]
      · rw [serverTable, AList.lookup_erase_ne hcid, serverTable]

end Telling

section Refusals

variable (sha256d : Bytes → Bytes32) {σ α : Type} (acc : ShareAccounting α)
variable (userCfg : ShareUserConfig) (blockFound : Bool)

theorem rejected_of_refusal {accounting : α} {s : Submission} {outcome : ShareOutcome}
    {cid seq : UInt32} {errorCode : String}
    (hmem : .wrote (.submitSharesError cid seq errorCode) ∈ (forwardShareOutcome acc blockFound
      accounting s.share.channelId s.share.sequenceNumber outcome).filterMap
        (eventOf (.submitShares s))) :
    outcome = .rejected errorCode := by
  obtain ⟨step, hstep, hevent⟩ := List.mem_filterMap.mp hmem
  cases outcome with
  | valid body =>
      simp only [forwardShareOutcome, buildSubmitSharesSuccess] at hstep
      rcases List.mem_cons.mp hstep with rfl | hack
      · cases hevent
      · split_ifs at hack
        · obtain rfl := List.mem_singleton.mp hack
          cases hevent
        · cases hack
  | blockFound body blockPayload =>
      simp only [forwardShareOutcome, buildSubmitSharesSuccess, startSubmit, List.cons_append]
        at hstep
      rcases List.mem_cons.mp hstep with rfl | hrest
      · cases hevent
      · rcases List.mem_append.mp hrest with hstart | hack
        · split_ifs at hstart
          · obtain rfl := List.mem_singleton.mp hstart
            cases hevent
          · cases hstart
        · obtain rfl := List.mem_singleton.mp hack
          cases hevent
  | rejected code =>
      obtain rfl := List.mem_singleton.mp hstep
      cases hevent
      rfl

theorem refusal_of_fitsChannel {conn : Connection σ α} {around : Readings} {s : Submission}
    {channel : OpenedChannel}
    (hchannel : conn.manager.channels.lookup s.share.channelId = some channel)
    (hfits : fitsChannel channel s = true) {cid seq : UInt32} {errorCode : String}
    (hmem : .wrote (.submitSharesError cid seq errorCode) ∈
      (submitted sha256d acc userCfg blockFound conn around s).1) :
    errorCode = "invalid-job-id" := by
  have hrejected : (handleSubmit sha256d acc conn.manager around.templateRx userCfg
      conn.accounting conn.tracker around.paddingByte s).1 = .rejected errorCode :=
    rejected_of_refusal acc blockFound hmem
  rw [handleSubmit_of_fitsChannel sha256d acc hchannel hfits, finalizeShare] at hrejected
  cases hentry : conn.tracker.get s.jobKey with
  | none =>
      rw [hentry] at hrejected
      exact (ShareOutcome.rejected.inj hrejected).symm
  | some entry =>
      rw [hentry] at hrejected
      dsimp only at hrejected
      unfold shareOutcome at hrejected
      split at hrejected
      · cases hrejected
      · cases hrejected

theorem silent_submitted (conn : Connection σ α) (around : Readings) (s : Submission) :
    ∀ out ∈ (submitted sha256d acc userCfg blockFound conn around s).1.filterMap written,
      Silent out := by
  intro out hout
  obtain ⟨e, he, hwritten⟩ := List.mem_filterMap.mp hout
  refine silent_of_not_isStreamFrame ?_
  rcases mem_events_forwardShareOutcome acc blockFound he with rfl | rfl | ⟨errorCode, rfl⟩
  · cases hwritten
  · obtain rfl := Option.some.inj hwritten
    rfl
  · obtain rfl := Option.some.inj hwritten
    rfl

end Refusals

/-! Both parties, and what is under way between them. -/

/-- An extended share brings the ten bytes that the opening frame asks for. -/
def isFormed : Submission → Bool
  | .extended share => share.extranonce.length == 10
  | .standard _ => true

def isExtendedShare (s : Submission) : Bool :=
  decide (s.kind = .extended)

theorem fitsChannel_of_isFormed {channel : OpenedChannel} {s : Submission}
    (hformed : isFormed s = true) (hkind : channel.isExtended = isExtendedShare s) :
    fitsChannel channel s = true := by
  cases s with
  | extended share =>
      have hextended : channel.isExtended = true := hkind
      rw [fitsChannel, hextended, Bool.true_and]
      exact hformed
  | standard share =>
      have hstandard : channel.isExtended = false := hkind
      rw [fitsChannel, hstandard, Bool.not_false]

structure Pair (σ α : Type) where
  conn : Connection σ α
  known : UInt32 → Option KnownChannel
  toServer : List MiningIn
  toMiner : List MiningOut
  /-- How many open requests the server has answered. -/
  opens : ℕ

inductive PairAction where
  | ask (msg : MiningIn)
  | serve (around : Readings)
  | templateChanged (template : TemplateState) (ids : List UInt32)
  | trackerChanged (tracker : Tracker)
  | deliver

/-- A miner closes and mines only on channels that it knows, with shares of their kind. -/
def mayAsk (known : UInt32 → Option KnownChannel) : MiningIn → Bool
  | .closeChannel channelId => (known channelId).isSome
  | .submitShares s =>
      isFormed s && (known s.share.channelId).any fun channel =>
        channel.isExtended == isExtendedShare s
  | _ => true

def forget (known : UInt32 → Option KnownChannel) : MiningIn → UInt32 → Option KnownChannel
  | .closeChannel channelId => Function.update known channelId none
  | _ => known

def isOpen : MiningIn → Bool
  | .openMiningChannel _ _ => true
  | _ => false

def requestOf : MiningIn → Request UInt32 (Bool × Bytes)
  | .closeChannel channelId => .drop channelId
  | .submitShares s => .use s.share.channelId {kind | kind.1 = isExtendedShare s}
  | _ => .other

section Pairs

variable (sha256d : Bytes → Bytes32) {σ α : Type} (alloc : ExtranonceAllocator σ)
variable (acc : ShareAccounting α) (userCfg : ShareUserConfig) (blockFound : Bool)

/-- The connection takes a step, and what it writes is under way. -/
def react (pair : Pair σ α) (a : ConnectionAction) : Option (Pair σ α) :=
  (connectionStep sha256d alloc acc userCfg blockFound pair.conn a).map fun conn =>
    let events := conn.events.drop pair.conn.events.length
    { pair with conn, toMiner := pair.toMiner ++ events.filterMap written }

def pairStep (pair : Pair σ α) : PairAction → Option (Pair σ α)
  | .ask msg =>
      if mayAsk pair.known msg then
        some { pair with known := forget pair.known msg, toServer := pair.toServer ++ [msg] }
      else none
  | .serve around =>
      match pair.toServer with
      | [] => none
      | msg :: rest =>
          react sha256d alloc acc userCfg blockFound
            { pair with toServer := rest, opens := pair.opens + (isOpen msg).toNat }
            (.frame msg around)
  | .templateChanged template ids =>
      react sha256d alloc acc userCfg blockFound pair (.templateChanged template ids)
  | .trackerChanged tracker =>
      react sha256d alloc acc userCfg blockFound pair (.trackerChanged tracker)
  | .deliver =>
      match pair.toMiner with
      | [] => none
      | out :: rest =>
          some { pair with known := fun cid => hear out cid (pair.known cid), toMiner := rest }

def connected (allocator : σ) (minHashrateThreshold : FloatValue) (minTargetLe : Bytes32)
    (accounting : α) (tracker : Tracker) : Pair σ α where
  conn :=
    { manager := withPolicy allocator minHashrateThreshold minTargetLe, accounting, tracker
      events := [] }
  known _ := none
  toServer := []
  toMiner := []
  opens := 0

def replicas (taken : ℕ) (pair : Pair σ α) :
    Replicas UInt32 KnownChannel MiningOut (Bool × Bytes) where
  owner := serverTable pair.conn.manager
  copy := pair.known
  told := pair.toMiner
  asked := pair.toServer.map requestOf
  opened := channelNumber '' Set.Iio taken

/-- All that a run keeps, when `taken` channel ids have been given out. -/
structure InStep (taken : ℕ) (pair : Pair σ α) : Prop where
  taken_le : taken ≤ pair.opens
  nextChannelId : pair.conn.manager.nextChannelId = channelNumber taken
  agrees : Agrees channelUpdates (replicas taken pair)
  formed : ∀ s, .submitShares s ∈ pair.toServer → isFormed s = true
  refusals : ∀ cid seq errorCode,
    .wrote (.submitSharesError cid seq errorCode) ∈ pair.conn.events → errorCode = "invalid-job-id"

/-- What a connection with `taken` ids does when it takes a step: it tells of all that it changes,
and opens at most one channel, under the next id. -/
structure Tells (taken taken' : ℕ) (conn next : Connection σ α)
    (events : List ConnectionEvent) : Prop where
  events_eq : next.events = conn.events ++ events
  taken_le : taken ≤ taken'
  nextChannelId : next.manager.nextChannelId = channelNumber taken'
  heard : ∀ cid, channelUpdates.hearAll (events.filterMap written) cid
    (serverTable conn.manager cid) = serverTable next.manager cid
  opens : ∀ out ∈ events.filterMap written, ∀ cid, openedId out = some cid →
    cid = channelNumber taken ∧ taken < taken'
  opensOnce : (events.filterMap written).Pairwise fun out later =>
    ∀ cid, openedId out = some cid → openedId later ≠ some cid
  refusals : ∀ cid seq errorCode,
    .wrote (.submitSharesError cid seq errorCode) ∈ events → errorCode = "invalid-job-id"

variable {sha256d alloc acc userCfg blockFound}

theorem channelNumber_notMem {taken : ℕ} (htaken : taken < 2 ^ 32) :
    channelNumber taken ∉ channelNumber '' Set.Iio taken := by
  rintro ⟨i, hi, hsame⟩
  rw [Set.mem_Iio] at hi
  have hi' : i = taken := channelNumber_injOn (hi.trans htaken) htaken hsame
  omega

theorem pairwise_unopened {outs : List MiningOut} (hopened : ∀ out ∈ outs, openedId out = none) :
    outs.Pairwise fun out later => ∀ cid, openedId out = some cid → openedId later ≠ some cid := by
  refine List.pairwise_of_forall_mem_list fun out hout later _ cid hsome => ?_
  rw [hopened out hout] at hsome
  cases hsome

theorem not_refusal_of_stream {outs : List MiningOut} (hstream : outs.all isStreamFrame = true)
    {cid seq : UInt32} {errorCode : String} :
    .wrote (.submitSharesError cid seq errorCode) ∉ outs.map ConnectionEvent.wrote := by
  intro hmem
  obtain ⟨out, hout, hsame⟩ := List.mem_map.mp hmem
  obtain rfl := ConnectionEvent.wrote.inj hsame
  cases List.all_eq_true.mp hstream _ hout

theorem InStep.tells {taken taken' : ℕ} {pair : Pair σ α} (hstep : InStep taken pair)
    {next : Connection σ α} {events : List ConnectionEvent}
    (htells : Tells taken taken' pair.conn next events) (hopens : taken' ≤ pair.opens)
    (htaken : taken < 2 ^ 32) :
    InStep taken'
      { pair with conn := next, toMiner := pair.toMiner ++ events.filterMap written } where
  taken_le := hopens
  nextChannelId := htells.nextChannelId
  agrees := by
    refine hstep.agrees.tell htells.heard (Set.image_mono (Set.Iio_subset_Iio htells.taken_le))
      (fun out hout cid hopened => ?_) htells.opensOnce
    obtain ⟨rfl, hlt⟩ := htells.opens out hout cid hopened
    exact ⟨channelNumber_notMem htaken, Set.mem_image_of_mem channelNumber hlt⟩
  formed := hstep.formed
  refusals := by
    intro cid seq errorCode hmem
    rw [htells.events_eq] at hmem
    rcases List.mem_append.mp hmem with hmem | hmem
    · exact hstep.refusals cid seq errorCode hmem
    · exact htells.refusals cid seq errorCode hmem

theorem tells_silent {taken : ℕ} {conn next : Connection σ α} {events : List ConnectionEvent}
    (hnext : conn.manager.nextChannelId = channelNumber taken)
    (hmanager : next.manager = conn.manager) (hevents : next.events = conn.events ++ events)
    (hsilent : ∀ out ∈ events.filterMap written, Silent out)
    (hrefusals : ∀ cid seq errorCode,
      .wrote (.submitSharesError cid seq errorCode) ∈ events → errorCode = "invalid-job-id") :
    Tells taken taken conn next events where
  events_eq := hevents
  taken_le := Nat.le_refl taken
  nextChannelId := by rw [hmanager, hnext]
  heard cid := by rw [hearAll_silent hsilent, hmanager]
  opens out hout cid hopened := by
    rw [(hsilent out hout).1] at hopened
    cases hopened
  opensOnce := pairwise_unopened fun out hout => (hsilent out hout).1
  refusals := hrefusals

theorem tells_answer {taken : ℕ} {conn next : Connection σ α} {out : MiningOut}
    (hnext : conn.manager.nextChannelId = channelNumber taken)
    (hmanager : next.manager = conn.manager) (hevents : next.events = conn.events ++ [.wrote out])
    (hout : isStreamFrame out = false ∧
      ∀ cid seq errorCode, out ≠ .submitSharesError cid seq errorCode) :
    Tells taken taken conn next [.wrote out] := by
  refine tells_silent hnext hmanager hevents (fun out' hout' => ?_) fun cid seq errorCode hmem => ?_
  · obtain rfl := List.mem_singleton.mp hout'
    exact silent_of_not_isStreamFrame hout.1
  · exact absurd (ConnectionEvent.wrote.inj (List.mem_singleton.mp hmem)).symm
      (hout.2 cid seq errorCode)

theorem tells_frames {taken taken' : ℕ} {conn next : Connection σ α} {outs : List MiningOut}
    (htaken : taken ≤ taken') (hnext : next.manager.nextChannelId = channelNumber taken')
    (hevents : next.events = conn.events ++ outs.map .wrote)
    (hstream : outs.all isStreamFrame = true) (hopened : ∀ out ∈ outs, openedId out = none)
    (hheard : ∀ cid, channelUpdates.hearAll outs cid (serverTable conn.manager cid) =
      serverTable next.manager cid) :
    Tells taken taken' conn next (outs.map .wrote) where
  events_eq := hevents
  taken_le := htaken
  nextChannelId := hnext
  heard := by
    rw [filterMap_written_map_wrote]
    exact hheard
  opens out hout cid hsome := by
    rw [filterMap_written_map_wrote] at hout
    rw [hopened out hout] at hsome
    cases hsome
  opensOnce := by
    rw [filterMap_written_map_wrote]
    exact pairwise_unopened hopened
  refusals _ _ _ hmem := absurd hmem (not_refusal_of_stream hstream)

theorem tells_granted {taken : ℕ} {conn next : Connection σ α} {kind : ChannelKind}
    {requestId channelId jobId : UInt32} {target : Bytes32} {extranoncePrefix : Bytes}
    {template : TemplateState} {channel : OpenedChannel}
    (hchannelId : channelId = channelNumber taken)
    (hentry : entryOf channel =
      { isExtended := decide (kind = .extended), extranoncePrefix, jobId := some jobId })
    (hnext : next.manager.nextChannelId = channelNumber (taken + 1))
    (hchannels : next.manager.channels = conn.manager.channels.insert channelId channel)
    {outs : List MiningOut} (houts : outs = grantedFrames sha256d kind requestId channelId jobId
      target extranoncePrefix template)
    (hevents : next.events = conn.events ++ outs.map .wrote)
    (hstream : outs.all isStreamFrame = true) :
    Tells taken (taken + 1) conn next (outs.map .wrote) := by
  obtain ⟨success, rest, hframes, hsuccess, hrest⟩ := grantedFrames_cons sha256d kind requestId
    channelId jobId target extranoncePrefix template
  refine
    { events_eq := hevents
      taken_le := Nat.le_succ taken
      nextChannelId := hnext
      heard := fun cid => ?_
      opens := fun out hout cid hsome => ?_
      opensOnce := ?_
      refusals := fun _ _ _ hmem => absurd hmem (not_refusal_of_stream hstream) }
  · rw [filterMap_written_map_wrote, houts, hearAll_grantedFrames, ← hentry]
    exact (serverTable_insert hchannels cid).symm
  · rw [filterMap_written_map_wrote, houts, hframes] at hout
    rcases List.mem_cons.mp hout with rfl | hout
    · obtain rfl := Option.some.inj (hsuccess.symm.trans hsome)
      exact ⟨hchannelId, Nat.lt_succ_self taken⟩
    · rw [hrest out hout] at hsome
      cases hsome
  · rw [filterMap_written_map_wrote, houts, hframes, List.pairwise_cons]
    refine ⟨fun later hlater cid _ hsome => ?_, pairwise_unopened hrest⟩
    rw [hrest later hlater] at hsome
    cases hsome

theorem tells_opened {taken : ℕ} {conn next : Connection σ α} {kind : ChannelKind}
    {templateRx : Option TemplateState} {msg : OpenMiningChannel}
    {opened : List MiningOut × Manager σ}
    (hopening : Opening sha256d alloc kind conn.manager templateRx msg opened)
    (hnext : conn.manager.nextChannelId = channelNumber taken)
    (hmanager : next.manager = opened.2)
    (hevents : next.events = conn.events ++ opened.1.map .wrote)
    (hstream : opened.1.all isStreamFrame = true) :
    ∃ taken' ≤ taken + 1, Tells taken taken' conn next (opened.1.map .wrote) := by
  cases hopening with
  | refused errorCode hnot =>
      refine ⟨taken, Nat.le_succ taken, tells_frames (Nat.le_refl taken) ?_ hevents hstream ?_ ?_⟩
      · rw [hmanager, hnext]
      · simp [openedId]
      · intro cid
        rw [hmanager]
        rfl
  | undone errorCode p allocator hnot halloc =>
      refine ⟨taken + 1, Nat.le_refl _, tells_frames (Nat.le_succ taken) ?_ hevents hstream ?_ ?_⟩
      · rw [hmanager, channelNumber_succ, ← hnext]
      · simp [openedId]
      · intro cid
        rw [hmanager]
        rfl
  | granted template userIdentity maxTargetLe p allocator hgrantable hadmitted htemplate halloc =>
      have hentry : entryOf (openedChannel kind conn.manager msg userIdentity maxTargetLe p) =
          { isExtended := decide (kind = .extended), extranoncePrefix := p
            jobId := some conn.manager.nextJobId } := rfl
      refine ⟨taken + 1, Nat.le_refl _, tells_granted hnext hentry ?_ ?_ rfl hevents hstream⟩
      · rw [hmanager, channelNumber_succ, ← hnext]
      · rw [hmanager]

theorem InStep.react {taken : ℕ} {pair t : Pair σ α} (hstep : InStep taken pair)
    (htaken : taken < 2 ^ 32) {a : ConnectionAction}
    (ha : react sha256d alloc acc userCfg blockFound pair a = some t)
    (htells : ∀ next, connectionStep sha256d alloc acc userCfg blockFound pair.conn a = some next →
      ∃ taken' ≤ pair.opens, ∃ events, Tells taken taken' pair.conn next events) :
    ∃ taken', InStep taken' t := by
  obtain ⟨next, hnext, rfl⟩ := Option.map_eq_some_iff.mp ha
  obtain ⟨taken', hopens, events, htells⟩ := htells next hnext
  have hdrop : next.events.drop pair.conn.events.length = events := by
    rw [htells.events_eq, List.drop_left]
  rw [hdrop]
  exact ⟨taken', hstep.tells htells hopens htaken⟩

theorem InStep.fits {taken : ℕ} {pair : Pair σ α} (hstep : InStep taken pair) {s : Submission}
    (hmem : .submitShares s ∈ pair.toServer) :
    ∃ channel, pair.conn.manager.channels.lookup s.share.channelId = some channel ∧
      fitsChannel channel s = true := by
  obtain ⟨known, hknown, hkind⟩ := hstep.agrees.uses s.share.channelId _
    (List.mem_map.mpr ⟨_, hmem, rfl⟩)
  obtain ⟨channel, hchannel, rfl⟩ := Option.map_eq_some_iff.mp hknown
  exact ⟨channel, hchannel, fitsChannel_of_isFormed (hstep.formed s hmem) hkind⟩

theorem InStep.ask {taken : ℕ} {pair : Pair σ α} (hstep : InStep taken pair) {msg : MiningIn}
    (hmay : mayAsk pair.known msg = true) :
    InStep taken
      { pair with known := forget pair.known msg, toServer := pair.toServer ++ [msg] } := by
  refine
    { taken_le := hstep.taken_le
      nextChannelId := hstep.nextChannelId
      agrees := ?_
      formed := fun s hmem => ?_
      refusals := hstep.refusals }
  · unfold replicas
    rw [List.map_append, List.map_singleton]
    cases msg with
    | closeChannel channelId =>
        refine hstep.agrees.askDrop ?_
        exact Option.isSome_iff_ne_none.mp hmay
    | submitShares s =>
        obtain ⟨-, hknown⟩ := Bool.and_eq_true_iff.mp hmay
        obtain ⟨known, hlookup, hkind⟩ := (Option.any_eq_true _ _).mp hknown
        exact hstep.agrees.askUse hlookup (eq_of_beq hkind)
    | openMiningChannel kind msg => exact hstep.agrees.askOther
    | updateChannel msg => exact hstep.agrees.askOther
    | setCustomMiningJob channelId requestId => exact hstep.agrees.askOther
  · rcases List.mem_append.mp hmem with hmem | hmem
    · exact hstep.formed s hmem
    · obtain rfl := List.mem_singleton.mp hmem
      exact (Bool.and_eq_true_iff.mp hmay).1

theorem InStep.deliver {taken : ℕ} {pair : Pair σ α} (hstep : InStep taken pair)
    {out : MiningOut} {rest : List MiningOut} (htold : pair.toMiner = out :: rest) :
    InStep taken
      { pair with known := fun cid => hear out cid (pair.known cid), toMiner := rest } where
  taken_le := hstep.taken_le
  nextChannelId := hstep.nextChannelId
  agrees := hstep.agrees.deliver htold
  formed := hstep.formed
  refusals := hstep.refusals

theorem InStep.served {taken : ℕ} {pair : Pair σ α} (hstep : InStep taken pair) {msg : MiningIn}
    {rest : List MiningIn} (hasked : pair.toServer = msg :: rest)
    (hkeeps : ∀ channelId, msg ≠ .closeChannel channelId) :
    InStep taken
      { pair with toServer := rest, opens := pair.opens + (isOpen msg).toNat } where
  taken_le := hstep.taken_le.trans (Nat.le_add_right _ _)
  nextChannelId := hstep.nextChannelId
  agrees := by
    have hrequests : (replicas taken pair).asked = requestOf msg :: rest.map requestOf := by
      rw [replicas, hasked, List.map_cons]
    refine hstep.agrees.serve hrequests fun channelId hdrop => ?_
    cases msg with
    | closeChannel channelId' => exact hkeeps channelId' rfl
    | _ => cases hdrop
  formed s hmem := hstep.formed s (hasked ▸ List.mem_cons_of_mem _ hmem)
  refusals := hstep.refusals

theorem InStep.closed {taken : ℕ} {pair : Pair σ α} (hstep : InStep taken pair)
    {channelId : UInt32} {rest : List MiningIn}
    (hasked : pair.toServer = .closeChannel channelId :: rest) {next : Connection σ α}
    (hnext : next =
      { pair.conn with manager := handleCloseChannel alloc pair.conn.manager channelId }) :
    InStep taken { pair with conn := next, toServer := rest } where
  taken_le := hstep.taken_le
  nextChannelId := by
    rw [hnext, ← hstep.nextChannelId]
    dsimp only
    unfold handleCloseChannel
    cases pair.conn.manager.channels.lookup channelId with
    | none => rfl
    | some channel => rfl
  agrees := by
    subst hnext
    unfold replicas
    rw [serverTable_handleCloseChannel]
    refine hstep.agrees.serveDrop ?_
    rw [replicas, hasked, List.map_cons]
    rfl
  formed s hmem := hstep.formed s (hasked ▸ List.mem_cons_of_mem _ hmem)
  refusals := by
    rw [hnext]
    exact hstep.refusals

/-- Whatever a frame leads to, the frames written tell of it, but for a closed channel. -/
theorem InStep.tells_frame {taken : ℕ} {pair : Pair σ α} (hstep : InStep taken pair)
    {msg : MiningIn} (hmem : msg ∈ pair.toServer)
    (hkeeps : ∀ channelId, msg ≠ .closeChannel channelId) {around : Readings}
    {next : Connection σ α}
    (hnext : connectionStep sha256d alloc acc userCfg blockFound pair.conn (.frame msg around) =
      some next) :
    ∃ taken' ≤ pair.opens + (isOpen msg).toNat, ∃ events,
      Tells taken taken' pair.conn next events := by
  have hsame : taken ≤ pair.opens + (isOpen msg).toNat :=
    hstep.taken_le.trans (Nat.le_add_right _ _)
  cases msg with
  | closeChannel channelId => exact absurd rfl (hkeeps channelId)
  | openMiningChannel kind msg =>
      have hopening :=
        openChannel_opening sha256d alloc kind pair.conn.manager around.templateRx msg
      obtain ⟨hmanager, hevents⟩ : next.manager = (openChannel sha256d alloc kind
            pair.conn.manager around.templateRx msg).2 ∧
          next.events = pair.conn.events ++ (openChannel sha256d alloc kind
            pair.conn.manager around.templateRx msg).1.map .wrote := by
        cases connectionStep_cases sha256d alloc acc userCfg blockFound hnext with
        | opened _ _ _ opened hopened => exact ⟨by rw [hopened], by rw [hopened]⟩
      obtain ⟨taken', hle, htells⟩ := tells_opened hopening hstep.nextChannelId hmanager hevents
        (isStreamFrame_openChannel sha256d alloc kind _ _ msg)
      exact ⟨taken', hle.trans (Nat.add_le_add_right hstep.taken_le 1), _, htells⟩
  | updateChannel msg =>
      cases connectionStep_cases sha256d alloc acc userCfg blockFound hnext with
      | updated =>
          refine ⟨taken, hsame, _, tells_answer hstep.nextChannelId rfl rfl ?_⟩
          rcases handleUpdateChannel_cases msg pair.conn.manager.minHashrateThreshold
            pair.conn.manager.minTargetLe with ⟨errorCode, herror⟩ | ⟨target, htarget⟩
          · rw [herror]
            exact ⟨rfl, fun _ _ _ hrefusal => by cases hrefusal⟩
          · rw [htarget]
            exact ⟨rfl, fun _ _ _ hrefusal => by cases hrefusal⟩
  | submitShares s =>
      cases connectionStep_cases sha256d alloc acc userCfg blockFound hnext with
      | submitted _ _ answer hanswer =>
          subst hanswer
          obtain ⟨channel, hchannel, hfits⟩ := hstep.fits hmem
          refine ⟨taken, hsame, _, tells_silent hstep.nextChannelId rfl rfl ?_ ?_⟩
          · exact silent_submitted sha256d acc userCfg blockFound pair.conn around s
          · intro cid seq errorCode hrefusal
            exact refusal_of_fitsChannel sha256d acc userCfg blockFound hchannel hfits hrefusal
  | setCustomMiningJob channelId requestId =>
      cases connectionStep_cases sha256d alloc acc userCfg blockFound hnext with
      | customJobRefused =>
          refine ⟨taken, hsame, _, tells_answer hstep.nextChannelId rfl rfl ?_⟩
          exact ⟨rfl, fun _ _ _ hrefusal => by cases hrefusal⟩

theorem InStep.serve {taken : ℕ} {pair t : Pair σ α} (hstep : InStep taken pair)
    (htaken : taken < 2 ^ 32) {around : Readings}
    (ha : pairStep sha256d alloc acc userCfg blockFound pair (.serve around) = some t) :
    ∃ taken', InStep taken' t := by
  cases hasked : pair.toServer with
  | nil =>
      rw [pairStep, hasked] at ha
      cases ha
  | cons msg rest =>
      rw [pairStep, hasked] at ha
      dsimp only at ha
      by_cases hkeeps : ∀ channelId, msg ≠ .closeChannel channelId
      · refine (hstep.served hasked hkeeps).react htaken ha fun next hnext => ?_
        exact hstep.tells_frame (hasked ▸ List.mem_cons_self) hkeeps hnext
      · push Not at hkeeps
        obtain ⟨channelId, rfl⟩ := hkeeps
        obtain ⟨next, hnext, rfl⟩ := Option.map_eq_some_iff.mp ha
        cases connectionStep_cases sha256d alloc acc userCfg blockFound hnext with
        | closed =>
            refine ⟨taken, ?_⟩
            simp only [List.drop_length, List.filterMap_nil, List.append_nil]
            exact hstep.closed hasked rfl

theorem InStep.step {taken : ℕ} {pair t : Pair σ α} (hstep : InStep taken pair)
    (hopens : pair.opens < 2 ^ 32) {a : PairAction}
    (ha : pairStep sha256d alloc acc userCfg blockFound pair a = some t) :
    ∃ taken', InStep taken' t := by
  have htaken : taken < 2 ^ 32 := hstep.taken_le.trans_lt hopens
  cases a with
  | ask msg =>
      obtain ⟨hmay, hnext⟩ := Option.ite_none_right_eq_some.mp ha
      obtain rfl := Option.some.inj hnext
      exact ⟨taken, hstep.ask hmay⟩
  | serve around => exact hstep.serve htaken ha
  | templateChanged template ids =>
      refine hstep.react htaken ha fun next hnext => ?_
      cases connectionStep_cases sha256d alloc acc userCfg blockFound hnext with
      | templateChanged _ _ updated hupdated hids =>
          subst hupdated
          obtain ⟨hopened, hheard⟩ := onTemplateUpdate_tells sha256d template pair.conn.manager ids
          refine ⟨taken, hstep.taken_le, _, tells_frames (Nat.le_refl taken) ?_ rfl
            (isStreamFrame_onTemplateUpdate sha256d template _ ids) hopened hheard⟩
          exact (nextChannelId_onTemplateUpdate sha256d template _ ids).trans hstep.nextChannelId
  | trackerChanged tracker =>
      refine hstep.react htaken ha fun next hnext => ?_
      cases connectionStep_cases sha256d alloc acc userCfg blockFound hnext with
      | trackerChanged =>
          exact ⟨taken, hstep.taken_le, [], tells_silent hstep.nextChannelId rfl
            (List.append_nil _).symm (List.forall_mem_nil _) fun _ _ _ hmem =>
              absurd hmem List.not_mem_nil⟩
  | deliver =>
      cases htold : pair.toMiner with
      | nil =>
          rw [pairStep, htold] at ha
          cases ha
      | cons out rest =>
          rw [pairStep, htold] at ha
          obtain rfl := Option.some.inj ha
          exact ⟨taken, hstep.deliver htold⟩

end Pairs

end DatumGateway.MinerChannels

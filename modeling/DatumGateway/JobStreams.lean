import DatumGateway.JobSizes
import DatumGateway.MiningConnection

namespace DatumGateway.JobStreams

open DatumGateway.ByteString
open DatumGateway.BlockTemplate
open DatumGateway.ChannelManager
open DatumGateway.Coinbaser
open DatumGateway.JobSizes
open DatumGateway.JobTracker
open DatumGateway.MerkleBranches
open DatumGateway.MiningConnection
open DatumGateway.MiningListener
open DatumGateway.SharedTemplate
open DatumGateway.ShareEncoder
open DatumGateway.SharePath
open DatumGateway.TransitionSystem

def written : ConnectionEvent → Option MiningOut
  | .forwarded _ _ => none
  | .wrote out => some out

def frames {σ α : Type} (conn : Connection σ α) : List MiningOut :=
  conn.events.filterMap written

/-- The channel and the job that a job message is about. -/
def jobOf : MiningOut → Option (UInt32 × UInt32)
  | .newExtendedMiningJob job => some (job.channelId, job.jobId)
  | .newMiningJob job => some (job.channelId, job.jobId)
  | _ => none

def jobIds (outs : List MiningOut) : List UInt32 :=
  (outs.filterMap jobOf).map Prod.snd

def jobsFor (channelId : UInt32) (outs : List MiningOut) : List UInt32 :=
  ((outs.filterMap jobOf).filter fun job => job.1 = channelId).map Prod.snd

@[simp] theorem jobIds_append (outs outs' : List MiningOut) :
    jobIds (outs ++ outs') = jobIds outs ++ jobIds outs' := by
  simp only [jobIds, List.filterMap_append, List.map_append]

@[simp] theorem jobsFor_append (channelId : UInt32) (outs outs' : List MiningOut) :
    jobsFor channelId (outs ++ outs') = jobsFor channelId outs ++ jobsFor channelId outs' := by
  simp only [jobsFor, List.filterMap_append, List.filter_append, List.map_append]

@[simp] theorem filterMap_written_map_wrote (outs : List MiningOut) :
    (outs.map ConnectionEvent.wrote).filterMap written = outs := by
  rw [List.filterMap_map]
  exact List.filterMap_some

section Streams

variable (sha256d : Bytes → Bytes32)

/-- A job with the fields of the template, for either kind of channel. -/
inductive JobMessage (template : TemplateState) (channelId jobId : UInt32) : MiningOut → Prop
  | extended (job : NewExtendedMiningJob) (hchannelId : job.channelId = channelId)
      (hjobId : job.jobId = jobId) (hversion : job.version = template.version)
      (hmerklePath : job.merklePath = template.merkleBranches.map List.Vector.reverse)
      (hcoinb1 : job.coinbaseTxPrefix = template.coinb1)
      (hcoinb2 : job.coinbaseTxSuffix = template.coinb2) (hfuture : job.minNtime = none) :
      JobMessage template channelId jobId (.newExtendedMiningJob job)
  | standard (job : NewMiningJob) (extranoncePrefix : Bytes)
      (hchannelId : job.channelId = channelId) (hjobId : job.jobId = jobId)
      (hversion : job.version = template.version)
      (hmerkleRoot : job.merkleRoot = foldMerkleBranches sha256d
        (sha256d (template.coinb1 ++ extranoncePrefix ++ template.coinb2)) template.merkleBranches)
      (hfuture : job.minNtime = none) :
      JobMessage template channelId jobId (.newMiningJob job)

/-- A previous hash with the fields of the template; on the wire `nbits` is little-endian. -/
structure PrevHashOf (template : TemplateState) (msg : SetNewPrevHash) : Prop where
  prevHash : msg.prevHash = template.prevHash
  minNtime : msg.minNtime = template.minNtime
  nbits : leBytes 4 msg.nbits.toNat = template.nbits.toList.reverse

variable (published : Set TemplateState)

/-- Every previous hash comes right after the job that it activates, from the same state. -/
def Paired (outs : List MiningOut) : Prop :=
  ∀ front msg, front ++ [.setNewPrevHash msg] <+: outs →
    ∃ earlier job, ∃ template ∈ published, front = earlier ++ [job] ∧
      JobMessage sha256d template msg.channelId msg.jobId job ∧ PrevHashOf template msg

variable {sha256d published}

theorem jobMessage_newExtendedJob (template : TemplateState) (channelId jobId : UInt32) :
    JobMessage sha256d template channelId jobId
      (.newExtendedMiningJob (newExtendedJob channelId jobId template)) :=
  .extended _ rfl rfl rfl rfl rfl rfl rfl

theorem jobMessage_buildNewMiningJob (template : TemplateState) (channelId jobId : UInt32)
    (extranoncePrefix : Bytes) : JobMessage sha256d template channelId jobId
      (.newMiningJob (buildNewMiningJob sha256d channelId jobId extranoncePrefix template)) :=
  .standard _ extranoncePrefix rfl rfl rfl rfl rfl

theorem prevHashOf_buildSetNewPrevHash (template : TemplateState) (channelId jobId : UInt32) :
    PrevHashOf template (buildSetNewPrevHash channelId jobId template) where
  prevHash := rfl
  minNtime := rfl
  nbits := leBytes_nbits_buildSetNewPrevHash channelId jobId template

theorem filterMap_jobOf_pair {template : TemplateState} {channelId jobId : UInt32}
    {job : MiningOut} (hjob : JobMessage sha256d template channelId jobId job)
    (msg : SetNewPrevHash) :
    [job, .setNewPrevHash msg].filterMap jobOf = [(channelId, jobId)] := by
  cases hjob with
  | extended job hchannelId hjobId =>
      subst hchannelId hjobId
      rfl
  | standard job extranoncePrefix hchannelId hjobId =>
      subst hchannelId hjobId
      rfl

theorem jobIds_pair {template : TemplateState} {channelId jobId : UInt32} {job : MiningOut}
    (hjob : JobMessage sha256d template channelId jobId job) (msg : SetNewPrevHash) :
    jobIds [job, .setNewPrevHash msg] = [jobId] := by
  rw [jobIds, filterMap_jobOf_pair hjob]
  rfl

theorem jobsFor_pair {template : TemplateState} {channelId jobId : UInt32} {job : MiningOut}
    (hjob : JobMessage sha256d template channelId jobId job) (msg : SetNewPrevHash)
    (cid : UInt32) :
    jobsFor cid [job, .setNewPrevHash msg] = if channelId = cid then [jobId] else [] := by
  rw [jobsFor, filterMap_jobOf_pair hjob]
  split_ifs with hcid
  · simp [hcid]
  · simp [hcid]

theorem paired_nil : Paired sha256d published [] := by
  intro front msg hprefix
  simp at hprefix

theorem paired_concat {outs : List MiningOut} (hpaired : Paired sha256d published outs)
    {out : MiningOut} (hout : ∀ msg, out ≠ .setNewPrevHash msg) :
    Paired sha256d published (outs ++ [out]) := by
  intro front msg hprefix
  rcases List.prefix_concat_iff.mp hprefix with hlast | hearlier
  · obtain ⟨-, hsame⟩ := List.append_inj' hlast rfl
    exact absurd (List.singleton_inj.mp hsame).symm (hout msg)
  · exact hpaired front msg hearlier

theorem paired_append_job {outs : List MiningOut} (hpaired : Paired sha256d published outs)
    {template : TemplateState} (htemplate : template ∈ published) {channelId jobId : UInt32}
    {job : MiningOut} (hjob : JobMessage sha256d template channelId jobId job) :
    Paired sha256d published
      (outs ++ [job, .setNewPrevHash (buildSetNewPrevHash channelId jobId template)]) := by
  intro front msg hprefix
  rw [List.append_cons outs job] at hprefix
  rcases List.prefix_concat_iff.mp hprefix with hlast | hearlier
  · obtain ⟨rfl, hsame⟩ := List.append_inj' hlast rfl
    obtain rfl := MiningOut.setNewPrevHash.inj (List.singleton_inj.mp hsame)
    exact ⟨outs, job, template, htemplate, rfl, hjob,
      prevHashOf_buildSetNewPrevHash template channelId jobId⟩
  · have hquiet : ∀ msg, job ≠ .setNewPrevHash msg := by
      rintro msg rfl
      cases hjob
    exact paired_concat hpaired hquiet front msg hearlier

end Streams

section Numbers

variable {σ : Type}

/-- The jobs of the frames are numbered from `n` on, and the manager goes on behind them. -/
structure Takes (n : ℕ) (outs : List MiningOut) (m : Manager σ) : Prop where
  jobIds_eq : jobIds outs = (List.range' n (jobIds outs).length).map UInt32.ofNat
  nextJobId : m.nextJobId = UInt32.ofNat (n + (jobIds outs).length)

theorem takes_none {n : ℕ} {outs : List MiningOut} {m : Manager σ} (hnone : jobIds outs = [])
    (hnext : m.nextJobId = UInt32.ofNat n) : Takes n outs m where
  jobIds_eq := by
    rw [hnone]
    rfl
  nextJobId := by
    rw [hnone]
    exact hnext

theorem takes_one {n : ℕ} {outs : List MiningOut} {m : Manager σ}
    (hone : jobIds outs = [UInt32.ofNat n]) (hnext : m.nextJobId = UInt32.ofNat n + 1) :
    Takes n outs m where
  jobIds_eq := by
    rw [hone]
    rfl
  nextJobId := by
    rw [hone, hnext]
    exact (UInt32.ofNat_add n 1).symm

theorem Takes.append {n : ℕ} {outs outs' : List MiningOut} {m m' : Manager σ}
    (htakes : Takes n outs m) (htakes' : Takes (n + (jobIds outs).length) outs' m') :
    Takes n (outs ++ outs') m' where
  jobIds_eq := by
    rw [jobIds_append, List.length_append, ← List.range'_append_1, List.map_append]
    exact congrArg₂ (· ++ ·) htakes.jobIds_eq htakes'.jobIds_eq
  nextJobId := by
    rw [jobIds_append, List.length_append, ← Nat.add_assoc]
    exact htakes'.nextJobId

theorem Takes.pairwise {outs : List MiningOut} {m : Manager σ} (htakes : Takes 1 outs m)
    (hcount : (jobIds outs).length < 2 ^ 32) : (jobIds outs).Pairwise (· < ·) := by
  rw [htakes.jobIds_eq, List.pairwise_map]
  refine List.Pairwise.imp_of_mem ?_ List.pairwise_lt_range'
  intro i j hi hj hlt
  have hj' := List.mem_range'_1.mp hj
  rw [UInt32.lt_iff_toNat_lt, UInt32.toNat_ofNat_of_lt' (show i < 2 ^ 32 by omega),
    UInt32.toNat_ofNat_of_lt' (show j < 2 ^ 32 by omega)]
  exact hlt

end Numbers

section Runs

variable (sha256d : Bytes → Bytes32) {σ α : Type} (alloc : ExtranonceAllocator σ)
variable {published : Set TemplateState}

theorem updateChannel_of_open {template : TemplateState} (hfits : FitsJobFrame template)
    {m : Manager σ} {cid : UInt32} {channel : OpenedChannel}
    (hopen : m.channels.lookup cid = some channel) :
    ∃ job m', JobMessage sha256d template cid m.nextJobId job ∧
      updateChannel sha256d template m cid =
        ([job, .setNewPrevHash (buildSetNewPrevHash cid m.nextJobId template)], m') ∧
      m'.nextJobId = m.nextJobId + 1 ∧
      m'.channels = m.channels.insert cid { channel with lastJobId := m.nextJobId } := by
  unfold updateChannel
  rw [hopen]
  dsimp only
  cases channel.isExtended with
  | true =>
      rw [buildNewExtendedJob_of_fits hfits]
      exact ⟨_, _, jobMessage_newExtendedJob template cid m.nextJobId, rfl, rfl, rfl⟩
  | false =>
      exact ⟨_, _, jobMessage_buildNewMiningJob template cid m.nextJobId channel.extranoncePrefix,
        rfl, rfl, rfl⟩

theorem pair_grantedFrames (kind : ChannelKind) (requestId channelId jobId : UInt32)
    (target : Bytes32) (extranoncePrefix : Bytes) (template : TemplateState) :
    ∃ success job,
      grantedFrames sha256d kind requestId channelId jobId target extranoncePrefix template =
        [success, job, .setNewPrevHash (buildSetNewPrevHash channelId jobId template)] ∧
      (∀ msg, success ≠ .setNewPrevHash msg) ∧ jobIds [success] = [] ∧
      JobMessage sha256d template channelId jobId job := by
  cases kind with
  | extended =>
      exact ⟨_, _, rfl, fun _ h => (nomatch h), rfl,
        jobMessage_newExtendedJob template channelId jobId⟩
  | standard =>
      exact ⟨_, _, rfl, fun _ h => (nomatch h), rfl,
        jobMessage_buildNewMiningJob template channelId jobId extranoncePrefix⟩

/-- What the update of the listed channels adds to the frames before it. -/
structure Updated (published : Set TemplateState) (n : ℕ) (m : Manager σ) (ids : List UInt32)
    (updated : List MiningOut × Manager σ) : Prop where
  paired : ∀ outs, Paired sha256d published outs → Paired sha256d published (outs ++ updated.1)
  takes : Takes n updated.1 updated.2
  refreshed : ∀ cid ∈ ids, ∃ channel, updated.2.channels.lookup cid = some channel ∧
    jobsFor cid updated.1 = [channel.lastJobId]
  unchanged : ∀ cid ∉ ids, updated.2.channels.lookup cid = m.channels.lookup cid ∧
    jobsFor cid updated.1 = []

theorem updated_onTemplateUpdate {template : TemplateState} (htemplate : template ∈ published)
    (hfits : FitsJobFrame template) {m : Manager σ} {n : ℕ}
    (hnext : m.nextJobId = UInt32.ofNat n) {ids : List UInt32} (hnodup : ids.Nodup)
    (hopen : ∀ cid ∈ ids, cid ∈ m.channels) :
    Updated sha256d published n m ids (onTemplateUpdate sha256d template m ids) := by
  induction ids generalizing m n with
  | nil =>
      refine ⟨fun outs hpaired => ?_, takes_none rfl hnext, by simp, fun _ _ => ⟨rfl, rfl⟩⟩
      rw [onTemplateUpdate, List.append_nil]
      exact hpaired
  | cons cid ids ih =>
      obtain ⟨hnew, hnodup⟩ := List.nodup_cons.mp hnodup
      obtain ⟨channel, hchannel⟩ := Option.isSome_iff_exists.mp
        (AList.lookup_isSome.mpr (hopen cid List.mem_cons_self))
      obtain ⟨job, m', hjob, hupdate, hnext', hchannels⟩ :=
        updateChannel_of_open sha256d hfits hchannel
      have hids : jobIds [job, .setNewPrevHash (buildSetNewPrevHash cid m.nextJobId template)] =
          [m.nextJobId] := jobIds_pair hjob _
      have hrest := ih (hnext'.trans (by rw [hnext]; exact (UInt32.ofNat_add n 1).symm)) hnodup
        (by
          intro cid' hcid'
          rw [hchannels, AList.mem_insert]
          exact Or.inr (hopen cid' (List.mem_cons_of_mem _ hcid')))
      simp only [onTemplateUpdate, hupdate]
      refine ⟨?_, ?_, ?_, ?_⟩
      · intro outs hpaired
        rw [← List.append_assoc]
        exact hrest.paired _ (paired_append_job hpaired htemplate hjob)
      · refine (takes_one (hids.trans (by rw [hnext])) (hnext'.trans (by rw [hnext]))).append ?_
        rw [hids]
        exact hrest.takes
      · intro cid' hcid'
        rw [jobsFor_append, jobsFor_pair hjob]
        rcases List.mem_cons.mp hcid' with rfl | hmem
        · obtain ⟨hsame, hnone⟩ := hrest.unchanged cid' hnew
          refine ⟨_, hsame.trans (by rw [hchannels, AList.lookup_insert]), ?_⟩
          rw [if_pos rfl, hnone]
          rfl
        · have hne : cid ≠ cid' := by
            rintro rfl
            exact hnew hmem
          rw [if_neg hne]
          exact hrest.refreshed cid' hmem
      · intro cid' hcid'
        obtain ⟨hne, hmem⟩ := List.ne_and_not_mem_of_not_mem_cons hcid'
        obtain ⟨hsame, hnone⟩ := hrest.unchanged cid' hmem
        refine ⟨hsame.trans (by rw [hchannels, AList.lookup_insert_ne hne]), ?_⟩
        rw [jobsFor_append, jobsFor_pair hjob, if_neg hne.symm, hnone]
        rfl

end Runs

section Connections

variable (sha256d : Bytes → Bytes32) {σ α : Type} (alloc : ExtranonceAllocator σ)
variable (acc : ShareAccounting α) (userCfg : ShareUserConfig) (blockFound : Bool)
variable (published : Set TemplateState)

/-- The step makes its jobs from a published state, if it makes any. -/
def UsesOnly (_ : Connection σ α) : ConnectionAction → Prop
  | .frame (.openMiningChannel _ _) around =>
      ∀ template ∈ around.templateRx, template ∈ published
  | .templateChanged template _ => template ∈ published
  | _ => True

structure Stream (conn : Connection σ α) : Prop where
  paired : Paired sha256d published (frames conn)
  takes : Takes 1 (frames conn) conn.manager

/-- Each open channel, and no other, has been sent one job, which is now its last one. -/
def Refreshed (conn next : Connection σ α) : Prop :=
  ∀ channelId,
    jobsFor channelId ((frames next).drop (frames conn).length) =
        ((next.manager.channels.lookup channelId).map OpenedChannel.lastJobId).toList ∧
      (channelId ∈ next.manager.channels ↔ channelId ∈ conn.manager.channels)

variable {sha256d published}

theorem frames_append {conn : Connection σ α} {m : Manager σ} {accounting : α} {tracker : Tracker}
    (new : List ConnectionEvent) :
    frames { manager := m, accounting, tracker, events := conn.events ++ new : Connection σ α } =
      frames conn ++ new.filterMap written :=
  List.filterMap_append

theorem paired_append_quiet {outs : List MiningOut} (hpaired : Paired sha256d published outs)
    {new : List MiningOut} (hquiet : ∀ out ∈ new, isStreamFrame out = false) :
    Paired sha256d published (outs ++ new) := by
  induction new generalizing outs with
  | nil =>
      rw [List.append_nil]
      exact hpaired
  | cons out new ih =>
      rw [List.append_cons]
      refine ih (paired_concat hpaired ?_) fun o ho => hquiet o (List.mem_cons_of_mem _ ho)
      rintro msg rfl
      exact Bool.noConfusion (hquiet _ List.mem_cons_self)

theorem jobIds_of_quiet {new : List MiningOut} (hquiet : ∀ out ∈ new, isStreamFrame out = false) :
    jobIds new = [] := by
  have hnone : new.filterMap jobOf = [] := by
    rw [List.filterMap_eq_nil_iff]
    intro out hout
    have hquiet := hquiet out hout
    cases out with
    | newExtendedMiningJob => cases hquiet
    | newMiningJob => cases hquiet
    | _ => rfl
  rw [jobIds, hnone]
  rfl

theorem Stream.quiet {conn next : Connection σ α} (hstream : Stream sha256d published conn)
    {new : List MiningOut} (hframes : frames next = frames conn ++ new)
    (hquiet : ∀ out ∈ new, isStreamFrame out = false)
    (hnext : next.manager.nextJobId = conn.manager.nextJobId) :
    Stream sha256d published next where
  paired := by
    rw [hframes]
    exact paired_append_quiet hstream.paired hquiet
  takes := by
    rw [hframes]
    exact hstream.takes.append
      (takes_none (jobIds_of_quiet hquiet) (hnext.trans hstream.takes.nextJobId))

theorem Stream.granted {conn next : Connection σ α} (hstream : Stream sha256d published conn)
    {kind : ChannelKind} {msg : OpenMiningChannel} {template : TemplateState}
    (htemplate : template ∈ published) {extranoncePrefix : Bytes} {target : Bytes32}
    {channel : OpenedChannel} {opened : List MiningOut × Manager σ}
    (hgranted : Granted sha256d kind conn.manager msg template extranoncePrefix target channel
      opened) (hframes : frames next = frames conn ++ opened.1)
    (hmanager : next.manager = opened.2) : Stream sha256d published next := by
  obtain ⟨success, job, hopened, hsuccess, hnone, hjob⟩ := pair_grantedFrames sha256d kind
    msg.requestId conn.manager.nextChannelId conn.manager.nextJobId target extranoncePrefix template
  rw [hgranted.frames, hopened, List.append_cons] at hframes
  have htold : Takes 1 (frames conn ++ [success]) conn.manager :=
    hstream.takes.append (takes_none hnone hstream.takes.nextJobId)
  constructor
  · rw [hframes]
    exact paired_append_job (paired_concat hstream.paired hsuccess) htemplate hjob
  · rw [hframes]
    refine htold.append (takes_one ?_ ?_)
    · rw [jobIds_pair hjob, htold.nextJobId]
    · rw [hmanager, hgranted.nextJobId, htold.nextJobId]

theorem Stream.opened {conn next : Connection σ α} (hstream : Stream sha256d published conn)
    (hfits : ∀ template ∈ published, FitsJobFrame template) {kind : ChannelKind}
    {templateRx : Option TemplateState} {msg : OpenMiningChannel}
    (htemplate : ∀ template ∈ templateRx, template ∈ published)
    (hframes : frames next = frames conn ++
      (openChannel sha256d alloc kind conn.manager templateRx msg).1)
    (hmanager : next.manager = (openChannel sha256d alloc kind conn.manager templateRx msg).2) :
    Stream sha256d published next := by
  have hrefused : ∀ errorCode, openChannel sha256d alloc kind conn.manager templateRx msg =
      ([.openMiningChannelError msg.requestId errorCode], conn.manager) →
        Stream sha256d published next := by
    intro errorCode hsame
    rw [hsame] at hframes hmanager
    rw [List.append_cons, List.append_nil] at hframes
    constructor
    · rw [hframes]
      exact paired_concat hstream.paired fun _ h => (nomatch h)
    · rw [hframes, hmanager]
      exact hstream.takes.append (takes_none rfl hstream.takes.nextJobId)
  cases templateRx with
  | none =>
      obtain ⟨errorCode, hsame⟩ := openChannel_none sha256d alloc kind conn.manager msg
      exact hrefused errorCode hsame
  | some template =>
      have hmem := htemplate template rfl
      rcases openChannel_outcomes alloc kind conn.manager template msg with ⟨errorCode, hsame⟩ |
        ⟨hnot, -⟩ | ⟨extranoncePrefix, target, channel, hgranted⟩
      · exact hrefused errorCode (hsame sha256d)
      · exact absurd (hfits template hmem) hnot
      · exact hstream.granted hmem (hgranted sha256d) hframes hmanager

theorem nextJobId_handleCloseChannel (m : Manager σ) (channelId : UInt32) :
    (handleCloseChannel alloc m channelId).nextJobId = m.nextJobId := by
  unfold handleCloseChannel
  cases m.channels.lookup channelId with
  | none => rfl
  | some channel => rfl

theorem isStreamFrame_handleUpdateChannel (msg : UpdateChannel) (m : Manager σ) :
    isStreamFrame (handleUpdateChannel msg m.minHashrateThreshold m.minTargetLe) = false := by
  rcases handleUpdateChannel_cases msg m.minHashrateThreshold m.minTargetLe with
    ⟨errorCode, herror⟩ | ⟨target, htarget⟩
  · rw [herror]
    rfl
  · rw [htarget]
    rfl

theorem updated_of_templateChanged (hfits : ∀ template ∈ published, FitsJobFrame template)
    {conn : Connection σ α} (hstream : Stream sha256d published conn) {template : TemplateState}
    (htemplate : template ∈ published) {ids : List UInt32}
    (hids : ids.Perm conn.manager.channels.keys) :
    Updated sha256d published (1 + (jobIds (frames conn)).length) conn.manager ids
      (onTemplateUpdate sha256d template conn.manager ids) := by
  refine updated_onTemplateUpdate sha256d htemplate (hfits template htemplate)
    hstream.takes.nextJobId (hids.nodup_iff.mpr conn.manager.channels.nodupKeys) ?_
  intro cid hcid
  exact AList.mem_keys.mp (hids.subset hcid)

theorem Stream.step (hfits : ∀ template ∈ published, FitsJobFrame template)
    {conn next : Connection σ α} {a : ConnectionAction} (hstream : Stream sha256d published conn)
    (huses : UsesOnly published conn a)
    (hstep : connectionStep sha256d alloc acc userCfg blockFound conn a = some next) :
    Stream sha256d published next := by
  cases connectionStep_cases sha256d alloc acc userCfg blockFound hstep with
  | opened kind msg around opened hopened =>
      subst hopened
      refine hstream.opened alloc hfits huses ?_ rfl
      rw [frames_append, filterMap_written_map_wrote]
  | closed channelId around =>
      exact hstream.quiet (List.append_nil _).symm (by simp)
        (nextJobId_handleCloseChannel alloc conn.manager channelId)
  | updated msg around =>
      refine hstream.quiet (frames_append _) ?_ rfl
      intro out hout
      obtain rfl := List.mem_singleton.mp hout
      exact isStreamFrame_handleUpdateChannel msg conn.manager
  | submitted s around answer hanswer =>
      subst hanswer
      refine hstream.quiet (frames_append _) ?_ rfl
      intro out hout
      obtain ⟨e, hmem, hwritten⟩ := List.mem_filterMap.mp hout
      rcases mem_events_forwardShareOutcome acc blockFound hmem with rfl | rfl | ⟨errorCode, rfl⟩
      · cases hwritten
      · obtain rfl := Option.some.inj hwritten
        rfl
      · obtain rfl := Option.some.inj hwritten
        rfl
  | customJobRefused channelId requestId around =>
      refine hstream.quiet (frames_append _) ?_ rfl
      intro out hout
      obtain rfl := List.mem_singleton.mp hout
      rfl
  | templateChanged template ids updated hupdated hids =>
      subst hupdated
      have hadded := updated_of_templateChanged hfits hstream huses hids
      constructor
      · rw [frames_append, filterMap_written_map_wrote]
        exact hadded.paired _ hstream.paired
      · rw [frames_append, filterMap_written_map_wrote]
        exact hstream.takes.append hadded.takes
  | trackerChanged tracker =>
      exact hstream.quiet (List.append_nil _).symm (by simp) rfl

theorem refreshed_of_templateChanged (hfits : ∀ template ∈ published, FitsJobFrame template)
    {conn next : Connection σ α} (hstream : Stream sha256d published conn)
    {template : TemplateState} (htemplate : template ∈ published) {ids : List UInt32}
    (hstep : connectionStep sha256d alloc acc userCfg blockFound conn
      (.templateChanged template ids) = some next) : Refreshed conn next := by
  cases connectionStep_cases sha256d alloc acc userCfg blockFound hstep with
  | templateChanged _ _ updated hupdated hids =>
      subst hupdated
      have hadded := updated_of_templateChanged hfits hstream htemplate hids
      intro channelId
      rw [frames_append, filterMap_written_map_wrote, List.drop_left]
      have hopen : channelId ∈ ids ↔ channelId ∈ conn.manager.channels :=
        hids.mem_iff.trans AList.mem_keys.symm
      by_cases hmem : channelId ∈ ids
      · obtain ⟨channel, hchannel, hjobs⟩ := hadded.refreshed channelId hmem
        refine ⟨?_, iff_of_true ?_ (hopen.mp hmem)⟩
        · rw [hjobs, hchannel]
          rfl
        · exact AList.lookup_isSome.mp (by rw [hchannel]; rfl)
      · obtain ⟨hsame, hjobs⟩ := hadded.unchanged channelId hmem
        have hclosed : conn.manager.channels.lookup channelId = none :=
          AList.lookup_eq_none.mpr (mt hopen.mpr hmem)
        rw [hclosed] at hsame
        refine ⟨?_, iff_of_false (AList.lookup_eq_none.mp hsame) (mt hopen.mpr hmem)⟩
        rw [hjobs, hsame]
        rfl

/-- The job stream of a connection: every job message can be built, every previous hash follows
its job, the jobs are numbered upwards, and a new template reaches each open channel once. -/
theorem job_stream (hpublished : ∀ template ∈ published, FromParsedBlob sha256d template)
    (allocator : σ) (minHashrateThreshold : FloatValues.FloatValue) (minTargetLe : Bytes32)
    (accounting : α) (tracker : Tracker) {conn : Connection σ α}
    (hreaches : Reaches (connectionStep sha256d alloc acc userCfg blockFound) (UsesOnly published)
      { manager := { allocator, minHashrateThreshold, minTargetLe }, accounting, tracker
        events := [] } conn)
    (hcount : (jobIds (frames conn)).length < 2 ^ 32) :
    (∀ template ∈ published, ∀ channelId jobId,
      (buildNewExtendedJob channelId jobId template).isSome = true) ∧
    Paired sha256d published (frames conn) ∧
    (jobIds (frames conn)).Pairwise (· < ·) ∧
    ∀ template ∈ published, ∀ ids next,
      connectionStep sha256d alloc acc userCfg blockFound conn (.templateChanged template ids) =
        some next → Refreshed conn next := by
  have hfits : ∀ template ∈ published, FitsJobFrame template :=
    fun template htemplate => (hpublished template htemplate).fits
  have hstream : Stream sha256d published conn :=
    hreaches.invariant ⟨paired_nil, takes_none rfl rfl⟩ fun _ _ _ hstream huses hstep =>
      hstream.step alloc acc userCfg blockFound hfits huses hstep
  refine ⟨?_, hstream.paired, hstream.takes.pairwise hcount, ?_⟩
  · intro template htemplate channelId jobId
    rw [buildNewExtendedJob_of_fits (hfits template htemplate)]
    rfl
  · intro template htemplate ids next hstep
    exact refreshed_of_templateChanged alloc acc userCfg blockFound hfits hstream htemplate
      hstep

end Connections

def parsedState (sha256d : Bytes → Bytes32) : TemplateState :=
  fromTemplateAndBlob sha256d BlockTemplate.emptyTemplate
    { datumId := 0, outputs := [{ valueSats := 0, scriptPubkey := [0x51, 0x51] }] } {} 0

theorem fromParsedBlob_parsedState (sha256d : Bytes → Bytes32) :
    FromParsedBlob sha256d (parsedState sha256d) := by
  have hparse : parseV2Blob [0, 0, 0, 0, 0, 0, 0, 0, 0, 2, 0x51, 0x51] 0 =
      .ok { datumId := 0, outputs := [{ valueSats := 0, scriptPubkey := [0x51, 0x51] }] } := by
    decide +kernel
  refine .built hparse (by decide +kernel) (by decide +kernel) ?_ (by simp [emptyTemplate])
  intro commitment hcommitment
  cases hcommitment

def openAndRenew (template : TemplateState) : List ConnectionAction :=
  [.frame (.openMiningChannel .extended plainOpenRequest)
      { templateRx := some template, seedTemplate := none, paddingByte := 0, upstreamOpen := true },
    .templateChanged template [1]]

theorem second_job_streamed :
    let hash : Bytes → Bytes32 := fun _ => ByteVec.fill 32 0
    ∃ conn : Connection ℕ Unit, jobIds (frames conn) = [1, 2] ∧
      Paired hash {parsedState hash} (frames conn) ∧ (jobIds (frames conn)).Pairwise (· < ·) := by
  intro hash
  have huses : ∀ a ∈ openAndRenew (parsedState hash), ∀ u : Connection ℕ Unit,
      UsesOnly {parsedState hash} u a := by
    simp [openAndRenew, UsesOnly]
  obtain ⟨conn, hreaches, hids⟩ : ∃ conn, Reaches
      (connectionStep hash countingAllocator plainAccounting
        { poolAddress := "pool", passFullUsers := false, passWorkers := false } false)
      (UsesOnly {parsedState hash})
      { manager := emptyManager, accounting := (), tracker := {}, events := [] } conn ∧
        decide (jobIds (frames conn) = [1, 2]) = true :=
    exists_reaches_of_runActions huses _ (by decide +kernel)
  have hids := of_decide_eq_true hids
  obtain ⟨-, hpaired, hpairwise, -⟩ := job_stream countingAllocator plainAccounting _ false
    (by
      intro template htemplate
      rw [Set.mem_singleton_iff.mp htemplate]
      exact fromParsedBlob_parsedState hash) 0 _ _ () {} hreaches (by rw [hids]; decide)
  exact ⟨conn, hids, hpaired, hpairwise⟩

end DatumGateway.JobStreams

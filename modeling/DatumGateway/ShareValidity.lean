import DatumGateway.MiningListener
import DatumGateway.ShareRelay
import DatumGateway.TransitionSystem

namespace DatumGateway.ShareValidity

open DatumGateway.ByteString
open DatumGateway.ChannelManager
open DatumGateway.JobTracker
open DatumGateway.KeyedMaps
open DatumGateway.MiningListener
open DatumGateway.SharedTemplate
open DatumGateway.ShareEncoder
open DatumGateway.SharePath
open DatumGateway.ShareRelay
open DatumGateway.StratumV1Server
open DatumGateway.TransitionSystem

/-- `max_target / diff`, computed on the high sixteen bytes. -/
def diffToTargetLe (diff : UInt64) : Bytes32 :=
  if diff = 0 then ByteVec.fill 32 0xFF
  else
    let scaled := 0x00000000FFFF0000 * 2 ^ 64 / diff.toNat
    ⟨List.replicate 16 0 ++ leBytes 16 scaled, by simp⟩

/-- What makes a share the same share as another. -/
inductive ShareIdentity where
  | sv1 (jobId : String) (extranonce : ByteVec 12) (ntime nonce version : UInt32)
  | sv2 (channelId jobId version nonce ntime : UInt32) (extranonce : Bytes)
  deriving DecidableEq

/-- A forwarded body, with what it is to be judged by. -/
structure ForwardedShare where
  identity : ShareIdentity
  body : Bytes
  shareHash : Bytes32
  currentTarget : Option Bytes32
  deriving DecidableEq

def statedTargetByte (body : Bytes) : UInt8 :=
  body.getD 4 0

/-- An SV2 share meets the target of its channel and the difficulty that its body states. -/
def ForwardedShare.meetsTargets (f : ForwardedShare) : Bool :=
  match f.identity with
  | .sv1 .. => true
  | .sv2 .. =>
      f.currentTarget.any (hashMeetsTarget f.shareHash) &&
        hashMeetsTarget f.shareHash
          (diffToTargetLe (2 ^ (statedTargetByte f.body).toNat))

/-- One SV2 connection and the SV1 relay, over the tracker they share. -/
structure ShareState (σ α : Type) where
  manager : Manager σ
  accounting : α
  tracker : Tracker
  /-- The target last sent to each channel. -/
  targets : KeyMap UInt32 Bytes32
  forwarded : List ForwardedShare

inductive ShareAction where
  | openChannel (kind : ChannelKind) (templateRx seedTemplate : Option TemplateState)
      (msg : OpenMiningChannel)
  | closeChannel (channelId : UInt32)
  | updateChannel (msg : UpdateChannel)
  | templateUpdate (template : TemplateState) (ids : List UInt32)
  | submit (submission : Submission) (templateRx : Option TemplateState) (paddingByte : UInt8)
  | submitSv1 (conn : MinerConnection) (params : List (Option String)) (paddingByte : UInt8)
  /-- Any change of the tracker by another task. -/
  | trackerChange (tracker : Tracker)

def noteTarget (targets : KeyMap UInt32 Bytes32) : MiningOut → KeyMap UInt32 Bytes32
  | .openExtendedMiningChannelSuccess msg => targets.insert msg.channelId msg.target
  | .openStandardMiningChannelSuccess msg => targets.insert msg.channelId msg.target
  | .setTarget channelId maximumTarget => targets.insert channelId maximumTarget
  | _ => targets

def identityOf (s : Submission) : ShareIdentity :=
  .sv2 s.share.channelId s.share.jobId s.share.version s.share.nonce s.share.ntime s.extranonce

def relayIdentity (share : SubmittedShare) (inputs : SubmittedShareInputs) : ShareIdentity :=
  .sv1 share.jobId inputs.extranonce inputs.ntime inputs.nonce inputs.version

section Runs

variable (sha256d : Bytes → Bytes32) {σ α : Type} (alloc : ExtranonceAllocator σ)
variable (acc : ShareAccounting α) (userCfg : ShareUserConfig)

def derivedHash (channel : OpenedChannel) (entry : JobEntry) (s : Submission) : Bytes32 :=
  sha256d (shareHeader sha256d (submittedInputs channel s) entry.jobMeta)

def forwardedOf (st : ShareState σ α) (s : Submission) (body : Bytes) : List ForwardedShare :=
  match acceptedBy st.manager st.tracker s with
  | some (channel, entry) =>
      [{ identity := identityOf s, body, shareHash := derivedHash sha256d channel entry s
         currentTarget := st.targets.lookup s.share.channelId }]
  | none => []

def shareStep (st : ShareState σ α) : ShareAction → ShareState σ α
  | .openChannel kind templateRx seedTemplate msg =>
      let (outs, manager) := openChannel sha256d alloc kind st.manager templateRx msg
      { st with
        manager, tracker := seedJobTracker seedTemplate outs st.tracker
        targets := outs.foldl noteTarget st.targets }
  | .closeChannel channelId =>
      { st with manager := handleCloseChannel alloc st.manager channelId }
  | .updateChannel msg =>
      { st with
        targets := noteTarget st.targets
          (handleUpdateChannel msg st.manager.minHashrateThreshold st.manager.minTargetLe) }
  | .templateUpdate template ids =>
      { st with manager := (onTemplateUpdate sha256d template st.manager ids).2 }
  | .submit submission templateRx paddingByte =>
      let (outcome, accounting, tracker) := handleSubmit sha256d acc st.manager templateRx userCfg
        st.accounting st.tracker paddingByte submission
      { st with
        accounting, tracker
        forwarded := match outcomeBody outcome with
          | some body => st.forwarded ++ forwardedOf sha256d st submission body
          | none => st.forwarded }
  | .submitSv1 conn params paddingByte =>
      match StratumV1Server.submit conn params with
      | .error _ => st
      | .ok share =>
          match relayedWith st.tracker share, relayShare sha256d userCfg st.tracker share
              paddingByte with
          | some (entry, inputs), some (enc, tracker) =>
              { st with
                tracker
                forwarded := st.forwarded ++
                  [{ identity := relayIdentity share inputs, body := enc.body
                     shareHash := sha256d (shareHeader sha256d inputs entry.jobMeta)
                     currentTarget := none }] }
          | _, _ => st
  | .trackerChange tracker => { st with tracker }

/-- What a submission has to fulfil, since the gateway does not ask for it: a hash below both
targets of a share that gets through, and a share that has not got through before. -/
def Deserving (st : ShareState σ α) : ShareAction → Prop
  | .submit s _ _ =>
      ∀ channel entry, acceptedBy st.manager st.tracker s = some (channel, entry) →
        ((st.targets.lookup s.share.channelId).any
            (hashMeetsTarget (derivedHash sha256d channel entry s)) = true ∧
          hashMeetsTarget (derivedHash sha256d channel entry s) (diffToTargetLe 8) = true) ∧
        identityOf s ∉ st.forwarded.map ForwardedShare.identity
  | .submitSv1 conn params _ =>
      ∀ share entry inputs, StratumV1Server.submit conn params = .ok share →
        relayedWith st.tracker share = some (entry, inputs) →
        relayIdentity share inputs ∉ st.forwarded.map ForwardedShare.identity
  | _ => True

end Runs

/-- Every forwarded SV2 share meets its targets, and no share is forwarded twice. -/
def ValidLog (log : List ForwardedShare) : Prop :=
  (∀ f ∈ log, f.meetsTargets = true) ∧ (log.map ForwardedShare.identity).Nodup

instance (log : List ForwardedShare) : Decidable (ValidLog log) :=
  inferInstanceAs (Decidable (_ ∧ _))

theorem validLog_concat_iff {log : List ForwardedShare} (hlog : ValidLog log)
    (f : ForwardedShare) :
    ValidLog (log ++ [f]) ↔
      f.meetsTargets = true ∧ f.identity ∉ log.map ForwardedShare.identity := by
  obtain ⟨hmeets, hnodup⟩ := hlog
  have hconcat : (log.map ForwardedShare.identity ++ [f.identity]).Nodup ↔
      f.identity ∉ log.map ForwardedShare.identity ∧
        (log.map ForwardedShare.identity).Nodup := by
    rw [← List.concat_eq_append, List.nodup_concat]
  unfold ValidLog
  rw [List.map_append, List.map_singleton, hconcat]
  constructor
  · rintro ⟨hall, hnew, -⟩
    exact ⟨hall f (by simp), hnew⟩
  · rintro ⟨hf, hnew⟩
    refine ⟨?_, hnew, hnodup⟩
    intro g hg
    rcases List.mem_append.mp hg with hg | hg
    · exact hmeets g hg
    · rw [List.mem_singleton.mp hg]
      exact hf

theorem validLog_of_append {log log' : List ForwardedShare} (hlog : ValidLog (log ++ log')) :
    ValidLog log := by
  obtain ⟨hmeets, hnodup⟩ := hlog
  rw [List.map_append] at hnodup
  exact ⟨fun f hf => hmeets f (List.mem_append_left _ hf), hnodup.of_append_left⟩

section Steps

variable (sha256d : Bytes → Bytes32) {σ α : Type} (alloc : ExtranonceAllocator σ)
variable (acc : ShareAccounting α) (userCfg : ShareUserConfig)

theorem statedTargetByte_buildShareSubmission (share : SubmittedShareInputs) (entry : JobEntry)
    (xprotSeen : Bool) (paddingByte : UInt8) :
    statedTargetByte
        (buildShareSubmission sha256d share entry userCfg xprotSeen paddingByte).1.body =
      floorPot share.currentDiff := by
  simp only [statedTargetByte, buildShareSubmission, shareBody, ShareSubmissionPrefix.encode,
    List.append_assoc]
  rfl

theorem forwarded_submit_of_accepted {st : ShareState σ α} {s : Submission}
    {channel : OpenedChannel} {entry : JobEntry}
    (haccepted : acceptedBy st.manager st.tracker s = some (channel, entry))
    (templateRx : Option TemplateState) (paddingByte : UInt8) :
    ∃ body, statedTargetByte body = 3 ∧
      (shareStep sha256d alloc acc userCfg st (.submit s templateRx paddingByte)).forwarded =
        st.forwarded ++
          [{ identity := identityOf s, body, shareHash := derivedHash sha256d channel entry s
             currentTarget := st.targets.lookup s.share.channelId }] := by
  have hsubmit : handleSubmit sha256d acc st.manager templateRx userCfg st.accounting st.tracker
      paddingByte s = _ :=
    handleSubmit_of_acceptedBy_some sha256d acc haccepted
  refine ⟨(buildShareSubmission sha256d (submittedInputs channel s) entry userCfg
    (st.tracker.crossProtocolCoinbaseAlreadySeen (templateSeed templateRx)
      entry.jobMeta.coinbaseId) paddingByte).1.body, ?_, ?_⟩
  · rw [statedTargetByte_buildShareSubmission]
    exact floorPot_currentDiff
  · simp only [shareStep, hsubmit, outcomeBody_shareOutcome, forwardedOf, haccepted]

theorem forwarded_submit_of_not_accepted {st : ShareState σ α} {s : Submission}
    (hnone : acceptedBy st.manager st.tracker s = none) (templateRx : Option TemplateState)
    (paddingByte : UInt8) :
    (shareStep sha256d alloc acc userCfg st (.submit s templateRx paddingByte)).forwarded =
      st.forwarded := by
  obtain ⟨errorCode, accounting', hsubmit⟩ : ∃ errorCode accounting',
      handleSubmit sha256d acc st.manager templateRx userCfg st.accounting st.tracker paddingByte
        s = (.rejected errorCode, accounting', st.tracker) :=
    handleSubmit_of_acceptedBy_none sha256d acc hnone
  simp only [shareStep, hsubmit, outcomeBody]

theorem forwarded_submitSv1_of_relayed {st : ShareState σ α} {conn : MinerConnection}
    {params : List (Option String)} {share : SubmittedShare} {entry : JobEntry}
    {inputs : SubmittedShareInputs} (hsubmit : StratumV1Server.submit conn params = .ok share)
    (hrelayed : relayedWith st.tracker share = some (entry, inputs)) (paddingByte : UInt8) :
    ∃ body, (shareStep sha256d alloc acc userCfg st
        (.submitSv1 conn params paddingByte)).forwarded =
      st.forwarded ++
        [{ identity := relayIdentity share inputs, body
           shareHash := sha256d (shareHeader sha256d inputs entry.jobMeta)
           currentTarget := none }] := by
  refine ⟨(buildShareSubmission sha256d inputs entry userCfg
    (st.tracker.crossProtocolCoinbaseAlreadySeen entry.templateSeed
      entry.jobMeta.coinbaseId) paddingByte).1.body, ?_⟩
  simp only [shareStep, hsubmit, relayShare, hrelayed, Option.map_some]

theorem forwarded_submitSv1_of_dropped {st : ShareState σ α} {conn : MinerConnection}
    {params : List (Option String)}
    (hdropped : ∀ share, StratumV1Server.submit conn params = .ok share →
      relayedWith st.tracker share = none) (paddingByte : UInt8) :
    (shareStep sha256d alloc acc userCfg st (.submitSv1 conn params paddingByte)).forwarded =
      st.forwarded := by
  cases hsubmit : StratumV1Server.submit conn params with
  | error err => simp only [shareStep, hsubmit]
  | ok share => simp only [shareStep, hsubmit, hdropped share hsubmit]

theorem exists_forwarded_shareStep (st : ShareState σ α) (a : ShareAction) :
    ∃ new, (shareStep sha256d alloc acc userCfg st a).forwarded = st.forwarded ++ new := by
  cases a with
  | submit s templateRx paddingByte =>
      cases haccepted : acceptedBy st.manager st.tracker s with
      | none =>
          exact ⟨[], by rw [forwarded_submit_of_not_accepted sha256d alloc acc userCfg haccepted,
            List.append_nil]⟩
      | some found =>
          obtain ⟨channel, entry⟩ := found
          obtain ⟨body, -, hforwarded⟩ := forwarded_submit_of_accepted sha256d alloc acc userCfg
            haccepted templateRx paddingByte
          exact ⟨_, hforwarded⟩
  | submitSv1 conn params paddingByte =>
      by_cases hdropped : ∀ share, StratumV1Server.submit conn params = .ok share →
          relayedWith st.tracker share = none
      · exact ⟨[], by rw [forwarded_submitSv1_of_dropped sha256d alloc acc userCfg hdropped,
          List.append_nil]⟩
      · push Not at hdropped
        obtain ⟨share, hsubmit, hrelayed⟩ := hdropped
        obtain ⟨⟨entry, inputs⟩, hrelayed⟩ := Option.ne_none_iff_exists'.mp hrelayed
        obtain ⟨body, hforwarded⟩ := forwarded_submitSv1_of_relayed sha256d alloc acc userCfg
          hsubmit hrelayed paddingByte
        exact ⟨_, hforwarded⟩
  | _ => exact ⟨[], (List.append_nil _).symm⟩

theorem validLog_shareStep_iff {st : ShareState σ α} (hlog : ValidLog st.forwarded)
    (a : ShareAction) :
    ValidLog (shareStep sha256d alloc acc userCfg st a).forwarded ↔ Deserving sha256d st a := by
  cases a with
  | submit s templateRx paddingByte =>
      cases haccepted : acceptedBy st.manager st.tracker s with
      | none =>
          rw [forwarded_submit_of_not_accepted sha256d alloc acc userCfg haccepted]
          simp only [Deserving, haccepted, reduceCtorEq, false_imp_iff, implies_true, hlog]
      | some found =>
          obtain ⟨channel, entry⟩ := found
          obtain ⟨body, hstated, hforwarded⟩ := forwarded_submit_of_accepted sha256d alloc acc
            userCfg haccepted templateRx paddingByte
          rw [hforwarded, validLog_concat_iff hlog]
          simp only [Deserving, haccepted, Option.some.injEq, Prod.mk.injEq, and_imp,
            ForwardedShare.meetsTargets, identityOf, hstated, Bool.and_eq_true]
          constructor
          · rintro hdeserving _ _ rfl rfl
            exact hdeserving
          · intro hdeserving
            exact hdeserving channel entry rfl rfl
  | submitSv1 conn params paddingByte =>
      by_cases hdropped : ∀ share, StratumV1Server.submit conn params = .ok share →
          relayedWith st.tracker share = none
      · rw [forwarded_submitSv1_of_dropped sha256d alloc acc userCfg hdropped]
        simp only [hlog, true_iff]
        intro share entry inputs hsubmit hrelayed
        rw [hdropped share hsubmit] at hrelayed
        cases hrelayed
      · push Not at hdropped
        obtain ⟨share, hsubmit, hrelayed⟩ := hdropped
        obtain ⟨⟨entry, inputs⟩, hrelayed⟩ := Option.ne_none_iff_exists'.mp hrelayed
        obtain ⟨body, hforwarded⟩ := forwarded_submitSv1_of_relayed sha256d alloc acc userCfg
          hsubmit hrelayed paddingByte
        rw [hforwarded, validLog_concat_iff hlog]
        simp only [Deserving, ForwardedShare.meetsTargets, relayIdentity, true_and]
        constructor
        · rintro hnew share' entry' inputs' hsubmit' hrelayed'
          obtain rfl := Except.ok.inj (hsubmit.symm.trans hsubmit')
          obtain ⟨rfl, rfl⟩ := Prod.mk.inj (Option.some.inj (hrelayed.symm.trans hrelayed'))
          exact hnew
        · intro hdeserving
          exact hdeserving share entry inputs hsubmit hrelayed
  | _ => exact ⟨fun _ => trivial, fun _ => hlog⟩

/-- A run forwards only shares that meet their targets, and none twice, exactly if every
submission of the run that gets through deserves it. -/
theorem run_forwards_valid_iff (m : Manager σ) (accounting : α) (tracker : Tracker)
    (actions : List ShareAction) :
    let start : ShareState σ α :=
      { manager := m, accounting, tracker, targets := ∅, forwarded := [] }
    ValidLog (actions.foldl (shareStep sha256d alloc acc userCfg) start).forwarded ↔
      MeetsGuard (shareStep sha256d alloc acc userCfg) (Deserving sha256d) start actions := by
  intro start
  have hback : ∀ (st : ShareState σ α) (a : ShareAction),
      ValidLog (shareStep sha256d alloc acc userCfg st a).forwarded → ValidLog st.forwarded := by
    intro st a hlog
    obtain ⟨new, hnew⟩ := exists_forwarded_shareStep sha256d alloc acc userCfg st a
    rw [hnew] at hlog
    exact validLog_of_append hlog
  have hempty : ValidLog start.forwarded := ⟨by simp [start], by simp [start]⟩
  refine foldl_step_iff_meetsGuard (p := fun st : ShareState σ α => ValidLog st.forwarded)
    (fun _ => True) (fun _ _ => id) (fun st a _ => hback st a) ?_ trivial hempty actions
  intro st a _ hlog
  exact validLog_shareStep_iff sha256d alloc acc userCfg hlog a

end Steps

/-- A share with a hash far above its targets is forwarded, and forwarded again. -/
theorem worthless_share_forwarded_twice :
    let hash : Bytes → Bytes32 := fun _ => ByteVec.fill 32 0xFE
    let start : ShareState ℕ Unit :=
      { manager := emptyManager, accounting := (), tracker := {}, targets := ∅, forwarded := [] }
    let template := some (plainState hash BlockTemplate.emptyTemplate)
    let userCfg : ShareUserConfig :=
      { poolAddress := "pool", passFullUsers := false, passWorkers := false }
    let actions : List ShareAction := [.openChannel .extended template template plainOpenRequest,
      .submit firstShare template 0, .submit firstShare template 0]
    ¬ ValidLog (actions.foldl (shareStep hash countingAllocator plainAccounting userCfg)
      start).forwarded := by
  decide +kernel

end DatumGateway.ShareValidity

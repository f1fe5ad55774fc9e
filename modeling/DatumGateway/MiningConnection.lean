import DatumGateway.ShareForwarding
import DatumGateway.TransitionSystem

namespace DatumGateway.MiningConnection

open DatumGateway.ByteString
open DatumGateway.ChannelManager
open DatumGateway.FloatValues
open DatumGateway.JobTracker
open DatumGateway.MiningListener
open DatumGateway.SharedTemplate
open DatumGateway.ShareEncoder
open DatumGateway.ShareForwarding
open DatumGateway.SharePath

/-- The messages that a connection reacts to; all others are dropped. -/
inductive MiningIn where
  | openMiningChannel (kind : ChannelKind) (msg : OpenMiningChannel)
  | closeChannel (channelId : UInt32)
  | updateChannel (msg : UpdateChannel)
  | submitShares (submission : Submission)
  | setCustomMiningJob (channelId requestId : UInt32)

/-- What is found elsewhere while a frame is handled: the template, also when the tracker is
seeded, the random byte, and whether the pool's side of the queue of shares is there. -/
structure Readings where
  templateRx : Option TemplateState
  seedTemplate : Option TemplateState
  paddingByte : UInt8
  upstreamOpen : Bool

inductive ConnectionEvent where
  /-- A share of the channel is in the queue to the pool. -/
  | forwarded (channelId sequenceNumber : UInt32)
  | wrote (out : MiningOut)
  deriving DecidableEq

structure Connection (σ α : Type) where
  manager : Manager σ
  accounting : α
  tracker : Tracker
  events : List ConnectionEvent

inductive ConnectionAction where
  | frame (msg : MiningIn) (around : Readings)
  /-- `ids` lists the open channels in the order of the hash map. -/
  | templateChanged (template : TemplateState) (ids : List UInt32)
  /-- Others insert jobs into the tracker and take them out of it. -/
  | trackerChanged (tracker : Tracker)

def handleSetCustomMiningJob (channelId requestId : UInt32) : MiningOut :=
  .setCustomMiningJobError channelId requestId "jd-not-supported"

def writeAll (outs : List MiningOut) : List ForwardStep :=
  outs.map fun out => .act (.reply out)

def sendsShare : ForwardStep → Bool
  | .send _ => true
  | .act _ => false

def eventOf (msg : MiningIn) : ForwardStep → Option ConnectionEvent
  | .send _ =>
      match msg with
      | .submitShares submission =>
          some (.forwarded submission.share.channelId submission.share.sequenceNumber)
      | _ => none
  | .act (.reply out) => some (.wrote out)
  | .act (.startSubmit _) => none

@[simp] theorem filterMap_eventOf_writeAll (msg : MiningIn) (outs : List MiningOut) :
    (writeAll outs).filterMap (eventOf msg) = outs.map .wrote := by
  induction outs with
  | nil => rfl
  | cons out outs ih => exact congrArg (ConnectionEvent.wrote out :: ·) ih

@[simp] theorem any_sendsShare_writeAll (outs : List MiningOut) :
    (writeAll outs).any sendsShare = false := by
  induction outs with
  | nil => rfl
  | cons out outs ih => exact ih

section Steps

variable (sha256d : Bytes → Bytes32) {σ α : Type} (alloc : ExtranonceAllocator σ)
variable (acc : ShareAccounting α) (userCfg : ShareUserConfig) (blockFound : Bool)

def dispatchFrame (conn : Connection σ α) (around : Readings) :
    MiningIn → List ForwardStep × Connection σ α
  | .openMiningChannel kind msg =>
      let (outs, manager) := openChannel sha256d alloc kind conn.manager around.templateRx msg
      (writeAll outs,
        { conn with manager, tracker := seedJobTracker around.seedTemplate outs conn.tracker })
  | .closeChannel channelId =>
      ([], { conn with manager := handleCloseChannel alloc conn.manager channelId })
  | .updateChannel msg =>
      (writeAll
        [handleUpdateChannel msg conn.manager.minHashrateThreshold conn.manager.minTargetLe],
        conn)
  | .submitShares submission =>
      let (outcome, accounting, tracker) := handleSubmit sha256d acc conn.manager
        around.templateRx userCfg conn.accounting conn.tracker around.paddingByte submission
      (forwardShareOutcome acc blockFound accounting submission.share.channelId
        submission.share.sequenceNumber outcome, { conn with accounting, tracker })
  | .setCustomMiningJob channelId requestId =>
      (writeAll [handleSetCustomMiningJob channelId requestId], conn)

/-- A share that the queue to the pool does not take ends the connection. -/
def connectionStep (conn : Connection σ α) : ConnectionAction → Option (Connection σ α)
  | .frame msg around =>
      let (steps, next) := dispatchFrame sha256d alloc acc userCfg blockFound conn around msg
      if steps.any sendsShare && !around.upstreamOpen then none
      else some { next with events := conn.events ++ steps.filterMap (eventOf msg) }
  | .templateChanged template ids =>
      if ids.Perm conn.manager.channels.keys then
        let (outs, manager) := onTemplateUpdate sha256d template conn.manager ids
        some { conn with manager, events := conn.events ++ outs.map .wrote }
      else none
  | .trackerChanged tracker => some { conn with tracker }

/-- What a share leads to: the events, and the accounting and the tracker after it. -/
def submitted (conn : Connection σ α) (around : Readings) (s : Submission) :
    List ConnectionEvent × α × Tracker :=
  let (outcome, accounting, tracker) := handleSubmit sha256d acc conn.manager
    around.templateRx userCfg conn.accounting conn.tracker around.paddingByte s
  ((forwardShareOutcome acc blockFound accounting s.share.channelId s.share.sequenceNumber
    outcome).filterMap (eventOf (.submitShares s)), accounting, tracker)

inductive ConnectionStep (conn : Connection σ α) : ConnectionAction → Connection σ α → Prop
  | opened (kind : ChannelKind) (msg : OpenMiningChannel) (around : Readings)
      (opened : List MiningOut × Manager σ)
      (hopened : opened = openChannel sha256d alloc kind conn.manager around.templateRx msg) :
      ConnectionStep conn (.frame (.openMiningChannel kind msg) around)
        { conn with
          manager := opened.2
          tracker := seedJobTracker around.seedTemplate opened.1 conn.tracker
          events := conn.events ++ opened.1.map .wrote }
  | closed (channelId : UInt32) (around : Readings) :
      ConnectionStep conn (.frame (.closeChannel channelId) around)
        { conn with manager := handleCloseChannel alloc conn.manager channelId }
  | updated (msg : UpdateChannel) (around : Readings) :
      ConnectionStep conn (.frame (.updateChannel msg) around)
        { conn with
          events := conn.events ++ [.wrote (handleUpdateChannel msg
            conn.manager.minHashrateThreshold conn.manager.minTargetLe)] }
  | submitted (s : Submission) (around : Readings) (answer : List ConnectionEvent × α × Tracker)
      (hanswer : answer = submitted sha256d acc userCfg blockFound conn around s) :
      ConnectionStep conn (.frame (.submitShares s) around)
        { conn with
          accounting := answer.2.1, tracker := answer.2.2, events := conn.events ++ answer.1 }
  | customJobRefused (channelId requestId : UInt32) (around : Readings) :
      ConnectionStep conn (.frame (.setCustomMiningJob channelId requestId) around)
        { conn with
          events := conn.events ++ [.wrote (handleSetCustomMiningJob channelId requestId)] }
  | templateChanged (template : TemplateState) (ids : List UInt32)
      (updated : List MiningOut × Manager σ)
      (hupdated : updated = onTemplateUpdate sha256d template conn.manager ids)
      (hids : ids.Perm conn.manager.channels.keys) :
      ConnectionStep conn (.templateChanged template ids)
        { conn with manager := updated.2, events := conn.events ++ updated.1.map .wrote }
  | trackerChanged (tracker : Tracker) :
      ConnectionStep conn (.trackerChanged tracker) { conn with tracker }

theorem connectionStep_cases {conn next : Connection σ α} {a : ConnectionAction}
    (hstep : connectionStep sha256d alloc acc userCfg blockFound conn a = some next) :
    ConnectionStep sha256d alloc acc userCfg blockFound conn a next := by
  cases a with
  | frame msg around =>
      obtain ⟨-, hnext⟩ := Option.ite_none_left_eq_some.mp hstep
      obtain rfl := Option.some.inj hnext
      cases msg with
      | openMiningChannel kind msg =>
          simp only [filterMap_eventOf_writeAll]
          exact .opened kind msg around _ rfl
      | closeChannel channelId =>
          simp only [List.filterMap_nil, List.append_nil]
          exact .closed channelId around
      | updateChannel msg =>
          simp only [filterMap_eventOf_writeAll]
          exact .updated msg around
      | submitShares s => exact .submitted s around _ rfl
      | setCustomMiningJob channelId requestId =>
          simp only [filterMap_eventOf_writeAll]
          exact .customJobRefused channelId requestId around
  | templateChanged template ids =>
      obtain ⟨hids, hnext⟩ := Option.ite_none_right_eq_some.mp hstep
      obtain rfl := Option.some.inj hnext
      exact .templateChanged template ids _ rfl hids
  | trackerChanged tracker =>
      obtain rfl := Option.some.inj hstep
      exact .trackerChanged tracker

theorem mem_events_forwardShareOutcome {accounting : α} {s : Submission} {outcome : ShareOutcome}
    {e : ConnectionEvent}
    (hmem : e ∈ (forwardShareOutcome acc blockFound accounting s.share.channelId
      s.share.sequenceNumber outcome).filterMap (eventOf (.submitShares s))) :
    e = .forwarded s.share.channelId s.share.sequenceNumber ∨
      e = .wrote (buildSubmitSharesSuccess acc s.share.channelId accounting) ∨
      ∃ errorCode, e =
        .wrote (.submitSharesError s.share.channelId s.share.sequenceNumber errorCode) := by
  obtain ⟨step, hstep, hevent⟩ := List.mem_filterMap.mp hmem
  cases outcome with
  | valid body =>
      simp only [forwardShareOutcome] at hstep
      rcases List.mem_cons.mp hstep with rfl | hack
      · exact Or.inl (Option.some.inj hevent).symm
      · split_ifs at hack
        · obtain rfl := List.mem_singleton.mp hack
          exact Or.inr (Or.inl (Option.some.inj hevent).symm)
        · cases hack
  | blockFound body blockPayload =>
      simp only [forwardShareOutcome, startSubmit, List.cons_append] at hstep
      rcases List.mem_cons.mp hstep with rfl | hrest
      · exact Or.inl (Option.some.inj hevent).symm
      · rcases List.mem_append.mp hrest with hstart | hack
        · split_ifs at hstart
          · obtain rfl := List.mem_singleton.mp hstart
            cases hevent
          · cases hstart
        · obtain rfl := List.mem_singleton.mp hack
          exact Or.inr (Or.inl (Option.some.inj hevent).symm)
  | rejected errorCode =>
      obtain rfl := List.mem_singleton.mp hstep
      exact Or.inr (Or.inr ⟨errorCode, (Option.some.inj hevent).symm⟩)

theorem handleUpdateChannel_cases (msg : UpdateChannel) (minHashrateThreshold : FloatValue)
    (minTargetLe : Bytes32) :
    (∃ errorCode, handleUpdateChannel msg minHashrateThreshold minTargetLe =
        .updateChannelError msg.channelId errorCode) ∨
      ∃ target, handleUpdateChannel msg minHashrateThreshold minTargetLe =
        .setTarget msg.channelId target := by
  unfold handleUpdateChannel
  split_ifs
  · exact Or.inl ⟨_, rfl⟩
  · cases ByteVec.ofBytes? 32 msg.maximumTarget with
    | none => exact Or.inl ⟨_, rfl⟩
    | some requested => exact Or.inr ⟨_, rfl⟩

/-- The frames that tell of an opened channel or of a new job. -/
def isStreamFrame : MiningOut → Bool
  | .openExtendedMiningChannelSuccess _ => true
  | .openStandardMiningChannelSuccess _ => true
  | .openMiningChannelError _ _ => true
  | .newExtendedMiningJob _ => true
  | .newMiningJob _ => true
  | .setNewPrevHash _ => true
  | _ => false

theorem isStreamFrame_openChannel (kind : ChannelKind) (m : Manager σ)
    (templateRx : Option TemplateState) (msg : OpenMiningChannel) :
    (openChannel sha256d alloc kind m templateRx msg).1.all isStreamFrame = true := by
  cases templateRx with
  | none =>
      obtain ⟨errorCode, hnone⟩ := openChannel_none sha256d alloc kind m msg
      rw [hnone]
      rfl
  | some template =>
      rcases openChannel_cases alloc kind m template msg with hrefused |
        ⟨extranoncePrefix, target, channel, hgranted⟩
      · obtain ⟨errorCode, hframes⟩ := (hrefused sha256d).frames
        rw [hframes]
        rfl
      · rw [(hgranted sha256d).frames]
        cases kind with
        | extended => rfl
        | standard => rfl

theorem isStreamFrame_updateChannel (template : TemplateState) (m : Manager σ) (cid : UInt32) :
    (updateChannel sha256d template m cid).1.all isStreamFrame = true := by
  unfold updateChannel buildNewExtendedJob
  cases m.channels.lookup cid with
  | none => rfl
  | some channel =>
      dsimp only
      split_ifs
      · rfl
      · rfl
      · rfl

theorem isStreamFrame_onTemplateUpdate (template : TemplateState) (m : Manager σ)
    (ids : List UInt32) :
    (onTemplateUpdate sha256d template m ids).1.all isStreamFrame = true := by
  induction ids generalizing m with
  | nil => rfl
  | cons cid ids ih =>
      simp only [onTemplateUpdate, List.all_append, isStreamFrame_updateChannel, Bool.true_and]
      exact ih _

end Steps

end DatumGateway.MiningConnection

import DatumGateway.GatewayJobs
import DatumGateway.ShareRelay

/-!
The way of a share body upstream: encoded by the SV1 relay task or by the task of
an SV2 connection, it waits in their hands and in the queues on the way until the
writer of the upstream connection takes it.  The queues outlive the connection,
and the send-once flags are reset when the next one is up.
-/

namespace DatumGateway.UpstreamLink

open DatumGateway.ByteString
open DatumGateway.ChannelManager
open DatumGateway.GatewayJobs
open DatumGateway.JobTracker
open DatumGateway.KeyedMaps
open DatumGateway.MiningListener
open DatumGateway.ShareEncoder
open DatumGateway.SharePath
open DatumGateway.ShareRelay
open DatumGateway.SharedTemplate
open DatumGateway.StratumV1Server
open DatumGateway.TransitionSystem

/-- A share body with the tracker entry that it was encoded from, as that was then. -/
structure EncodedBody where
  bytes : Bytes
  entry : JobEntry
  crossProtocolCoinbaseAlreadySeen : Bool
  bytes_eq : ∃ share userCfg isBlock paddingByte,
    bytes = shareBody share entry userCfg crossProtocolCoinbaseAlreadySeen isBlock paddingByte

inductive SubmitPhase where
  | seedRead (templateSeed : UInt64)
  | sending (body : EncodedBody)

def SubmitPhase.body : SubmitPhase → Option EncodedBody
  | .seedRead _ => none
  | .sending body => some body

structure Link where
  running : Bool := true
  bridgeEnded : Bool := false
  bridge : Option EncodedBody := none
  queue : List EncodedBody := []
  written : List EncodedBody := []

structure UpstreamState (σ : Type) where
  gateway : GatewayState σ := {}
  relay : Option EncodedBody := none
  sessions : KeyMap ℕ SubmitPhase := ∅
  sv2Queue : List EncodedBody := []
  sv2Bridge : Option EncodedBody := none
  commands : List EncodedBody := []
  link : Option Link := none
  ended : List (List EncodedBody) := []

inductive UpstreamAction where
  | gateway (a : GatewayAction)
  | relayEncode (share : SubmittedShare) (paddingByte : UInt8)
  | relaySend
  | sessionRead (id : ℕ)
  | sessionEncode (id : ℕ) (s : Submission) (paddingByte : UInt8)
  | sessionSend (id : ℕ)
  | sv2BridgeRecv
  | sv2BridgeSend
  | connect
  | bridgeRecv
  | bridgeSend
  | write
  | writeFails
  | tearDown

def sv2QueueSize : ℕ := 64
def commandsSize : ℕ := 1024
def linkQueueSize : ℕ := 64

/-- The steps of the gateway that are not steps of a task which is busy with a share.  Shares
and reconnects have their own actions here. -/
def freeFor {σ : Type} (s : UpstreamState σ) : GatewayAction → Bool
  | .encodeShare _ _ => false
  | .upstreamReconnect => false
  | .connection id _ => (s.sessions.lookup id).isNone
  | .disconnect id => (s.sessions.lookup id).isNone
  | _ => true

def idle {σ : Type} (conn : Connection σ) : Bool :=
  match conn.phase with
  | .sending [] _ => true
  | _ => false

section Steps

variable (sha256d : Bytes → Bytes32) (userCfg : ShareUserConfig)

def encodeBody (tracker : Tracker) (entry : JobEntry) (inputs : SubmittedShareInputs)
    (templateSeed : UInt64) (paddingByte : UInt8) : EncodedBody :=
  let xprotSeen :=
    tracker.crossProtocolCoinbaseAlreadySeen templateSeed entry.jobMeta.coinbaseId
  { bytes := (buildShareSubmission sha256d inputs entry userCfg xprotSeen paddingByte).1.body
    entry
    crossProtocolCoinbaseAlreadySeen := xprotSeen
    bytes_eq := ⟨inputs, userCfg, _, paddingByte, rfl⟩ }

theorem relayShare_eq_encodeBody {tracker : Tracker} {share : SubmittedShare} {entry : JobEntry}
    {inputs : SubmittedShareInputs} (hrelayed : relayedWith tracker share = some (entry, inputs))
    (paddingByte : UInt8) :
    let body := encodeBody sha256d userCfg tracker entry inputs entry.templateSeed paddingByte
    let xprotSeen := body.crossProtocolCoinbaseAlreadySeen
    (relayShare sha256d userCfg tracker share paddingByte).map
        (fun relayed => (relayed.1.body, relayed.2)) =
      some (body.bytes, tracker.recordEncoded (.sv1 share.jobId) (markSent entry xprotSeen)
        entry.templateSeed entry.jobMeta.coinbaseId xprotSeen) := by
  rw [relayShare, hrelayed]
  rfl

variable {σ : Type} (alloc : ExtranonceAllocator σ) (newManager : Manager σ)

theorem handleSubmit_eq_encodeBody {α : Type} (acc : ShareAccounting α) {m : Manager σ}
    {templateRx : Option TemplateState} {accounting : α} {tracker : Tracker}
    {submission : Submission} {channel : OpenedChannel} {entry : JobEntry}
    (haccepted : acceptedBy m tracker submission = some (channel, entry)) (paddingByte : UInt8) :
    let body := encodeBody sha256d userCfg tracker entry (submittedInputs channel submission)
      (templateSeed templateRx) paddingByte
    let xprotSeen := body.crossProtocolCoinbaseAlreadySeen
    let submitted := handleSubmit sha256d acc m templateRx userCfg accounting tracker paddingByte
      submission
    outcomeBody submitted.1 = some body.bytes ∧
      submitted.2.2 = tracker.recordEncoded submission.jobKey (markSent entry xprotSeen)
        (templateSeed templateRx) entry.jobMeta.coinbaseId xprotSeen := by
  intro body xprotSeen submitted
  have hsubmitted : submitted = _ := handleSubmit_of_acceptedBy_some sha256d acc haccepted
  rw [hsubmitted]
  exact ⟨outcomeBody_shareOutcome _, rfl⟩

def sessionAccepts (s : UpstreamState σ) (id : ℕ) (submission : Submission) :
    Option (UInt64 × OpenedChannel × JobEntry) := do
  let conn ← s.gateway.connections.lookup id
  match s.sessions.lookup id with
  | some (.seedRead templateSeed) =>
      (acceptedBy conn.manager s.gateway.tracker submission).map fun accepted =>
        (templateSeed, accepted)
  | _ => none

theorem get_of_sessionAccepts {s : UpstreamState σ} {id : ℕ} {submission : Submission}
    {templateSeed : UInt64} {channel : OpenedChannel} {entry : JobEntry}
    (haccepts : sessionAccepts s id submission = some (templateSeed, channel, entry)) :
    s.gateway.tracker.get submission.jobKey = some entry := by
  simp only [sessionAccepts, Option.bind_eq_bind, Option.bind_eq_some_iff] at haccepts
  obtain ⟨conn, -, haccepts⟩ := haccepts
  split at haccepts
  · obtain ⟨accepted, haccepted, heq⟩ := Option.map_eq_some_iff.mp haccepts
    obtain ⟨-, rfl⟩ := Prod.mk.inj heq
    exact (acceptedBy_eq_some_iff.mp haccepted).2.1
  · cases haccepts

def upstreamStep (s : UpstreamState σ) : UpstreamAction → Option (UpstreamState σ)
  | .gateway a =>
      if freeFor s a then
        (gatewayStep sha256d alloc newManager s.gateway a).map fun gateway => { s with gateway }
      else none
  | .relayEncode share paddingByte =>
      if s.relay.isSome then none
      else
        match relayedWith s.gateway.tracker share with
        | none => some s
        | some (entry, inputs) =>
            let body :=
              encodeBody sha256d userCfg s.gateway.tracker entry inputs entry.templateSeed
                paddingByte
            (gatewayStep sha256d alloc newManager s.gateway
              (.encodeShare (.sv1 share.jobId) entry.templateSeed)).map fun gateway =>
                { s with gateway, relay := some body }
  | .relaySend =>
      match s.relay with
      | some body =>
          if s.commands.length < commandsSize then
            some { s with relay := none, commands := s.commands ++ [body] }
          else none
      | none => none
  | .sessionRead id => do
      let conn ← s.gateway.connections.lookup id
      if idle conn && (s.sessions.lookup id).isNone then
        some { s with
          sessions := s.sessions.insert id (.seedRead (templateSeed s.gateway.published)) }
      else none
  | .sessionEncode id submission paddingByte =>
      match s.sessions.lookup id with
      | some (.seedRead _) =>
          match sessionAccepts s id submission with
          | none => some { s with sessions := s.sessions.erase id }
          | some (templateSeed, channel, entry) =>
              let body :=
                encodeBody sha256d userCfg s.gateway.tracker entry
                  (submittedInputs channel submission) templateSeed paddingByte
              (gatewayStep sha256d alloc newManager s.gateway
                (.encodeShare submission.jobKey templateSeed)).map fun gateway =>
                  { s with gateway, sessions := s.sessions.insert id (.sending body) }
      | _ => none
  | .sessionSend id =>
      match s.sessions.lookup id with
      | some (.sending body) =>
          if s.sv2Queue.length < sv2QueueSize then
            some { s with sessions := s.sessions.erase id, sv2Queue := s.sv2Queue ++ [body] }
          else none
      | _ => none
  | .sv2BridgeRecv =>
      match s.sv2Bridge, s.sv2Queue with
      | none, body :: sv2Queue => some { s with sv2Bridge := some body, sv2Queue }
      | _, _ => none
  | .sv2BridgeSend =>
      match s.sv2Bridge with
      | some body =>
          if s.commands.length < commandsSize then
            some { s with sv2Bridge := none, commands := s.commands ++ [body] }
          else none
      | none => none
  | .connect =>
      match s.link with
      | some _ => none
      | none =>
          (gatewayStep sha256d alloc newManager s.gateway .upstreamReconnect).map fun gateway =>
            { s with gateway, link := some {} }
  | .bridgeRecv =>
      match s.link, s.commands with
      | some link, body :: commands =>
          if link.bridge.isNone && !link.bridgeEnded then
            some { s with commands, link := some { link with bridge := some body } }
          else none
      | _, _ => none
  | .bridgeSend => do
      let link ← s.link
      let body ← link.bridge
      -- the send fails once the writer has gone, and the body is lost
      if !link.running then
        some { s with link := some { link with bridge := none, bridgeEnded := true } }
      else if link.queue.length < linkQueueSize then
        some { s with
          link := some { link with bridge := none, queue := link.queue ++ [body] } }
      else none
  | .write => do
      let link ← s.link
      match link.running, link.queue with
      | true, body :: queue =>
          some { s with link := some { link with queue, written := link.written ++ [body] } }
      | _, _ => none
  | .writeFails => do
      let link ← s.link
      some { s with link := some { link with running := false, queue := [] } }
  | .tearDown => do
      let link ← s.link
      some { s with link := none, ended := s.ended ++ [link.written] }

/-- What an action does, and when it can happen. -/
inductive UpstreamStep (s : UpstreamState σ) : UpstreamAction → UpstreamState σ → Prop where
  | gateway (a : GatewayAction) (gateway : GatewayState σ) (hfree : freeFor s a = true)
      (hgateway : gatewayStep sha256d alloc newManager s.gateway a = some gateway) :
      UpstreamStep s (.gateway a) { s with gateway }
  | relayDrops (share : SubmittedShare) (paddingByte : UInt8) (hrelay : s.relay = none) :
      UpstreamStep s (.relayEncode share paddingByte) s
  | relayEncode (share : SubmittedShare) (paddingByte : UInt8) (entry : JobEntry)
      (inputs : SubmittedShareInputs) (gateway : GatewayState σ) (hrelay : s.relay = none)
      (hrelayed : relayedWith s.gateway.tracker share = some (entry, inputs))
      (hgateway : gatewayStep sha256d alloc newManager s.gateway
        (.encodeShare (.sv1 share.jobId) entry.templateSeed) = some gateway) :
      UpstreamStep s (.relayEncode share paddingByte)
        { s with
          gateway
          relay := some (encodeBody sha256d userCfg s.gateway.tracker entry inputs
            entry.templateSeed paddingByte) }
  | relaySend (body : EncodedBody) (hrelay : s.relay = some body) :
      UpstreamStep s .relaySend { s with relay := none, commands := s.commands ++ [body] }
  | sessionRead (id : ℕ) (hsession : s.sessions.lookup id = none) :
      UpstreamStep s (.sessionRead id)
        { s with sessions := s.sessions.insert id (.seedRead (templateSeed s.gateway.published)) }
  | sessionRejects (id : ℕ) (submission : Submission) (paddingByte : UInt8) (seedRead : UInt64)
      (hsession : s.sessions.lookup id = some (.seedRead seedRead)) :
      UpstreamStep s (.sessionEncode id submission paddingByte)
        { s with sessions := s.sessions.erase id }
  | sessionEncode (id : ℕ) (submission : Submission) (paddingByte : UInt8)
      (seedRead templateSeed : UInt64) (channel : OpenedChannel) (entry : JobEntry)
      (gateway : GatewayState σ) (hsession : s.sessions.lookup id = some (.seedRead seedRead))
      (haccepts : sessionAccepts s id submission = some (templateSeed, channel, entry))
      (hgateway : gatewayStep sha256d alloc newManager s.gateway
        (.encodeShare submission.jobKey templateSeed) = some gateway) :
      UpstreamStep s (.sessionEncode id submission paddingByte)
        { s with
          gateway
          sessions := s.sessions.insert id (.sending (encodeBody sha256d userCfg s.gateway.tracker
            entry (submittedInputs channel submission) templateSeed paddingByte)) }
  | sessionSend (id : ℕ) (body : EncodedBody)
      (hsession : s.sessions.lookup id = some (.sending body)) :
      UpstreamStep s (.sessionSend id)
        { s with sessions := s.sessions.erase id, sv2Queue := s.sv2Queue ++ [body] }
  | sv2BridgeRecv (body : EncodedBody) (sv2Queue : List EncodedBody)
      (hbridge : s.sv2Bridge = none) (hqueue : s.sv2Queue = body :: sv2Queue) :
      UpstreamStep s .sv2BridgeRecv { s with sv2Bridge := some body, sv2Queue }
  | sv2BridgeSend (body : EncodedBody) (hbridge : s.sv2Bridge = some body) :
      UpstreamStep s .sv2BridgeSend { s with sv2Bridge := none, commands := s.commands ++ [body] }
  | connect (gateway : GatewayState σ) (hlink : s.link = none)
      (hgateway : gatewayStep sha256d alloc newManager s.gateway .upstreamReconnect =
        some gateway) :
      UpstreamStep s .connect { s with gateway, link := some {} }
  | bridgeRecv (link : Link) (body : EncodedBody) (commands : List EncodedBody)
      (hlink : s.link = some link) (hcommands : s.commands = body :: commands)
      (hbridge : link.bridge = none) :
      UpstreamStep s .bridgeRecv { s with commands, link := some { link with bridge := some body } }
  | bridgeDrops (link : Link) (hlink : s.link = some link) (hstopped : link.running = false) :
      UpstreamStep s .bridgeSend
        { s with link := some { link with bridge := none, bridgeEnded := true } }
  | bridgeSend (link : Link) (body : EncodedBody) (hlink : s.link = some link)
      (hbridge : link.bridge = some body) :
      UpstreamStep s .bridgeSend
        { s with link := some { link with bridge := none, queue := link.queue ++ [body] } }
  | write (link : Link) (body : EncodedBody) (queue : List EncodedBody)
      (hlink : s.link = some link) (hrunning : link.running = true)
      (hqueue : link.queue = body :: queue) :
      UpstreamStep s .write
        { s with link := some { link with queue, written := link.written ++ [body] } }
  | writeFails (link : Link) (hlink : s.link = some link) :
      UpstreamStep s .writeFails { s with link := some { link with running := false, queue := [] } }
  | tearDown (link : Link) (hlink : s.link = some link) :
      UpstreamStep s .tearDown { s with link := none, ended := s.ended ++ [link.written] }

variable {sha256d userCfg alloc newManager}

theorem upstreamStep_cases {s t : UpstreamState σ} {a : UpstreamAction}
    (hstep : upstreamStep sha256d userCfg alloc newManager s a = some t) :
    UpstreamStep sha256d userCfg alloc newManager s a t := by
  cases a with
  | gateway a =>
      obtain ⟨hfree, hstep⟩ := Option.ite_none_right_eq_some.mp hstep
      obtain ⟨gateway, hgateway, rfl⟩ := Option.map_eq_some_iff.mp hstep
      exact .gateway a gateway hfree hgateway
  | relayEncode share paddingByte =>
      obtain ⟨hrelay, hstep⟩ := Option.ite_none_left_eq_some.mp hstep
      rw [Option.not_isSome_iff_eq_none] at hrelay
      split at hstep
      · obtain rfl := Option.some.inj hstep
        exact .relayDrops share paddingByte hrelay
      · rename_i entry inputs hrelayed
        obtain ⟨gateway, hgateway, rfl⟩ := Option.map_eq_some_iff.mp hstep
        exact .relayEncode share paddingByte entry inputs gateway hrelay hrelayed hgateway
  | relaySend =>
      simp only [upstreamStep] at hstep
      split at hstep
      · rename_i body hrelay
        obtain ⟨-, hstep⟩ := Option.ite_none_right_eq_some.mp hstep
        obtain rfl := Option.some.inj hstep
        exact .relaySend body hrelay
      · cases hstep
  | sessionRead id =>
      obtain ⟨conn, -, hstep⟩ := Option.bind_eq_some_iff.mp hstep
      obtain ⟨hidle, hstep⟩ := Option.ite_none_right_eq_some.mp hstep
      obtain rfl := Option.some.inj hstep
      rw [Bool.and_eq_true, Option.isNone_iff_eq_none] at hidle
      exact .sessionRead id hidle.2
  | sessionEncode id submission paddingByte =>
      simp only [upstreamStep] at hstep
      split at hstep
      · rename_i seedRead hsession
        split at hstep
        · obtain rfl := Option.some.inj hstep
          exact .sessionRejects id submission paddingByte seedRead hsession
        · rename_i templateSeed channel entry haccepts
          obtain ⟨gateway, hgateway, rfl⟩ := Option.map_eq_some_iff.mp hstep
          exact .sessionEncode id submission paddingByte seedRead templateSeed channel entry gateway
            hsession haccepts hgateway
      · cases hstep
  | sessionSend id =>
      simp only [upstreamStep] at hstep
      split at hstep
      · rename_i body hsession
        obtain ⟨-, hstep⟩ := Option.ite_none_right_eq_some.mp hstep
        obtain rfl := Option.some.inj hstep
        exact .sessionSend id body hsession
      · cases hstep
  | sv2BridgeRecv =>
      simp only [upstreamStep] at hstep
      split at hstep
      · rename_i body sv2Queue hbridge hqueue
        obtain rfl := Option.some.inj hstep
        exact .sv2BridgeRecv body sv2Queue hbridge hqueue
      · cases hstep
  | sv2BridgeSend =>
      simp only [upstreamStep] at hstep
      split at hstep
      · rename_i body hbridge
        obtain ⟨-, hstep⟩ := Option.ite_none_right_eq_some.mp hstep
        obtain rfl := Option.some.inj hstep
        exact .sv2BridgeSend body hbridge
      · cases hstep
  | connect =>
      simp only [upstreamStep] at hstep
      split at hstep
      · cases hstep
      · rename_i hlink
        obtain ⟨gateway, hgateway, rfl⟩ := Option.map_eq_some_iff.mp hstep
        exact .connect gateway hlink hgateway
  | bridgeRecv =>
      simp only [upstreamStep] at hstep
      split at hstep
      · rename_i link body commands hlink hcommands
        obtain ⟨hbridge, hstep⟩ := Option.ite_none_right_eq_some.mp hstep
        obtain rfl := Option.some.inj hstep
        rw [Bool.and_eq_true, Option.isNone_iff_eq_none] at hbridge
        exact .bridgeRecv link body commands hlink hcommands hbridge.1
      · cases hstep
  | bridgeSend =>
      obtain ⟨link, hlink, hstep⟩ := Option.bind_eq_some_iff.mp hstep
      obtain ⟨body, hbridge, hstep⟩ := Option.bind_eq_some_iff.mp hstep
      split_ifs at hstep with hstopped hroom
      · obtain rfl := Option.some.inj hstep
        rw [Bool.not_eq_true'] at hstopped
        exact .bridgeDrops link hlink hstopped
      · obtain rfl := Option.some.inj hstep
        exact .bridgeSend link body hlink hbridge
  | write =>
      obtain ⟨link, hlink, hstep⟩ := Option.bind_eq_some_iff.mp hstep
      split at hstep
      · rename_i body queue hrunning hqueue
        obtain rfl := Option.some.inj hstep
        exact .write link body queue hlink hrunning hqueue
      · cases hstep
  | writeFails =>
      obtain ⟨link, hlink, hstep⟩ := Option.bind_eq_some_iff.mp hstep
      obtain rfl := Option.some.inj hstep
      exact .writeFails link hlink
  | tearDown =>
      obtain ⟨link, hlink, hstep⟩ := Option.bind_eq_some_iff.mp hstep
      obtain rfl := Option.some.inj hstep
      exact .tearDown link hlink

/-- What happens on the way upstream is for the gateway a step of its own, or nothing. -/
theorem gateway_of_upstreamStep {s t : UpstreamState σ} {a : UpstreamAction}
    (hstep : upstreamStep sha256d userCfg alloc newManager s a = some t) :
    t.gateway = s.gateway ∨
      ∃ b, gatewayStep sha256d alloc newManager s.gateway b = some t.gateway := by
  cases upstreamStep_cases hstep with
  | gateway a gateway _ hgateway => exact Or.inr ⟨a, hgateway⟩
  | relayEncode _ _ _ _ gateway _ _ hgateway => exact Or.inr ⟨_, hgateway⟩
  | sessionEncode _ _ _ _ _ _ _ gateway _ _ hgateway => exact Or.inr ⟨_, hgateway⟩
  | connect gateway _ hgateway => exact Or.inr ⟨_, hgateway⟩
  -- the rest of the way is not the gateway's
  | _ => exact Or.inl rfl

theorem reachable_gateway {t : UpstreamState σ}
    (hreachable : Reachable (upstreamStep sha256d userCfg alloc newManager) {} t) :
    Reachable (gatewayStep sha256d alloc newManager) {} t.gateway :=
  hreachable.simulates UpstreamState.gateway fun _ _ _ => gateway_of_upstreamStep

end Steps

def UpstreamState.connections {σ : Type} (s : UpstreamState σ) : List (List EncodedBody) :=
  s.ended ++ s.link.toList.map Link.written

end DatumGateway.UpstreamLink

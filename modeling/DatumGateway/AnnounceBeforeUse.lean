import DatumGateway.AnnouncementFlow
import DatumGateway.TransitionSystem

namespace DatumGateway.AnnounceBeforeUse

open DatumGateway.AnnouncedStreams
open DatumGateway.AnnouncementFlow
open DatumGateway.BlockTemplate
open DatumGateway.ByteString
open DatumGateway.ChannelManager
open DatumGateway.GatewayJobs
open DatumGateway.JobTracker
open DatumGateway.KeyedMaps
open DatumGateway.MiningListener
open DatumGateway.ShareEncoder
open DatumGateway.ShareRelay
open DatumGateway.SharedTemplate
open DatumGateway.StratumV1Assembler
open DatumGateway.StratumV1Server
open DatumGateway.TransitionSystem
open DatumGateway.UpstreamLink

section States

variable {σ : Type}

/-! Where the bodies are: written or queued for the connection, or still on the way there. -/

def linkLine (link : Link) : List EncodedBody :=
  link.written ++ link.queue ++ link.bridge.toList

def line (s : UpstreamState σ) : List EncodedBody :=
  s.link.toList.flatMap linkLine ++ s.commands

def sessionBodies (sessions : KeyMap ℕ SubmitPhase) : List EncodedBody :=
  sessions.entries.filterMap fun e => e.2.body

def waiting (s : UpstreamState σ) : List EncodedBody :=
  s.relay.toList ++ s.sv2Bridge.toList ++ s.sv2Queue ++ sessionBodies s.sessions

def running (s : UpstreamState σ) : Bool :=
  s.link.any Link.running

/-- The sentinel alone keeps back a `0x02` block only if that block has been encoded for this
connection under the same index. -/
def sentinelAgrees (s : UpstreamState σ) (entry : JobEntry) (templateSeed : UInt64) : Bool :=
  entry.serverHasCoinbase.toList.getD entry.jobMeta.coinbaseId.toNat false ||
    !s.gateway.tracker.crossProtocolCoinbaseAlreadySeen templateSeed entry.jobMeta.coinbaseId ||
      decide (coinbaseOf entry.jobMeta ∈ announced announces (line s ++ waiting s))

/-- No waiting body alone carries a block that the body leaves out. -/
def overtakesNothing (s : UpstreamState σ) (b : EncodedBody) : Bool :=
  (leftOut announces reliesOn b).all fun x =>
    decide (x ∉ announced announces (waiting s)) || decide (x ∈ announced announces (line s))

/-- The steps that keep the announcements ahead of their uses. -/
def keepsAnnouncements (s : UpstreamState σ) : UpstreamAction → Bool
  | .connect =>
      -- what was encoded before the flags are reset goes out on the new connection
      decide (InOrder announces reliesOn [] s.commands) &&
        (waiting s).all fun b => (leftOut announces reliesOn b).all fun x =>
          decide (x ∈ announced announces (s.commands ++ waiting s))
  | .relayEncode share _ =>
      !running s || (relayedWith s.gateway.tracker share).all fun accepted =>
        sentinelAgrees s accepted.1 accepted.1.templateSeed
  | .sessionEncode id submission _ =>
      !running s || (sessionAccepts s id submission).all fun accepted =>
        sentinelAgrees s accepted.2.2 accepted.1
  | .relaySend => !running s || s.relay.all (overtakesNothing s)
  | .sv2BridgeSend => !running s || s.sv2Bridge.all (overtakesNothing s)
  | _ => true

/-- What has been written on each connection is announced before it is used. -/
def Announced (s : UpstreamState σ) : Prop :=
  ∀ written ∈ s.connections, AnnouncedBeforeUse written

theorem mem_sessionBodies_iff {sessions : KeyMap ℕ SubmitPhase} {b : EncodedBody} :
    b ∈ sessionBodies sessions ↔ ∃ id, sessions.lookup id = some (.sending b) := by
  rw [sessionBodies, List.mem_filterMap]
  constructor
  · rintro ⟨⟨id, phase⟩, hmem, hbody⟩
    cases phase with
    | seedRead templateSeed => cases hbody
    | sending body =>
        obtain rfl := Option.some.inj hbody
        exact ⟨id, AList.mem_lookup_iff.mpr hmem⟩
  · rintro ⟨id, hlookup⟩
    exact ⟨⟨id, .sending b⟩, AList.mem_lookup_iff.mp hlookup, rfl⟩

theorem mem_waiting_iff {s : UpstreamState σ} {b : EncodedBody} :
    b ∈ waiting s ↔ s.relay = some b ∨ s.sv2Bridge = some b ∨ b ∈ s.sv2Queue ∨
      ∃ id, s.sessions.lookup id = some (.sending b) := by
  simp only [waiting, List.mem_append, Option.mem_toList, mem_sessionBodies_iff, or_assoc]

theorem lookup_sending_erase {sessions : KeyMap ℕ SubmitPhase} {id : ℕ} {b : EncodedBody} :
    (∃ id', (sessions.erase id).lookup id' = some (.sending b)) ↔
      ∃ id', id' ≠ id ∧ sessions.lookup id' = some (.sending b) := by
  simp only [lookup_erase_eq_some_iff]

theorem lookup_sending_insert {sessions : KeyMap ℕ SubmitPhase} {id : ℕ} {phase : SubmitPhase}
    {b : EncodedBody} :
    (∃ id', (sessions.insert id phase).lookup id' = some (.sending b)) ↔
      phase = .sending b ∨ ∃ id', id' ≠ id ∧ sessions.lookup id' = some (.sending b) := by
  simp only [lookup_insert_eq_some_iff, exists_or, exists_eq_left]

theorem lookup_sending_ne {sessions : KeyMap ℕ SubmitPhase} {id : ℕ} {b : EncodedBody}
    (hid : ∀ body, sessions.lookup id ≠ some (.sending body)) :
    (∃ id', id' ≠ id ∧ sessions.lookup id' = some (.sending b)) ↔
      ∃ id', sessions.lookup id' = some (.sending b) := by
  constructor
  · rintro ⟨id', -, hlookup⟩
    exact ⟨id', hlookup⟩
  · rintro ⟨id', hlookup⟩
    refine ⟨id', ?_, hlookup⟩
    rintro rfl
    exact hid b hlookup

theorem lookup_sending_iff {sessions : KeyMap ℕ SubmitPhase} {id : ℕ} {body b : EncodedBody}
    (hsession : sessions.lookup id = some (.sending body)) :
    (∃ id', sessions.lookup id' = some (.sending b)) ↔
      b = body ∨ ∃ id', id' ≠ id ∧ sessions.lookup id' = some (.sending b) := by
  constructor
  · rintro ⟨id', hlookup⟩
    by_cases hid : id' = id
    · subst hid
      rw [hsession] at hlookup
      exact Or.inl (SubmitPhase.sending.inj (Option.some.inj hlookup)).symm
    · exact Or.inr ⟨id', hid, hlookup⟩
  · rintro (rfl | ⟨id', -, hlookup⟩)
    · exact ⟨id, hsession⟩
    · exact ⟨id', hlookup⟩

section Link

variable {s : UpstreamState σ} {link : Link}

theorem line_of_link (hlink : s.link = some link) :
    line s = link.written ++ link.queue ++ link.bridge.toList ++ s.commands := by
  simp [line, linkLine, hlink]

theorem running_of_link (hlink : s.link = some link) : running s = link.running := by
  rw [running, hlink, Option.any_some]

theorem connections_of_link (hlink : s.link = some link) :
    s.connections = s.ended ++ [link.written] := by
  rw [UpstreamState.connections, hlink]
  rfl

end Link

end States

section Steps

variable {sha256d : Bytes → Bytes32} {userCfg : ShareUserConfig} {σ : Type}
variable {alloc : ExtranonceAllocator σ} {newManager : Manager σ}

theorem flagged_freshEntry (jobMeta : JobMeta) (templateSeed : UInt64) :
    flagged (Tracker.freshEntry jobMeta templateSeed) = [] :=
  flagged_of_unset rfl rfl

theorem flagged_insert {t : Tracker} {key key' : JobKey} {jobMeta : JobMeta}
    {templateSeed : UInt64} {entry : JobEntry}
    (hget : (t.insert key jobMeta templateSeed).get key' = some entry) :
    t.get key' = some entry ∨ flagged entry = [] := by
  refine (Tracker.get_insert_cases hget).imp_right ?_
  rintro rfl
  exact flagged_freshEntry jobMeta templateSeed

theorem flagged_seedJobTracker {templateRx : Option TemplateState} {outs : List MiningOut}
    {t : Tracker} {key : JobKey} {entry : JobEntry}
    (hget : (seedJobTracker templateRx outs t).get key = some entry) :
    t.get key = some entry ∨ flagged entry = [] := by
  revert hget
  apply seedJobTracker_induction
    (p := fun t' => t'.get key = some entry → t.get key = some entry ∨ flagged entry = []) Or.inl
  intro template _ key' t' ih hget
  rcases flagged_insert hget with hget | hfresh
  · exact ih hget
  · exact Or.inr hfresh

theorem flagged_gatewayStep {s : UpstreamState σ} {gateway : GatewayState σ} {a : GatewayAction}
    {key : JobKey} {entry : JobEntry} (hfree : freeFor s a = true)
    (hstep : gatewayStep sha256d alloc newManager s.gateway a = some gateway)
    (hget : gateway.tracker.get key = some entry) :
    s.gateway.tracker.get key = some entry ∨ flagged entry = [] := by
  cases trackerStep_of_gatewayStep hstep with
  | same _ htracker _ =>
      rw [htracker] at hget
      exact Or.inl hget
  | index _ htracker _ =>
      rw [htracker] at hget
      exact Or.inl hget
  | insert state datumJobIdx _ htracker _ =>
      rw [htracker] at hget
      exact flagged_insert hget
  | seed id conn frames template seedTemplate _ _ htracker _ =>
      rw [htracker] at hget
      exact flagged_seedJobTracker hget
  | encode _ _ _ _ _ _ _ _ => cases hfree
  | reset _ _ => cases hfree

structure RunInvariant (s : UpstreamState σ) : Prop where
  inOrder : ∀ written ∈ s.connections, InOrder announces reliesOn [] written
  flows : running s = true → Flows (line s) (waiting s) s.gateway.tracker

theorem RunInvariant.of_flows {s t : UpstreamState σ} (hinv : RunInvariant s)
    (hlink : t.link = s.link) (hended : t.ended = s.ended)
    (hflows : running s = true → Flows (line s) (waiting s) s.gateway.tracker →
      Flows (line t) (waiting t) t.gateway.tracker) : RunInvariant t := by
  constructor
  · rw [UpstreamState.connections, hlink, hended]
    exact hinv.inOrder
  · intro hrunning
    rw [running, hlink] at hrunning
    exact hflows hrunning (hinv.flows hrunning)

theorem gatewayStep_encodeShare {s : GatewayState σ} {key : JobKey} {entry : JobEntry}
    (hget : s.tracker.get key = some entry) (templateSeed : UInt64) :
    let coinbaseId := entry.jobMeta.coinbaseId
    let xprotSeen := s.tracker.crossProtocolCoinbaseAlreadySeen templateSeed coinbaseId
    gatewayStep sha256d alloc newManager s (.encodeShare key templateSeed) =
      some { s with
        tracker := s.tracker.recordEncoded key (markSent entry xprotSeen) templateSeed
          coinbaseId xprotSeen } := by
  simp only [gatewayStep, hget]

theorem coinbaseOf_mem_of_sentinelAgrees {s : UpstreamState σ} {entry : JobEntry}
    {templateSeed : UInt64} (hagrees : sentinelAgrees s entry templateSeed = true)
    (hseen : s.gateway.tracker.crossProtocolCoinbaseAlreadySeen templateSeed
      entry.jobMeta.coinbaseId = true)
    (hunset : entry.serverHasCoinbase.toList.getD entry.jobMeta.coinbaseId.toNat false = false) :
    coinbaseOf entry.jobMeta ∈ announced announces (line s ++ waiting s) := by
  simpa only [sentinelAgrees, hseen, hunset, Bool.false_or, Bool.not_true, decide_eq_true_eq]
    using hagrees

theorem mem_line_of_overtakesNothing {s : UpstreamState σ} {b : EncodedBody}
    (hovertakes : overtakesNothing s b = true) :
    ∀ x ∈ leftOut announces reliesOn b, x ∈ announced announces (waiting s) →
      x ∈ announced announces (line s) := by
  intro x hx hwaiting
  have hahead := List.all_eq_true.mp hovertakes x hx
  rw [Bool.or_eq_true, decide_eq_true_eq, decide_eq_true_eq] at hahead
  exact hahead.resolve_left fun h => h hwaiting

theorem RunInvariant.relayEncode {s : UpstreamState σ} {gateway : GatewayState σ}
    {share : SubmittedShare} {paddingByte : UInt8} {entry : JobEntry}
    {inputs : SubmittedShareInputs} (hinv : RunInvariant s)
    (hguard : keepsAnnouncements s (.relayEncode share paddingByte) = true)
    (hrelay : s.relay = none)
    (hrelayed : relayedWith s.gateway.tracker share = some (entry, inputs))
    (hgateway : gatewayStep sha256d alloc newManager s.gateway
      (.encodeShare (.sv1 share.jobId) entry.templateSeed) = some gateway) :
    RunInvariant { s with
      gateway
      relay := some (encodeBody sha256d userCfg s.gateway.tracker entry inputs entry.templateSeed
        paddingByte) } := by
  have hget : s.gateway.tracker.get (.sv1 share.jobId) = some entry := get_of_relayedWith hrelayed
  rw [gatewayStep_encodeShare hget] at hgateway
  obtain rfl := Option.some.inj hgateway
  refine hinv.of_flows rfl rfl fun hrunning hflows => ?_
  simp only [keepsAnnouncements, hrunning, hrelayed, Bool.not_true, Bool.false_or,
    Option.all_some] at hguard
  refine hflows.encode
    (b := encodeBody sha256d userCfg s.gateway.tracker entry inputs entry.templateSeed
      paddingByte)
    hget (coinbaseOf_mem_of_sentinelAgrees hguard) fun b' => ?_
  simp [mem_waiting_iff, hrelay, eq_comm (b := b')]

theorem lookup_sending_of_seedRead {s : UpstreamState σ} {id : ℕ} {seedRead : UInt64}
    (hsession : s.sessions.lookup id = some (.seedRead seedRead)) (body : EncodedBody) :
    s.sessions.lookup id ≠ some (.sending body) := by
  rw [hsession]
  exact fun h => SubmitPhase.noConfusion (Option.some.inj h)

theorem RunInvariant.sessionEncode {s : UpstreamState σ} {gateway : GatewayState σ} {id : ℕ}
    {submission : Submission} {paddingByte : UInt8} {seedRead templateSeed : UInt64}
    {channel : OpenedChannel} {entry : JobEntry} (hinv : RunInvariant s)
    (hguard : keepsAnnouncements s (.sessionEncode id submission paddingByte) = true)
    (hsession : s.sessions.lookup id = some (.seedRead seedRead))
    (haccepts : sessionAccepts s id submission = some (templateSeed, channel, entry))
    (hgateway : gatewayStep sha256d alloc newManager s.gateway
      (.encodeShare submission.jobKey templateSeed) = some gateway) :
    RunInvariant { s with
      gateway
      sessions := s.sessions.insert id (.sending (encodeBody sha256d userCfg s.gateway.tracker entry
        (submittedInputs channel submission) templateSeed paddingByte)) } := by
  have hget : s.gateway.tracker.get submission.jobKey = some entry := get_of_sessionAccepts haccepts
  rw [gatewayStep_encodeShare hget] at hgateway
  obtain rfl := Option.some.inj hgateway
  refine hinv.of_flows rfl rfl fun hrunning hflows => ?_
  simp only [keepsAnnouncements, hrunning, haccepts, Bool.not_true, Bool.false_or,
    Option.all_some] at hguard
  refine hflows.encode
    (b := encodeBody sha256d userCfg s.gateway.tracker entry
      (submittedInputs channel submission) templateSeed paddingByte)
    hget (coinbaseOf_mem_of_sentinelAgrees hguard) fun b' => ?_
  rw [mem_waiting_iff, mem_waiting_iff, lookup_sending_insert,
    lookup_sending_ne (lookup_sending_of_seedRead hsession), SubmitPhase.sending.injEq,
    eq_comm (b := b')]
  simp only [or_left_comm (a := b' = _)]

theorem RunInvariant.push {s t : UpstreamState σ} {b : EncodedBody} (hinv : RunInvariant s)
    (hguard : (!running s || overtakesNothing s b) = true) (hb : b ∈ waiting s)
    (hlink : t.link = s.link) (hended : t.ended = s.ended) (hgateway : t.gateway = s.gateway)
    (hcommands : t.commands = s.commands ++ [b])
    (hwaiting : ∀ b', b' ∈ waiting s ↔ b' = b ∨ b' ∈ waiting t) : RunInvariant t := by
  refine hinv.of_flows hlink hended fun hrunning hflows => ?_
  rw [hrunning, Bool.not_true, Bool.false_or] at hguard
  have hline : line t = line s ++ [b] := by
    rw [line, line, hlink, hcommands, List.append_assoc]
  rw [hline, hgateway]
  exact hflows.push hb hwaiting (mem_line_of_overtakesNothing hguard)

theorem RunInvariant.of_link {s t : UpstreamState σ} {link link' : Link} (hinv : RunInvariant s)
    (hlink : s.link = some link) (hlink' : t.link = some link') (hended : t.ended = s.ended)
    (hwritten : link'.written = link.written ∨
      link.running = true ∧ ∃ rest, line s = link'.written ++ rest)
    (hflows : link'.running = true → link.running = true ∧ line t = line s ∧
      waiting t = waiting s ∧ t.gateway = s.gateway) : RunInvariant t := by
  constructor
  · intro written hmem
    rw [connections_of_link hlink', hended, List.mem_append, List.mem_singleton] at hmem
    have hold := hinv.inOrder
    rw [connections_of_link hlink] at hold
    rcases hmem with hmem | rfl
    · exact hold written (List.mem_append_left _ hmem)
    · rcases hwritten with hsame | ⟨hrunning, rest, hline⟩
      · rw [hsame]
        exact hold _ (List.mem_append_right _ (List.mem_singleton_self _))
      · have hordered := (hinv.flows ((running_of_link hlink).trans hrunning)).ordered
        rw [hline] at hordered
        exact hordered.of_append
  · intro hrunning
    rw [running_of_link hlink'] at hrunning
    obtain ⟨hrunning, hline, hwaiting, hgateway⟩ := hflows hrunning
    rw [hline, hwaiting, hgateway]
    exact hinv.flows ((running_of_link hlink).trans hrunning)

theorem RunInvariant.connect {s : UpstreamState σ} (hinv : RunInvariant s)
    (hguard : keepsAnnouncements s .connect = true) :
    RunInvariant { s with
      gateway := { s.gateway with tracker := s.gateway.tracker.resetSendOnceFlags }
      link := some {} } := by
  rw [keepsAnnouncements, Bool.and_eq_true, decide_eq_true_eq] at hguard
  obtain ⟨hordered, hwaiting⟩ := hguard
  constructor
  · intro written hmem
    rw [connections_of_link rfl, List.mem_append, List.mem_singleton] at hmem
    rcases hmem with hmem | rfl
    · exact hinv.inOrder written (List.mem_append_left _ hmem)
    · trivial
  · intro _
    rw [line_of_link rfl]
    constructor
    · exact hordered
    · intro b hb x hx
      exact of_decide_eq_true (List.all_eq_true.mp (List.all_eq_true.mp hwaiting b hb) x hx)
    · intro key entry hget
      rw [Tracker.get_resetSendOnceFlags, Option.map_eq_some_iff] at hget
      obtain ⟨entry, -, rfl⟩ := hget
      rw [flagged_of_unset rfl rfl]
      exact List.nil_subset _

theorem RunInvariant.tearDown {s : UpstreamState σ} {link : Link} (hinv : RunInvariant s)
    (hlink : s.link = some link) :
    RunInvariant { s with link := none, ended := s.ended ++ [link.written] } := by
  constructor
  · intro written hwritten
    apply hinv.inOrder
    rw [connections_of_link hlink]
    simpa [UpstreamState.connections] using hwritten
  · intro hrunning
    cases hrunning

theorem RunInvariant.step {s t : UpstreamState σ} {a : UpstreamAction} (hinv : RunInvariant s)
    (hguard : keepsAnnouncements s a = true)
    (hstep : upstreamStep sha256d userCfg alloc newManager s a = some t) : RunInvariant t := by
  cases upstreamStep_cases hstep with
  | gateway a gateway hfree hgateway =>
      refine hinv.of_flows rfl rfl fun _ hflows => hflows.of_tracker fun key entry hget => ?_
      exact flagged_gatewayStep hfree hgateway hget
  | relayDrops share paddingByte _ => exact hinv
  | relayEncode share paddingByte entry inputs gateway hrelay hrelayed hgateway =>
      exact hinv.relayEncode hguard hrelay hrelayed hgateway
  | relaySend body hrelay =>
      rw [keepsAnnouncements, hrelay, Option.all_some] at hguard
      refine hinv.push hguard (mem_waiting_iff.mpr (Or.inl hrelay)) rfl rfl rfl rfl fun b => ?_
      simp [mem_waiting_iff, hrelay, eq_comm (b := b)]
  | sessionRead id hsession =>
      refine hinv.of_flows rfl rfl fun _ hflows => hflows.of_waiting_iff fun b => ?_
      rw [mem_waiting_iff, mem_waiting_iff, lookup_sending_insert,
        lookup_sending_ne fun body => by rw [hsession]; exact (Option.some_ne_none _).symm]
      simp
  | sessionRejects id submission paddingByte seedRead hsession =>
      refine hinv.of_flows rfl rfl fun _ hflows => hflows.of_waiting_iff fun b => ?_
      rw [mem_waiting_iff, mem_waiting_iff, lookup_sending_erase,
        lookup_sending_ne (lookup_sending_of_seedRead hsession)]
  | sessionEncode id submission paddingByte seedRead templateSeed channel entry gateway hsession
      haccepts hgateway => exact hinv.sessionEncode hguard hsession haccepts hgateway
  | sessionSend id body hsession =>
      refine hinv.of_flows rfl rfl fun _ hflows => hflows.of_waiting_iff fun b => ?_
      rw [mem_waiting_iff, mem_waiting_iff, lookup_sending_erase, lookup_sending_iff hsession,
        List.mem_append, List.mem_singleton, or_assoc]
  | sv2BridgeRecv body queue hbridge hqueue =>
      refine hinv.of_flows rfl rfl fun _ hflows => hflows.of_waiting_iff fun b => ?_
      simp [mem_waiting_iff, hbridge, hqueue, eq_comm (b := b), or_assoc]
  | sv2BridgeSend body hbridge =>
      rw [keepsAnnouncements, hbridge, Option.all_some] at hguard
      refine hinv.push hguard (mem_waiting_iff.mpr (Or.inr (Or.inl hbridge))) rfl rfl rfl rfl
        fun b => ?_
      simp [mem_waiting_iff, hbridge, eq_comm (b := b), or_left_comm]
  | connect gateway hlink hgateway =>
      obtain rfl := Option.some.inj hgateway
      exact hinv.connect hguard
  | bridgeRecv link body commands hlink hcommands hbridge =>
      refine hinv.of_link hlink rfl rfl (Or.inl rfl) fun hrunning => ⟨hrunning, ?_, rfl, rfl⟩
      rw [line_of_link hlink, line_of_link rfl, hbridge, hcommands]
      simp
  | bridgeDrops link hlink hstopped =>
      refine hinv.of_link hlink rfl rfl (Or.inl rfl) fun hrunning => ?_
      rw [hstopped] at hrunning
      cases hrunning
  | bridgeSend link body hlink hbridge =>
      refine hinv.of_link hlink rfl rfl (Or.inl rfl) fun hrunning => ⟨hrunning, ?_, rfl, rfl⟩
      rw [line_of_link hlink, line_of_link rfl, hbridge]
      simp
  | write link body queue hlink hrunning hqueue =>
      have hline : line s =
          link.written ++ [body] ++ (queue ++ link.bridge.toList ++ s.commands) := by
        rw [line_of_link hlink, hqueue]
        simp
      refine hinv.of_link hlink rfl rfl (Or.inr ⟨hrunning, _, hline⟩)
        fun hrunning => ⟨hrunning, ?_, rfl, rfl⟩
      rw [hline, line_of_link rfl]
      simp
  | writeFails link hlink =>
      exact hinv.of_link hlink rfl rfl (Or.inl rfl) fun hrunning => by cases hrunning
  | tearDown link hlink => exact hinv.tearDown hlink

end Steps

/-- In every run whose steps keep the announcements ahead of their uses, each body that has been
written comes after the blocks it relies on, or carries them. -/
theorem reachable_announced (sha256d : Bytes → Bytes32) (userCfg : ShareUserConfig) {σ : Type}
    (alloc : ExtranonceAllocator σ) (newManager : Manager σ) (t : UpstreamState σ)
    (hreaches : Reaches (upstreamStep sha256d userCfg alloc newManager)
      (fun s a => keepsAnnouncements s a = true) {} t) : Announced t := by
  have hstart : RunInvariant ({} : UpstreamState σ) := by
    constructor
    · exact fun written hwritten => absurd hwritten List.not_mem_nil
    · exact fun hrunning => by cases hrunning
  have hinv : RunInvariant t :=
    hreaches.invariant hstart fun s a t hinv hguard hstep => hinv.step hguard hstep
  exact fun written hwritten =>
    announcedBeforeUse_iff_inOrder.mpr (hinv.inOrder written hwritten)

def offerJobs : List UpstreamAction :=
  [.publish (plainState (fun _ => ByteVec.fill 32 0) emptyTemplate), .assemblerWake,
    .assemblerIndex, .assemblerInsert, .assemblerNotify, .accept 0,
    .connection 0 (.openChannel .extended plainOpenRequest), .connection 0 .seedRead,
    .connection 0 .seedInsert, .connection 0 .send, .connection 0 .send,
    .connection 0 .send].map .gateway

def firstSv1Share : SubmittedShare where
  username := ""
  jobId := sv1JobId 0 0 emptyTemplate.height
  extranonce2Hex := ""
  ntimeHex := "0"
  nonceHex := "0"
  extranonce1 := ByteVec.fill 4 0
  versionRolling := 0
  currentDiff := 1
  patchedCoinb1Bin := none

def poolUser : ShareUserConfig where
  poolAddress := ""
  passFullUsers := false
  passWorkers := false

/-- One share of each protocol: the second body leaves its `0x02` block to the first. -/
theorem announced_of_both_protocols :
    let step := upstreamStep (fun _ => ByteVec.fill 32 0) poolUser countingAllocator emptyManager
    ∃ t, Reaches step (fun s a => keepsAnnouncements s a = true) {} t ∧
      decide (t.connections.map List.length = [2]) = true ∧ Announced t := by
  intro step
  obtain ⟨t, hreaches, hlength⟩ := exists_reaches_of_runGuarded step keepsAnnouncements {}
    (.connect :: (offerJobs ++
      [.relayEncode firstSv1Share 0, .relaySend, .bridgeRecv, .bridgeSend, .write,
        .sessionRead 0, .sessionEncode 0 firstShare 0, .sessionSend 0, .sv2BridgeRecv,
        .sv2BridgeSend, .bridgeRecv, .bridgeSend, .write]))
    (fun t => decide (t.connections.map List.length = [2])) (by decide +kernel)
  exact ⟨t, hreaches, hlength,
    reachable_announced (fun _ => ByteVec.fill 32 0) poolUser countingAllocator emptyManager t
      hreaches⟩

/-- The second share of a job is encoded before the connection ends, and written on the next. -/
theorem waiting_body_written_without_blocks :
    let step := upstreamStep (fun _ => ByteVec.fill 32 0) poolUser countingAllocator emptyManager
    ∃ t, Reachable step {} t ∧ ¬ Announced t := by
  intro step
  obtain ⟨t, hreachable, hunannounced⟩ := exists_reachable_of_runActions step {}
    (.connect :: (offerJobs ++
      [.relayEncode firstSv1Share 0, .relaySend, .bridgeRecv, .bridgeSend, .write,
        .relayEncode firstSv1Share 0, .relaySend, .tearDown, .connect, .bridgeRecv, .bridgeSend,
        .write]))
    (fun t => t.connections.any fun written =>
      !decide (InOrder announces reliesOn [] written)) (by decide +kernel)
  refine ⟨t, hreachable, ?_⟩
  intro hannounced
  obtain ⟨written, hwritten, hbad⟩ := List.any_eq_true.mp hunannounced
  rw [Bool.not_eq_true', decide_eq_false_iff_not] at hbad
  exact hbad (announcedBeforeUse_iff_inOrder.mp (hannounced written hwritten))

end DatumGateway.AnnounceBeforeUse

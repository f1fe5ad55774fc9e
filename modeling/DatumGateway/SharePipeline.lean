import DatumGateway.AnnounceBeforeUse
import DatumGateway.TaggedLogs

/-!
What becomes of the share bodies between the tasks that encode them and the upstream
connections: the relay of the SV1 miners and each SV2 connection hand over their own
bodies one by one, and several queues and bridges carry the bodies of all of them.
-/

namespace DatumGateway.SharePipeline

open DatumGateway.AnnounceBeforeUse
open DatumGateway.ByteString
open DatumGateway.ChannelManager
open DatumGateway.GatewayJobs
open DatumGateway.JobTracker
open DatumGateway.KeyedMaps
open DatumGateway.MiningListener
open DatumGateway.ShareEncoder
open DatumGateway.SharePath
open DatumGateway.TaggedLogs
open DatumGateway.TransitionSystem
open DatumGateway.UpstreamLink

/-- The task that encodes a body. -/
inductive Origin where
  | relay
  | connection (id : ℕ)
  deriving DecidableEq

/-- The gateway with what a bystander writes down of its share bodies. -/
structure TracedState (σ : Type) where
  state : UpstreamState σ := {}
  encoded : List (Origin × EncodedBody) := []
  /-- What the SV2 queue and its bridge hold, with the connections it comes from. -/
  underWay : List (ℕ × EncodedBody) := []
  /-- All that was put into the queue of commands. -/
  arrived : List (Origin × EncodedBody) := []
  /-- All that was taken out of it. -/
  drained : List EncodedBody := []

/-- The body that the task of a connection has encoded and not yet sent. -/
def handOf (sessions : KeyMap ℕ SubmitPhase) (id : ℕ) : List EncodedBody :=
  ((sessions.lookup id).bind SubmitPhase.body).toList

theorem handOf_of_none {sessions : KeyMap ℕ SubmitPhase} {id : ℕ}
    (hsession : sessions.lookup id = none) : handOf sessions id = [] := by
  rw [handOf, hsession]
  rfl

theorem handOf_of_some {sessions : KeyMap ℕ SubmitPhase} {id : ℕ} {phase : SubmitPhase}
    (hsession : sessions.lookup id = some phase) : handOf sessions id = phase.body.toList := by
  rw [handOf, hsession]
  rfl

@[simp] theorem handOf_insert_self (sessions : KeyMap ℕ SubmitPhase) (id : ℕ)
    (phase : SubmitPhase) : handOf (sessions.insert id phase) id = phase.body.toList :=
  handOf_of_some (AList.lookup_insert sessions)

theorem handOf_insert_of_ne (sessions : KeyMap ℕ SubmitPhase) {id id' : ℕ} (phase : SubmitPhase)
    (hne : id' ≠ id) : handOf (sessions.insert id phase) id' = handOf sessions id' := by
  rw [handOf, AList.lookup_insert_ne hne, handOf]

@[simp] theorem handOf_erase_self (sessions : KeyMap ℕ SubmitPhase) (id : ℕ) :
    handOf (sessions.erase id) id = [] :=
  handOf_of_none (AList.lookup_erase id sessions)

theorem handOf_erase_of_ne (sessions : KeyMap ℕ SubmitPhase) {id id' : ℕ} (hne : id' ≠ id) :
    handOf (sessions.erase id) id' = handOf sessions id' := by
  rw [handOf, AList.lookup_erase_ne hne, handOf]

section States

variable {σ : Type}

def linkBodies (link : Link) : List EncodedBody :=
  link.written ++ link.queue ++ link.bridge.toList

/-- The bodies that have got to a connection, and are not lost. -/
def bodiesPassedOn (s : UpstreamState σ) : List EncodedBody :=
  s.ended.flatten ++ s.link.toList.flatMap linkBodies

def inTransit (s : TracedState σ) : Origin → List EncodedBody
  | .relay => s.state.relay.toList
  | .connection id => ofTag id s.underWay ++ handOf s.state.sessions id

theorem inTransit_congr {s t : TracedState σ} (hrelay : t.state.relay = s.state.relay)
    (hunderWay : t.underWay = s.underWay)
    (hhands : ∀ id, handOf t.state.sessions id = handOf s.state.sessions id) (origin : Origin) :
    inTransit t origin = inTransit s origin := by
  cases origin with
  | relay => rw [inTransit, hrelay, inTransit]
  | connection id => rw [inTransit, hunderWay, hhands, inTransit]

theorem inTransit_congr_of_ne_relay {s t : TracedState σ} (hunderWay : t.underWay = s.underWay)
    (hsessions : t.state.sessions = s.state.sessions) :
    ∀ origin ≠ .relay, inTransit t origin = inTransit s origin := by
  intro origin hne
  cases origin with
  | relay => exact absurd rfl hne
  | connection id => rw [inTransit, hunderWay, hsessions, inTransit]

theorem inTransit_congr_of_ne_connection {s t : TracedState σ} {id : ℕ}
    (hrelay : t.state.relay = s.state.relay)
    (hunderWay : ∀ id' ≠ id, ofTag id' t.underWay = ofTag id' s.underWay)
    (hhands : ∀ id' ≠ id, handOf t.state.sessions id' = handOf s.state.sessions id') :
    ∀ origin ≠ .connection id, inTransit t origin = inTransit s origin := by
  intro origin hne
  cases origin with
  | relay => rw [inTransit, hrelay, inTransit]
  | connection id' =>
      have hid : id' ≠ id := fun hid => hne (congrArg Origin.connection hid)
      rw [inTransit, hunderWay id' hid, hhands id' hid, inTransit]

def fromConnection (entry : ℕ × EncodedBody) : Origin × EncodedBody :=
  (.connection entry.1, entry.2)

/-- What is written down when `a` leads to `state`. -/
def record (s : TracedState σ) (a : UpstreamAction) (state : UpstreamState σ) : TracedState σ :=
  match a with
  | .relayEncode _ _ =>
      { s with state, encoded := s.encoded ++ state.relay.toList.map (Prod.mk .relay) }
  | .relaySend =>
      { s with state, arrived := s.arrived ++ s.state.relay.toList.map (Prod.mk .relay) }
  | .sessionEncode id _ _ =>
      { s with
        state
        encoded := s.encoded ++ (handOf state.sessions id).map (Prod.mk (.connection id)) }
  | .sessionSend id =>
      { s with state, underWay := s.underWay ++ (handOf s.state.sessions id).map (Prod.mk id) }
  | .sv2BridgeSend =>
      { s with
        state
        underWay := s.underWay.tail
        arrived := s.arrived ++ s.underWay.head?.toList.map fromConnection }
  | .bridgeRecv =>
      { s with state, drained := s.drained ++ s.state.commands.head?.toList }
  | _ => { s with state }

/-- Nothing is lost, doubled or overtaken before it is taken out of the queue of commands; after
that, nothing is doubled or overtaken. -/
structure Conserved (s : TracedState σ) : Prop where
  inOrder : InOrder s.encoded s.arrived (inTransit s)
  underWay : s.underWay.map Prod.snd = s.state.sv2Bridge.toList ++ s.state.sv2Queue
  arrived : s.arrived.map Prod.snd = s.drained ++ s.state.commands
  passedOn : (bodiesPassedOn s.state).Sublist s.drained

end States

section Steps

variable (sha256d : Bytes → Bytes32) (userCfg : ShareUserConfig) {σ : Type}
variable (alloc : ExtranonceAllocator σ) (newManager : Manager σ)

def tracedStep (s : TracedState σ) (a : UpstreamAction) : Option (TracedState σ) :=
  (upstreamStep sha256d userCfg alloc newManager s.state a).map (record s a)

variable {sha256d userCfg alloc newManager}

theorem bodiesPassedOn_of_link {s : UpstreamState σ} {link : Link} (hlink : s.link = some link) :
    bodiesPassedOn s = s.ended.flatten ++ linkBodies link := by
  rw [bodiesPassedOn, hlink, Option.toList_some, List.flatMap_singleton]

theorem Conserved.passedOn_of_sublist {s : TracedState σ} (hs : Conserved s) {link link' : Link}
    (hlink : s.state.link = some link) (hsub : (linkBodies link').Sublist (linkBodies link)) :
    (bodiesPassedOn { s.state with link := some link' }).Sublist s.drained := by
  rw [bodiesPassedOn_of_link rfl]
  exact ((List.Sublist.refl _).append hsub).trans (bodiesPassedOn_of_link hlink ▸ hs.passedOn)

theorem Conserved.step {s t : TracedState σ} {a : UpstreamAction} (hs : Conserved s)
    (hstep : tracedStep sha256d userCfg alloc newManager s a = some t) : Conserved t := by
  obtain ⟨state, hstate, rfl⟩ := Option.map_eq_some_iff.mp hstep
  cases upstreamStep_cases hstate with
  | gateway a gateway hfree hgateway =>
      exact ⟨hs.inOrder.held_congr fun origin => rfl, hs.underWay, hs.arrived, hs.passedOn⟩
  | relayDrops share paddingByte hrelay =>
      refine ⟨?_, hs.underWay, hs.arrived, hs.passedOn⟩
      apply hs.inOrder.take
      · rw [hrelay]
        exact (List.append_nil _).symm
      · exact fun origin _ => rfl
  | relayEncode share paddingByte entry inputs gateway hrelay hrelayed hgateway =>
      refine ⟨?_, hs.underWay, hs.arrived, hs.passedOn⟩
      apply hs.inOrder.take
      · simp [inTransit, record, hrelay]
      · exact inTransit_congr_of_ne_relay rfl rfl
  | relaySend body hrelay =>
      refine ⟨?_, hs.underWay, ?_, hs.passedOn⟩
      · apply hs.inOrder.give
        · exact (List.append_nil _).symm
        · exact inTransit_congr_of_ne_relay rfl rfl
      · simp [record, hrelay, hs.arrived]
  | sessionRead id hsession =>
      refine ⟨hs.inOrder.held_congr (inTransit_congr (s := s) rfl rfl fun id' => ?_),
        hs.underWay, hs.arrived, hs.passedOn⟩
      by_cases hid : id' = id
      · subst hid
        exact (handOf_insert_self _ _ _).trans (handOf_of_none hsession).symm
      · exact handOf_insert_of_ne _ _ hid
  | sessionRejects id submission paddingByte seedRead hsession =>
      refine ⟨?_, hs.underWay, hs.arrived, hs.passedOn⟩
      apply hs.inOrder.take
      · simp [record, inTransit, handOf_of_some hsession, SubmitPhase.body]
      · exact inTransit_congr_of_ne_connection rfl (fun _ _ => rfl)
          fun id' hid => handOf_erase_of_ne _ hid
  | sessionEncode id submission paddingByte seedRead templateSeed channel entry gateway hsession
      haccepts hgateway =>
      refine ⟨?_, hs.underWay, hs.arrived, hs.passedOn⟩
      apply hs.inOrder.take
      · simp [record, inTransit, handOf_of_some hsession, SubmitPhase.body]
      · exact inTransit_congr_of_ne_connection rfl (fun _ _ => rfl)
          fun id' hid => handOf_insert_of_ne _ _ hid
  | sessionSend id body hsession =>
      refine ⟨hs.inOrder.held_congr ?_, ?_, hs.arrived, hs.passedOn⟩
      · intro origin
        cases origin with
        | relay => rfl
        | connection id' =>
            by_cases hid : id' = id
            · subst hid
              simp [record, inTransit, ofTag_tagged_self]
            · simp only [record, inTransit, ofTag_append, ofTag_tagged_of_ne (Ne.symm hid),
                handOf_erase_of_ne _ hid, List.append_nil]
      · simp [record, hs.underWay, handOf_of_some hsession, SubmitPhase.body]
  | sv2BridgeRecv body sv2Queue hbridge hqueue =>
      refine ⟨hs.inOrder.held_congr fun origin => rfl, ?_, hs.arrived, hs.passedOn⟩
      have hunderWay := hs.underWay
      rw [hbridge, hqueue] at hunderWay
      exact hunderWay
  | sv2BridgeSend body hbridge =>
      have hunderWay := hs.underWay
      rw [hbridge] at hunderWay
      obtain ⟨⟨id, body⟩, underWay, hsplit, rfl, hrest⟩ := List.map_eq_cons_iff.mp hunderWay
      refine ⟨?_, ?_, ?_, hs.passedOn⟩
      · rw [record, hsplit]
        have htagged : [(id, body)].map fromConnection = [body].map (Prod.mk (.connection id)) :=
          rfl
        rw [List.head?_cons, Option.toList_some, htagged]
        apply hs.inOrder.give
        · simp only [inTransit, hsplit, List.tail_cons, ofTag_cons_self]
          rfl
        · refine inTransit_congr_of_ne_connection rfl (fun id' hid => ?_) fun _ _ => rfl
          rw [hsplit, ofTag_cons_of_ne (Ne.symm hid)]
          rfl
      · rw [record, hsplit]
        exact hrest
      · simp [record, hsplit, fromConnection, hs.arrived]
  | connect gateway hlink hgateway =>
      refine ⟨hs.inOrder.held_congr fun origin => rfl, hs.underWay, hs.arrived, ?_⟩
      have hpassedOn := hs.passedOn
      rw [bodiesPassedOn, hlink] at hpassedOn
      exact hpassedOn
  | bridgeRecv link body commands hlink hcommands hbridge =>
      refine ⟨hs.inOrder.held_congr fun origin => rfl, hs.underWay, ?_, ?_⟩
      · simp [record, hs.arrived, hcommands]
      · have hpassedOn := (bodiesPassedOn_of_link hlink ▸ hs.passedOn).append_right [body]
        simpa [record, bodiesPassedOn, linkBodies, hcommands, hbridge] using hpassedOn
  | bridgeDrops link hlink hstopped =>
      refine ⟨hs.inOrder.held_congr fun origin => rfl, hs.underWay, hs.arrived, ?_⟩
      apply hs.passedOn_of_sublist hlink
      simp [linkBodies]
  | bridgeSend link body hlink hbridge =>
      refine ⟨hs.inOrder.held_congr fun origin => rfl, hs.underWay, hs.arrived, ?_⟩
      apply hs.passedOn_of_sublist hlink
      simp [linkBodies, hbridge]
  | write link body queue hlink hrunning hqueue =>
      refine ⟨hs.inOrder.held_congr fun origin => rfl, hs.underWay, hs.arrived, ?_⟩
      apply hs.passedOn_of_sublist hlink
      simp [linkBodies, hqueue]
  | writeFails link hlink =>
      refine ⟨hs.inOrder.held_congr fun origin => rfl, hs.underWay, hs.arrived, ?_⟩
      apply hs.passedOn_of_sublist hlink
      simp [linkBodies]
  | tearDown link hlink =>
      refine ⟨hs.inOrder.held_congr fun origin => rfl, hs.underWay, hs.arrived, ?_⟩
      have hpassedOn := bodiesPassedOn_of_link hlink ▸ hs.passedOn
      refine List.Sublist.trans ?_ hpassedOn
      simp [record, bodiesPassedOn, linkBodies]

theorem conserved_of_reachable {gateway : GatewayState σ} {t : TracedState σ}
    (hreachable : Reachable (tracedStep sha256d userCfg alloc newManager)
      { state := { gateway } } t) : Conserved t :=
  hreachable.invariant ⟨fun origin => by cases origin <;> rfl, rfl, rfl, List.Sublist.refl []⟩
    fun _ _ _ hs hstep => hs.step hstep

/-- What is written down changes nothing: the runs are those of the gateway. -/
theorem reachable_state {s t : TracedState σ}
    (hreachable : Reachable (tracedStep sha256d userCfg alloc newManager) s t) :
    Reachable (upstreamStep sha256d userCfg alloc newManager) s.state t.state := by
  refine hreachable.simulates TracedState.state fun u a v hstep => Or.inr ⟨a, ?_⟩
  obtain ⟨state, hstate, rfl⟩ := Option.map_eq_some_iff.mp hstep
  rw [hstate]
  cases a <;> rfl

theorem exists_traced {s s' : UpstreamState σ} (t : TracedState σ) (ht : t.state = s)
    (hreachable : Reachable (upstreamStep sha256d userCfg alloc newManager) s s') :
    ∃ t', Reachable (tracedStep sha256d userCfg alloc newManager) t t' ∧ t'.state = s' := by
  induction hreachable with
  | refl => exact ⟨t, Relation.ReflTransGen.refl, ht⟩
  | tail _ hlast ih =>
      obtain ⟨t', hreaches, rfl⟩ := ih
      obtain ⟨a, -, hstep⟩ := hlast
      refine ⟨record t' a _, hreaches.tail ⟨a, trivial, ?_⟩, by cases a <;> rfl⟩
      rw [tracedStep, hstep, Option.map_some]

/-- The bodies of a task arrive in the order in which it encodes them, and what has not arrived
is still under way; the queue of commands gives out what arrived; and of the bodies that are
written on one connection after the other, those of a task are some of its bodies, in its order. -/
def TravelsInOrder (t : TracedState σ) : Prop :=
  InOrder t.encoded t.arrived (inTransit t) ∧
    t.arrived.map Prod.snd = t.drained ++ t.state.commands ∧
    ∃ wired : List (Origin × EncodedBody), wired.map Prod.snd = t.state.connections.flatten ∧
      ∀ origin, (ofTag origin wired).Sublist (ofTag origin t.encoded)

theorem connections_sublist (s : UpstreamState σ) :
    s.connections.flatten.Sublist (bodiesPassedOn s) := by
  rw [UpstreamState.connections, List.flatten_append, bodiesPassedOn]
  apply (List.Sublist.refl _).append
  cases s.link with
  | none => exact List.Sublist.refl _
  | some link => simp [linkBodies]

theorem Conserved.travelsInOrder {t : TracedState σ} (ht : Conserved t) : TravelsInOrder t := by
  refine ⟨ht.inOrder, ht.arrived, ?_⟩
  have hwired : t.state.connections.flatten.Sublist (t.arrived.map Prod.snd) := by
    rw [ht.arrived]
    exact ((connections_sublist t.state).trans ht.passedOn).trans (List.sublist_append_left _ _)
  obtain ⟨wired, hbodies, hsub⟩ := exists_entries_of_sublist hwired
  refine ⟨wired, hbodies, fun origin => (hsub origin).trans ?_⟩
  rw [ht.inOrder origin]
  exact List.sublist_append_left _ _

theorem bodies_travel_in_order {gateway : GatewayState σ} {t : TracedState σ}
    (hreachable : Reachable (tracedStep sha256d userCfg alloc newManager)
      { state := { gateway } } t) : TravelsInOrder t :=
  (conserved_of_reachable hreachable).travelsInOrder

end Steps

/-- A body of each protocol: the later one of the SV2 connection is in the queue of commands
before that of the relay. -/
theorem bodies_travel_in_order_of_both_protocols :
    let step := tracedStep (fun _ => ByteVec.fill 32 0) poolUser countingAllocator emptyManager
    ∃ t, Reachable step { state := { gateway := {} } } t ∧
      decide (t.encoded.map Prod.fst = [.relay, .connection 0] ∧
        t.arrived.map Prod.fst = [.connection 0] ∧ t.state.relay.isSome) = true ∧
      TravelsInOrder t := by
  intro step
  obtain ⟨t, hreachable, htravels⟩ := exists_reachable_of_runActions step
    { state := { gateway := {} } }
    (.connect :: (offerJobs ++
      [.relayEncode firstSv1Share 0, .sessionRead 0, .sessionEncode 0 firstShare 0,
        .sessionSend 0, .sv2BridgeRecv, .sv2BridgeSend, .bridgeRecv, .bridgeSend, .write]))
    (fun t => decide (t.encoded.map Prod.fst = [.relay, .connection 0] ∧
      t.arrived.map Prod.fst = [.connection 0] ∧ t.state.relay.isSome)) (by decide +kernel)
  exact ⟨t, hreachable, htravels, bodies_travel_in_order hreachable⟩

end DatumGateway.SharePipeline

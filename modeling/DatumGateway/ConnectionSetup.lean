import DatumGateway.DispatchLoop

namespace DatumGateway.ConnectionSetup

open DatumGateway.ByteString
open DatumGateway.ChannelManager
open DatumGateway.DispatchLoop
open DatumGateway.MiningConnection
open DatumGateway.MiningListener
open DatumGateway.ShareAcknowledgements
open DatumGateway.ShareEncoder
open DatumGateway.ShareForwarding
open DatumGateway.SharePath
open DatumGateway.TransitionSystem

inductive Protocol where
  | miningProtocol
  | jobDeclarationProtocol
  | templateDistributionProtocol
  deriving DecidableEq, Repr

structure SetupConnection where
  protocol : Protocol
  flags : UInt32

inductive SetupConnectionResponse where
  | success (usedVersion : UInt16) (flags : UInt32)
  | error (flags : UInt32) (errorCode : String)
  deriving DecidableEq, Repr

def flagRequiresWorkSelection : UInt32 := 0b10

/-- What the first frame turns out to be. -/
inductive FirstFrame where
  | setup (msg : SetupConnection)
  /-- It has the type of a setup and is another message. -/
  | otherMessage
  | unparsed
  | otherType (msgType : UInt8)
  | notSv2
  | readFails

inductive ConnectionError where
  | noise
  | unexpectedFirstFrame (got : UInt8)
  | frameBuild (kind : String)
  | parse
  deriving DecidableEq, Repr

inductive ServePhase where
  | handshake
  | awaitingSetup
  | replying (msg : SetupConnection)
  | serving
  | closed (result : Except ConnectionError Unit)

/-- A connection with the loop that it is to run, which sees already what goes on around it. -/
structure Served (σ α : Type) where
  phase : ServePhase := .handshake
  first : Option FirstFrame := none
  replied : Option SetupConnectionResponse := none
  loop : LoopState σ α

inductive ServeAction where
  | handshakeDone
  | handshakeFails
  | readFirst (frame : FirstFrame)
  | writeReply
  | loop (a : LoopAction)

def iterates : LoopAction → Bool
  | .iterate _ => true
  | _ => false

def ServePhase.isServing : ServePhase → Bool
  | .serving => true
  | _ => false

section Setup

variable (hasWorkSelection : UInt32 → Bool)

def handleSetupConnection (msg : SetupConnection) : SetupConnectionResponse :=
  if msg.protocol ≠ .miningProtocol then .error 0 "unsupported-protocol"
  else if hasWorkSelection msg.flags then
    .error flagRequiresWorkSelection "unsupported-feature-flags"
  else .success 2 0

def phaseAfterFirst : FirstFrame → ServePhase
  | .setup msg => .replying msg
  | .otherMessage => .closed (.error (.unexpectedFirstFrame 0x00))
  | .unparsed => .closed (.error .parse)
  | .otherType msgType => .closed (.error (.unexpectedFirstFrame msgType))
  | .notSv2 => .closed (.error (.unexpectedFirstFrame 0xff))
  | .readFails => .closed (.error .noise)

/-- A miner that is refused finds the connection closed. -/
def phaseAfterReply (managerBuilt : Bool) : SetupConnectionResponse → ServePhase
  | .success _ _ =>
      if managerBuilt then .serving else .closed (.error (.frameBuild "ChannelManager"))
  | .error _ _ => .closed (.ok ())

variable (managerBuilt : Bool) (sha256d : Bytes → Bytes32) {σ α : Type}
variable (alloc : ExtranonceAllocator σ) (acc : ShareAccounting α) (userCfg : ShareUserConfig)
variable (blockFound : Bool)

def serveStep (s : Served σ α) : ServeAction → Option (Served σ α)
  | .handshakeDone =>
      match s.phase with
      | .handshake => some { s with phase := .awaitingSetup }
      | _ => none
  | .handshakeFails =>
      match s.phase with
      | .handshake => some { s with phase := .closed (.error .noise) }
      | _ => none
  | .readFirst frame =>
      match s.phase with
      | .awaitingSetup => some { s with first := some frame, phase := phaseAfterFirst frame }
      | _ => none
  | .writeReply =>
      match s.phase with
      | .replying msg =>
          if s.loop.writerOpen then
            let response := handleSetupConnection hasWorkSelection msg
            some { s with
              replied := some response
              phase := phaseAfterReply managerBuilt response }
          else some { s with phase := .closed (.error .noise) }
      | _ => none
  | .loop a =>
      if iterates a && !s.phase.isServing then none
      else
        (loopStep sha256d alloc acc userCfg blockFound s.loop a).map fun loop => { s with loop }

/-- What an action does, and when it can happen. -/
inductive ServeStep (s : Served σ α) : ServeAction → Served σ α → Prop where
  | handshakeDone (hphase : s.phase = .handshake) :
      ServeStep s .handshakeDone { s with phase := .awaitingSetup }
  | handshakeFails (hphase : s.phase = .handshake) :
      ServeStep s .handshakeFails { s with phase := .closed (.error .noise) }
  | readFirst (frame : FirstFrame) (hphase : s.phase = .awaitingSetup) :
      ServeStep s (.readFirst frame) { s with first := some frame, phase := phaseAfterFirst frame }
  | replied (msg : SetupConnection) (hphase : s.phase = .replying msg) :
      ServeStep s .writeReply
        { s with
          replied := some (handleSetupConnection hasWorkSelection msg)
          phase := phaseAfterReply managerBuilt (handleSetupConnection hasWorkSelection msg) }
  | replyFails (msg : SetupConnection) (hphase : s.phase = .replying msg) :
      ServeStep s .writeReply { s with phase := .closed (.error .noise) }
  | loop (a : LoopAction) (loop : LoopState σ α)
      (hserving : iterates a = true → s.phase.isServing = true)
      (hloop : loopStep sha256d alloc acc userCfg blockFound s.loop a = some loop) :
      ServeStep s (.loop a) { s with loop }

variable {hasWorkSelection managerBuilt sha256d alloc acc userCfg blockFound}

theorem serveStep_cases {s t : Served σ α} {a : ServeAction}
    (hstep : serveStep hasWorkSelection managerBuilt sha256d alloc acc userCfg blockFound s a =
      some t) :
    ServeStep hasWorkSelection managerBuilt sha256d alloc acc userCfg blockFound s a t := by
  cases a with
  | handshakeDone =>
      simp only [serveStep] at hstep
      split at hstep
      · rename_i hphase
        obtain rfl := Option.some.inj hstep
        exact .handshakeDone hphase
      · cases hstep
  | handshakeFails =>
      simp only [serveStep] at hstep
      split at hstep
      · rename_i hphase
        obtain rfl := Option.some.inj hstep
        exact .handshakeFails hphase
      · cases hstep
  | readFirst frame =>
      simp only [serveStep] at hstep
      split at hstep
      · rename_i hphase
        obtain rfl := Option.some.inj hstep
        exact .readFirst frame hphase
      · cases hstep
  | writeReply =>
      simp only [serveStep] at hstep
      split at hstep
      · rename_i msg hphase
        split_ifs at hstep
        · obtain rfl := Option.some.inj hstep
          exact .replied msg hphase
        · obtain rfl := Option.some.inj hstep
          exact .replyFails msg hphase
      · cases hstep
  | loop a =>
      obtain ⟨hserving, hstep⟩ := Option.ite_none_left_eq_some.mp hstep
      obtain ⟨loop, hloop, rfl⟩ := Option.map_eq_some_iff.mp hstep
      refine .loop a loop (fun hiterates => ?_) hloop
      simpa [hiterates] using hserving

theorem events_of_loopStep {s t : LoopState σ α} {a : LoopAction} (hiterates : iterates a = false)
    (hstep : loopStep sha256d alloc acc userCfg blockFound s a = some t) :
    t.conn.events = s.conn.events := by
  cases a with
  | iterate ids => cases hiterates
  | publish template =>
      obtain ⟨templateRx, -, hstep⟩ := Option.bind_eq_some_iff.mp hstep
      obtain rfl := Option.some.inj hstep
      rfl
  | signalShutdown value =>
      obtain ⟨shutdownRx, -, hstep⟩ := Option.bind_eq_some_iff.mp hstep
      obtain rfl := Option.some.inj hstep
      rfl
  | _ =>
      obtain rfl := Option.some.inj hstep
      rfl

variable (hasWorkSelection) in
/-- The reply is that to the first frame, and the miner is served if it was a success. -/
def SetupSaid (s : Served σ α) : Prop :=
  match s.phase with
  | .handshake => s.first = none ∧ s.replied = none ∧ s.loop.conn.events = []
  | .awaitingSetup => s.first = none ∧ s.replied = none ∧ s.loop.conn.events = []
  | .replying msg =>
      s.first = some (.setup msg) ∧ s.replied = none ∧ s.loop.conn.events = []
  | .serving =>
      ∃ msg, s.first = some (.setup msg) ∧
        handleSetupConnection hasWorkSelection msg = .success 2 0 ∧ s.replied = some (.success 2 0)
  | .closed result =>
      s.loop.conn.events = [] ∧ ∀ response, s.replied = some response →
        (∃ msg, s.first = some (.setup msg) ∧
          response = handleSetupConnection hasWorkSelection msg) ∧
          (response ≠ .success 2 0 → result = .ok ())

theorem handleSetupConnection_eq_success_iff {msg : SetupConnection} {usedVersion : UInt16}
    {flags : UInt32} :
    handleSetupConnection hasWorkSelection msg = .success usedVersion flags ↔
      (msg.protocol = .miningProtocol ∧ hasWorkSelection msg.flags = false) ∧
        usedVersion = 2 ∧ flags = 0 := by
  rw [handleSetupConnection]
  split_ifs with hprotocol hflags
  · simp [hprotocol]
  · simp [hflags]
  · simp [not_not.mp hprotocol, hflags, eq_comm]

theorem setupSaid_step {s t : Served σ α} {a : ServeAction} (hs : SetupSaid hasWorkSelection s)
    (hstep : serveStep hasWorkSelection managerBuilt sha256d alloc acc userCfg blockFound s a =
      some t) : SetupSaid hasWorkSelection t := by
  cases serveStep_cases hstep with
  | handshakeDone hphase =>
      rw [SetupSaid, hphase] at hs
      exact hs
  | handshakeFails hphase =>
      rw [SetupSaid, hphase] at hs
      refine ⟨hs.2.2, fun response hreplied => ?_⟩
      cases hs.2.1.symm.trans hreplied
  | readFirst frame hphase =>
      rw [SetupSaid, hphase] at hs
      cases frame with
      | setup msg => exact ⟨rfl, hs.2⟩
      | _ =>
          refine ⟨hs.2.2, fun response hreplied => ?_⟩
          cases hs.2.1.symm.trans hreplied
  | replied msg hphase =>
      rw [SetupSaid, hphase] at hs
      obtain ⟨hfirst, -, hevents⟩ := hs
      cases hresponse : handleSetupConnection hasWorkSelection msg with
      | success usedVersion flags =>
          obtain ⟨-, rfl, rfl⟩ := handleSetupConnection_eq_success_iff.mp hresponse
          cases managerBuilt with
          | true => exact ⟨msg, hfirst, hresponse, rfl⟩
          | false =>
              refine ⟨hevents, fun response hreplied => ?_⟩
              obtain rfl := Option.some.inj hreplied
              exact ⟨⟨msg, hfirst, hresponse.symm⟩, fun hne => absurd rfl hne⟩
      | error flags errorCode =>
          refine ⟨hevents, fun response hreplied => ?_⟩
          obtain rfl := Option.some.inj hreplied
          exact ⟨⟨msg, hfirst, hresponse.symm⟩, fun _ => rfl⟩
  | replyFails msg hphase =>
      rw [SetupSaid, hphase] at hs
      refine ⟨hs.2.2, fun response hreplied => ?_⟩
      cases hs.2.1.symm.trans hreplied
  | loop a loop hserving hloop =>
      have hevents : s.phase.isServing = false → loop.conn.events = s.loop.conn.events := by
        intro hnot
        apply events_of_loopStep (Bool.eq_false_of_not_eq_true fun hiterates => ?_) hloop
        rw [hserving hiterates] at hnot
        cases hnot
      cases hphase : s.phase with
      | serving =>
          rw [SetupSaid, hphase] at hs
          exact hs
      | closed result =>
          rw [SetupSaid, hphase] at hs
          rw [hphase] at hevents
          exact ⟨(hevents rfl).trans hs.1, hs.2⟩
      | _ =>
          rw [SetupSaid, hphase] at hs
          rw [hphase] at hevents
          exact ⟨hs.1, hs.2.1, (hevents rfl).trans hs.2.2⟩

/-- What a miner has to ask for before anything else happens, and what it is told: the reply to
its first frame, and nothing more if this is no success. -/
structure SetUpFirst (hasWorkSelection : UInt32 → Bool) (s : Served σ α) : Prop where
  replied : ∀ response, s.replied = some response →
    ∃ msg, s.first = some (.setup msg) ∧ response = handleSetupConnection hasWorkSelection msg
  refused : ∀ response, s.replied = some response → response ≠ .success 2 0 →
    s.phase = .closed (.ok ()) ∧ s.loop.conn.events = []
  events : s.loop.conn.events ≠ [] →
    ∃ msg, s.first = some (.setup msg) ∧ msg.protocol = .miningProtocol ∧
      hasWorkSelection msg.flags = false ∧ s.replied = some (.success 2 0)

theorem SetupSaid.setUpFirst {s : Served σ α} (hs : SetupSaid hasWorkSelection s) :
    SetUpFirst hasWorkSelection s := by
  cases hphase : s.phase with
  | serving =>
      rw [SetupSaid, hphase] at hs
      obtain ⟨msg, hfirst, hresponse, hreplied⟩ := hs
      have haccepted := (handleSetupConnection_eq_success_iff.mp hresponse).1
      have hsuccess : ∀ response, s.replied = some response → response = .success 2 0 :=
        fun response hresponse' => (Option.some.inj (hreplied.symm.trans hresponse')).symm
      exact
        { replied := fun response hresponse' =>
            ⟨msg, hfirst, (hsuccess response hresponse').trans hresponse.symm⟩
          refused := fun response hresponse' hne => absurd (hsuccess response hresponse') hne
          events := fun _ => ⟨msg, hfirst, haccepted.1, haccepted.2, hreplied⟩ }
  | closed result =>
      rw [SetupSaid, hphase] at hs
      refine ⟨fun response hreplied => (hs.2 response hreplied).1, fun response hreplied hne => ?_,
        fun hevents => absurd hs.1 hevents⟩
      rw [hphase, (hs.2 response hreplied).2 hne]
      exact ⟨rfl, hs.1⟩
  | _ =>
      rw [SetupSaid, hphase] at hs
      have hnone : ∀ response, s.replied ≠ some response := fun response hreplied => by
        cases hs.2.1.symm.trans hreplied
      exact ⟨fun response hreplied => absurd hreplied (hnone response),
        fun response hreplied => absurd hreplied (hnone response),
        fun hevents => absurd hs.2.2 hevents⟩

/-- In every run of a connection, all that its miner is told and all that goes to the pool for it
comes after a setup for the mining protocol that does not ask to select the work, and is a run
of the connection from its start; and every other miner is told at most why it is refused. -/
theorem served_after_setup {loop : LoopState σ α} {s : Served σ α}
    (hevents : loop.conn.events = [])
    (hreachable : Reachable (serveStep hasWorkSelection managerBuilt sha256d alloc acc userCfg
      blockFound) { loop } s) :
    SetUpFirst hasWorkSelection s ∧
      Reachable (connectionStep sha256d alloc acc userCfg blockFound) loop.conn s.loop.conn := by
  have hsaid : SetupSaid hasWorkSelection s :=
    hreachable.invariant ⟨rfl, rfl, hevents⟩ fun _ _ _ hu hstep => setupSaid_step hu hstep
  have hloop : Reachable (loopStep sha256d alloc acc userCfg blockFound) loop s.loop := by
    refine hreachable.simulates Served.loop fun u a v hstep => ?_
    cases serveStep_cases hstep with
    | loop a loop hserving hloop => exact Or.inr ⟨a, hloop⟩
    | _ => exact Or.inl rfl
  exact ⟨hsaid.setUpFirst, connection_of_loop sha256d alloc acc userCfg blockFound hloop⟩

end Setup

def waitingLoop : LoopState ℕ Unit where
  conn := firstConnection
  shutdownRx := { value := false }
  templateRx := { value := none }

theorem served_after_setup_of_miner :
    let hash : Bytes → Bytes32 := fun _ => ByteVec.fill 32 0
    let hasWorkSelection : UInt32 → Bool := fun flags => flags &&& 0b10 != 0
    let step := serveStep hasWorkSelection true hash countingAllocator plainAccounting
      plainUserConfig false
    ∃ s, Reachable step { loop := waitingLoop } s ∧
      decide (s.loop.conn.events ≠ []) = true ∧ SetUpFirst hasWorkSelection s := by
  intro hash hasWorkSelection step
  obtain ⟨s, hreachable, hevents⟩ := exists_reachable_of_runActions step { loop := waitingLoop }
    [.handshakeDone,
      .loop (.frameArrives
        (.message (.openMiningChannel .extended plainOpenRequest) (plainReadings hash))),
      .readFirst (.setup { protocol := .miningProtocol, flags := 0b101 }), .writeReply,
      .loop (.iterate [])]
    (fun s => decide (s.loop.conn.events ≠ [])) (by decide +kernel)
  exact ⟨s, hreachable, hevents, (served_after_setup rfl hreachable).1⟩

end DatumGateway.ConnectionSetup

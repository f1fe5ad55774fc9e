import DatumGateway.ConservedLogs
import DatumGateway.UpstreamLink

/-!
The commands for the pool between the persistent queue and the connections, which
come and go.  The bridge task of a connection moves them into the queue of its
writer; this queue goes with the writer, and the bridge with the connection.
-/

namespace DatumGateway.CommandDelivery

open DatumGateway.ByteString
open DatumGateway.ConservedLogs
open DatumGateway.TransitionSystem
open DatumGateway.UpstreamLink (commandsSize linkQueueSize)

inductive UpstreamCommand where
  | submitShare (body : Bytes)
  | requestCoinbaser (coinbaseValue : UInt64) (prevhashBin : Bytes32)
  | raw (protoCmd : UInt8) (body : Bytes)
  deriving DecidableEq

def UpstreamCommand.share? : UpstreamCommand → Option Bytes
  | .submitShare body => some body
  | _ => none

/-- The bodies of the shares among the commands. -/
def shares (commands : List UpstreamCommand) : List Bytes :=
  commands.filterMap UpstreamCommand.share?

/-- The send loop of a connection, with its queue. -/
structure Writer where
  sending : Option UpstreamCommand := none
  queue : List UpstreamCommand := []
  deriving DecidableEq

def Writer.commands (w : Writer) : List UpstreamCommand :=
  w.sending.toList ++ w.queue

inductive Bridge where
  | receiving
  | sending (command : UpstreamCommand)
  | ended
  deriving DecidableEq

def Bridge.commands : Bridge → List UpstreamCommand
  | .sending command => [command]
  | _ => []

structure Link where
  readerEnded : Bool := false
  /-- There is none, and no queue, once the send loop has returned. -/
  writer : Option Writer := some {}
  bridge : Bridge := .receiving
  written : List UpstreamCommand := []
  deriving DecidableEq

namespace Link

def underWay (l : Link) : List UpstreamCommand :=
  l.writer.elim [] Writer.commands ++ l.bridge.commands

def commands (l : Link) : List UpstreamCommand :=
  l.written ++ l.underWay

end Link

structure DeliveryState where
  /-- All that has been put into the persistent queue. -/
  submitted : List UpstreamCommand := []
  commands : List UpstreamCommand := []
  link : Option Link := none
  /-- What was written on each of the connections that are over. -/
  ended : List (List UpstreamCommand) := []
  deriving DecidableEq

inductive DeliveryAction where
  | submitShare (body : Bytes)
  | connect
  | bridgeRecv
  | bridgeSend
  | requestCoinbaser (coinbaseValue : UInt64) (prevhashBin : Bytes32)
  | writerRecv
  | sendFrame
  | sendFails
  | readerEnds
  | tearDown

def deliveryStep (s : DeliveryState) : DeliveryAction → Option DeliveryState
  | .submitShare body =>
      if s.commands.length < commandsSize then
        some { s with
          submitted := s.submitted ++ [.submitShare body]
          commands := s.commands ++ [.submitShare body] }
      else none
  | .connect =>
      match s.link with
      | some _ => none
      | none => some { s with link := some {} }
  | .bridgeRecv => do
      let link ← s.link
      match link.bridge, s.commands with
      | .receiving, command :: commands =>
          some { s with commands, link := some { link with bridge := .sending command } }
      | _, _ => none
  | .bridgeSend => do
      let link ← s.link
      match link.bridge, link.writer with
      | .sending command, some writer =>
          if writer.queue.length < linkQueueSize then
            let queue := writer.queue ++ [command]
            let writer := { writer with queue }
            some { s with link := some { link with writer := some writer, bridge := .receiving } }
          else none
      -- the queue is gone: the bridge returns, and drops the command
      | .sending _, none => some { s with link := some { link with bridge := .ended } }
      | _, _ => none
  | .requestCoinbaser coinbaseValue prevhashBin => do
      let link ← s.link
      match link.writer with
      | some writer =>
          if writer.queue.length < linkQueueSize then
            let queue := writer.queue ++ [.requestCoinbaser coinbaseValue prevhashBin]
            some { s with link := some { link with writer := some { writer with queue } } }
          else none
      | none => some s
  | .writerRecv => do
      let link ← s.link
      match link.writer with
      | some { sending := none, queue := command :: queue } =>
          let writer := { sending := some command, queue }
          some { s with link := some { link with writer := some writer } }
      | _ => none
  | .sendFrame => do
      let link ← s.link
      match link.writer with
      | some { sending := some command, queue } =>
          some { s with
            link := some
              { link with
                writer := some { sending := none, queue }
                written := link.written ++ [command] } }
      | _ => none
  | .sendFails => do
      let link ← s.link
      match link.writer with
      | some { sending := some _, queue := _ } =>
          some { s with link := some { link with writer := none } }
      | _ => none
  | .readerEnds => do
      let link ← s.link
      some { s with link := some { link with readerEnded := true } }
  -- the stream of events ends when both loops have let go of it
  | .tearDown => do
      let link ← s.link
      match link.readerEnded, link.writer with
      | true, none => some { s with link := none, ended := s.ended ++ [link.written] }
      | _, _ => none

/-- What a step makes of the queues and the connection, with the branch that it takes. -/
inductive DeliveryStep (s : DeliveryState) : DeliveryAction → DeliveryState → Prop
  | submitted (body : Bytes) (hroom : s.commands.length < commandsSize) :
      DeliveryStep s (.submitShare body)
        { s with
          submitted := s.submitted ++ [.submitShare body]
          commands := s.commands ++ [.submitShare body] }
  | connected (hlink : s.link = none) : DeliveryStep s .connect { s with link := some {} }
  | bridgeReceived (link : Link) (hlink : s.link = some link) (hbridge : link.bridge = .receiving)
      (command : UpstreamCommand) (commands : List UpstreamCommand)
      (hcommands : s.commands = command :: commands) :
      DeliveryStep s .bridgeRecv
        { s with commands, link := some { link with bridge := .sending command } }
  | bridgeSent (link : Link) (writer : Writer) (hlink : s.link = some link)
      (hwriter : link.writer = some writer) (command : UpstreamCommand)
      (hbridge : link.bridge = .sending command) (hroom : writer.queue.length < linkQueueSize) :
      DeliveryStep s .bridgeSend
        { s with
          link := some
            { link with
              writer := some { writer with queue := writer.queue ++ [command] }
              bridge := .receiving } }
  | bridgeEnded (link : Link) (hlink : s.link = some link) (hwriter : link.writer = none)
      (command : UpstreamCommand) (hbridge : link.bridge = .sending command) :
      DeliveryStep s .bridgeSend { s with link := some { link with bridge := .ended } }
  | coinbaserQueued (link : Link) (writer : Writer) (hlink : s.link = some link)
      (hwriter : link.writer = some writer) (coinbaseValue : UInt64) (prevhashBin : Bytes32)
      (hroom : writer.queue.length < linkQueueSize) :
      DeliveryStep s (.requestCoinbaser coinbaseValue prevhashBin)
        { s with
          link := some
            { link with
              writer := some
                { writer with
                  queue := writer.queue ++ [.requestCoinbaser coinbaseValue prevhashBin] } } }
  | coinbaserDropped (link : Link) (hlink : s.link = some link) (hwriter : link.writer = none)
      (coinbaseValue : UInt64) (prevhashBin : Bytes32) :
      DeliveryStep s (.requestCoinbaser coinbaseValue prevhashBin) s
  | writerReceived (link : Link) (writer : Writer) (hlink : s.link = some link)
      (hwriter : link.writer = some writer) (command : UpstreamCommand)
      (queue : List UpstreamCommand)
      (hcommand : writer = { sending := none, queue := command :: queue }) :
      DeliveryStep s .writerRecv
        { s with link := some { link with writer := some { sending := some command, queue } } }
  | frameSent (link : Link) (writer : Writer) (hlink : s.link = some link)
      (hwriter : link.writer = some writer) (command : UpstreamCommand)
      (queue : List UpstreamCommand) (hcommand : writer = { sending := some command, queue }) :
      DeliveryStep s .sendFrame
        { s with
          link := some
            { link with
              writer := some { sending := none, queue }
              written := link.written ++ [command] } }
  | sendFailed (link : Link) (writer : Writer) (hlink : s.link = some link)
      (hwriter : link.writer = some writer) :
      DeliveryStep s .sendFails { s with link := some { link with writer := none } }
  | readerEnded (link : Link) (hlink : s.link = some link) :
      DeliveryStep s .readerEnds { s with link := some { link with readerEnded := true } }
  | tornDown (link : Link) (hlink : s.link = some link) (hwriter : link.writer = none) :
      DeliveryStep s .tearDown { s with link := none, ended := s.ended ++ [link.written] }

theorem deliveryStep_cases {s t : DeliveryState} {a : DeliveryAction}
    (hstep : deliveryStep s a = some t) : DeliveryStep s a t := by
  cases a with
  | submitShare body =>
      obtain ⟨hroom, hstep⟩ := Option.ite_none_right_eq_some.mp hstep
      obtain rfl := Option.some.inj hstep
      exact .submitted body hroom
  | connect =>
      simp only [deliveryStep] at hstep
      split at hstep
      · cases hstep
      · rename_i hlink
        obtain rfl := Option.some.inj hstep
        exact .connected hlink
  | bridgeRecv =>
      obtain ⟨link, hlink, hstep⟩ := Option.bind_eq_some_iff.mp hstep
      split at hstep
      · rename_i command commands hbridge hcommands
        obtain rfl := Option.some.inj hstep
        exact .bridgeReceived link hlink hbridge command commands hcommands
      · cases hstep
  | bridgeSend =>
      obtain ⟨link, hlink, hstep⟩ := Option.bind_eq_some_iff.mp hstep
      split at hstep
      · rename_i command writer hbridge hwriter
        obtain ⟨hroom, hstep⟩ := Option.ite_none_right_eq_some.mp hstep
        obtain rfl := Option.some.inj hstep
        exact .bridgeSent link writer hlink hwriter command hbridge hroom
      · rename_i command hbridge hwriter
        obtain rfl := Option.some.inj hstep
        exact .bridgeEnded link hlink hwriter command hbridge
      · cases hstep
  | requestCoinbaser coinbaseValue prevhashBin =>
      obtain ⟨link, hlink, hstep⟩ := Option.bind_eq_some_iff.mp hstep
      split at hstep
      · rename_i writer hwriter
        obtain ⟨hroom, hstep⟩ := Option.ite_none_right_eq_some.mp hstep
        obtain rfl := Option.some.inj hstep
        exact .coinbaserQueued link writer hlink hwriter coinbaseValue prevhashBin hroom
      · rename_i hwriter
        obtain rfl := Option.some.inj hstep
        exact .coinbaserDropped link hlink hwriter coinbaseValue prevhashBin
  | writerRecv =>
      obtain ⟨link, hlink, hstep⟩ := Option.bind_eq_some_iff.mp hstep
      split at hstep
      · rename_i command queue hwriter
        obtain rfl := Option.some.inj hstep
        exact .writerReceived link _ hlink hwriter command queue rfl
      · cases hstep
  | sendFrame =>
      obtain ⟨link, hlink, hstep⟩ := Option.bind_eq_some_iff.mp hstep
      split at hstep
      · rename_i command queue hwriter
        obtain rfl := Option.some.inj hstep
        exact .frameSent link _ hlink hwriter command queue rfl
      · cases hstep
  | sendFails =>
      obtain ⟨link, hlink, hstep⟩ := Option.bind_eq_some_iff.mp hstep
      split at hstep
      · rename_i hwriter
        obtain rfl := Option.some.inj hstep
        exact .sendFailed link _ hlink hwriter
      · cases hstep
  | readerEnds =>
      obtain ⟨link, hlink, hstep⟩ := Option.bind_eq_some_iff.mp hstep
      obtain rfl := Option.some.inj hstep
      exact .readerEnded link hlink
  | tearDown =>
      obtain ⟨link, hlink, hstep⟩ := Option.bind_eq_some_iff.mp hstep
      split at hstep
      · rename_i hwriter
        obtain rfl := Option.some.inj hstep
        exact .tornDown link hlink hwriter
      · cases hstep

namespace DeliveryState

/-- What has been written, on one connection after the other. -/
def written (s : DeliveryState) : List UpstreamCommand :=
  s.ended.flatten ++ s.link.elim [] Link.written

def underWay (s : DeliveryState) : List UpstreamCommand :=
  s.link.elim [] Link.underWay

def submittedShares (s : DeliveryState) : List Bytes :=
  shares s.submitted

/-- The shares that are written, under way on the connection there is, or queued for the next. -/
def keptShares (s : DeliveryState) : List Bytes :=
  shares (s.written ++ s.underWay ++ s.commands)

end DeliveryState

/-- Every share put into the persistent queue is in one of the three places, and once. -/
def SharesDelivered (s : DeliveryState) : Prop :=
  s.keptShares = s.submittedShares

/-- No share is in the hands of a send loop that fails, or of a bridge that gives it up. -/
def keepsShares (s : DeliveryState) : DeliveryAction → Bool
  | .sendFails => (s.link.elim [] fun link => shares (link.writer.elim [] Writer.commands)).isEmpty
  | .bridgeSend =>
      s.link.elim true fun link => link.writer.isSome || (shares link.bridge.commands).isEmpty
  | .tearDown => (s.link.elim [] fun link => shares link.bridge.commands).isEmpty
  | _ => true

@[simp] theorem shares_append (l₁ l₂ : List UpstreamCommand) :
    shares (l₁ ++ l₂) = shares l₁ ++ shares l₂ :=
  List.filterMap_append

@[simp] theorem shares_cons_requestCoinbaser (coinbaseValue : UInt64) (prevhashBin : Bytes32)
    (l : List UpstreamCommand) :
    shares (.requestCoinbaser coinbaseValue prevhashBin :: l) = shares l :=
  rfl

namespace DeliveryState

theorem keptShares_of_link {s : DeliveryState} {link : Link} (hlink : s.link = some link) :
    s.keptShares = shares s.ended.flatten ++ shares link.commands ++ shares s.commands := by
  rw [keptShares, written, underWay, hlink, shares_append, shares_append, shares_append,
    Link.commands, shares_append, List.append_assoc (shares s.ended.flatten)]
  rfl

theorem keptShares_of_no_link {s : DeliveryState} (hlink : s.link = none) :
    s.keptShares = shares s.ended.flatten ++ shares s.commands := by
  rw [keptShares, written, underWay, hlink]
  simp

end DeliveryState

def Conserved : DeliveryState → DeliveryAction → DeliveryState → Prop :=
  ConservesStep DeliveryState.submittedShares DeliveryState.keptShares keepsShares

theorem conserved_of_lost {s t : DeliveryState} {a : DeliveryAction} (front lost back : List Bytes)
    (hsubmitted : t.submitted = s.submitted) (hbefore : s.keptShares = front ++ lost ++ back)
    (hafter : t.keptShares = front ++ back) (hguard : keepsShares s a = lost.isEmpty) :
    Conserved s a t := by
  refine ⟨[], ?_, ?_⟩
  · rw [DeliveryState.submittedShares, hsubmitted, List.append_nil]
    rfl
  · rw [List.append_nil, hguard, List.isEmpty_iff]
    exact sublist_and_eq_iff_of_cut hbefore hafter

theorem conserved_of_kept {s t : DeliveryState} {a : DeliveryAction}
    (hsubmitted : t.submitted = s.submitted) (hkept : t.keptShares = s.keptShares)
    (hguard : keepsShares s a = true) : Conserved s a t := by
  refine conserved_of_lost s.keptShares [] [] hsubmitted ?_ ?_ hguard
  · rw [List.append_nil, List.append_nil]
  · rw [List.append_nil, hkept]

theorem conserved_of_moved {s : DeliveryState} {a : DeliveryAction} {link link' : Link}
    {commands : List UpstreamCommand} (hlink : s.link = some link)
    (hmoved : shares link'.commands ++ shares commands = shares link.commands ++ shares s.commands)
    (hguard : keepsShares s a = true) :
    Conserved s a { s with commands, link := some link' } := by
  refine conserved_of_kept rfl ?_ hguard
  rw [DeliveryState.keptShares_of_link rfl, DeliveryState.keptShares_of_link hlink,
    List.append_assoc, List.append_assoc]
  exact congrArg (shares s.ended.flatten ++ ·) hmoved

theorem conserved_of_dropped {s : DeliveryState} {a : DeliveryAction} {link link' : Link}
    (front lost back : List Bytes) (hlink : s.link = some link)
    (hbefore : shares link.commands = front ++ lost ++ back)
    (hafter : shares link'.commands = front ++ back) (hguard : keepsShares s a = lost.isEmpty) :
    Conserved s a { s with link := some link' } := by
  refine conserved_of_lost (shares s.ended.flatten ++ front) lost (back ++ shares s.commands)
    rfl ?_ ?_ hguard
  · rw [DeliveryState.keptShares_of_link hlink, hbefore]
    simp only [List.append_assoc]
  · rw [DeliveryState.keptShares_of_link rfl, hafter]
    simp only [List.append_assoc]

theorem deliveryStep_conserves :
    Conserves deliveryStep DeliveryState.submittedShares DeliveryState.keptShares keepsShares := by
  intro s a t hstep
  cases deliveryStep_cases hstep with
  | submitted body =>
      refine ⟨[body], shares_append _ _, ?_⟩
      have hkept : DeliveryState.keptShares
          { s with
            submitted := s.submitted ++ [.submitShare body]
            commands := s.commands ++ [.submitShare body] } = s.keptShares ++ [body] := by
        rw [DeliveryState.keptShares, DeliveryState.keptShares, shares_append,
          shares_append _ s.commands, List.append_assoc]
        exact congrArg (_ ++ ·) (shares_append _ _)
      rw [hkept]
      exact ⟨List.Sublist.refl _, iff_of_true rfl rfl⟩
  | connected hlink =>
      refine conserved_of_kept rfl ?_ rfl
      rw [DeliveryState.keptShares_of_link rfl, DeliveryState.keptShares_of_no_link hlink]
      simp [Link.commands, Link.underWay, Bridge.commands, Writer.commands, shares]
  | bridgeReceived link hlink hbridge command commands hcommands =>
      refine conserved_of_moved hlink ?_ rfl
      have hsplit : shares (command :: commands) = shares [command] ++ shares commands :=
        shares_append [command] commands
      rw [hcommands, hsplit]
      simp [Link.commands, Link.underWay, hbridge, Bridge.commands]
  | bridgeSent link writer hlink hwriter command hbridge =>
      refine conserved_of_moved hlink ?_ ?_
      · simp [Link.commands, Link.underWay, hbridge, hwriter, Bridge.commands, Writer.commands]
      · rw [keepsShares, hlink, Option.elim_some, hwriter]
        rfl
  | bridgeEnded link hlink hwriter =>
      refine conserved_of_dropped (shares link.written) (shares link.bridge.commands) [] hlink
        ?_ ?_ ?_
      · simp [Link.commands, Link.underWay, hwriter]
      · simp [Link.commands, Link.underWay, hwriter, Bridge.commands]
      · rw [keepsShares, hlink, Option.elim_some, hwriter]
        rfl
  | coinbaserQueued link writer hlink hwriter =>
      refine conserved_of_moved hlink ?_ rfl
      simp [Link.commands, Link.underWay, hwriter, Writer.commands]
  | coinbaserDropped => exact conserved_of_kept rfl rfl rfl
  | writerReceived link writer hlink hwriter command queue hcommand =>
      refine conserved_of_moved hlink ?_ rfl
      simp [Link.commands, Link.underWay, hwriter, hcommand, Writer.commands]
  | frameSent link writer hlink hwriter command queue hcommand =>
      refine conserved_of_moved hlink ?_ rfl
      simp [Link.commands, Link.underWay, hwriter, hcommand, Writer.commands]
  | sendFailed link writer hlink =>
      refine conserved_of_dropped (shares link.written)
        (shares (link.writer.elim [] Writer.commands)) (shares link.bridge.commands) hlink
        ?_ ?_ ?_
      · simp [Link.commands, Link.underWay]
      · simp [Link.commands, Link.underWay]
      · rw [keepsShares, hlink]
        rfl
  | readerEnded link hlink => exact conserved_of_moved hlink rfl rfl
  | tornDown link hlink hwriter =>
      refine conserved_of_lost (shares s.ended.flatten ++ shares link.written)
        (shares link.bridge.commands) (shares s.commands) rfl ?_ ?_ ?_
      · rw [DeliveryState.keptShares_of_link hlink]
        simp [Link.commands, Link.underWay, hwriter]
      · rw [DeliveryState.keptShares_of_no_link rfl]
        simp
      · rw [keepsShares, hlink]
        rfl

theorem shares_written_sublist {t : DeliveryState} (hreachable : Reachable deliveryStep {} t) :
    (shares t.written).Sublist t.submittedShares := by
  have hkept := deliveryStep_conserves.sublist (List.Sublist.refl _) hreachable
  rw [DeliveryState.keptShares, List.append_assoc, shares_append] at hkept
  exact (List.sublist_append_left _ _).trans hkept

theorem sharesDelivered_iff_of_no_link {s : DeliveryState} (hlink : s.link = none) :
    SharesDelivered s ↔ shares s.written ++ shares s.commands = shares s.submitted := by
  rw [SharesDelivered, DeliveryState.keptShares, DeliveryState.underWay, hlink, Option.elim_none,
    List.append_nil, shares_append]
  rfl

theorem sharesDelivered_iff_runGuarded {actions : List DeliveryAction} {t : DeliveryState}
    (hrun : runActions deliveryStep {} actions = some t) :
    SharesDelivered t ↔ runGuarded deliveryStep keepsShares {} actions = some t :=
  deliveryStep_conserves.runActions_eq_iff rfl hrun

/-- A connection that ends with a coinbaser request loses no share. -/
def quietReconnect : List DeliveryAction :=
  [.submitShare [0x27, 1], .connect, .bridgeRecv, .bridgeSend, .writerRecv, .sendFrame,
    .requestCoinbaser 1 (List.Vector.replicate 32 0), .writerRecv, .sendFails, .readerEnds,
    .tearDown, .submitShare [0x27, 2], .connect, .bridgeRecv, .bridgeSend, .writerRecv, .sendFrame]

theorem sharesDelivered_of_quietReconnect :
    ∃ t, runActions deliveryStep {} quietReconnect = some t ∧
      t.written = [.submitShare [0x27, 1], .submitShare [0x27, 2]] ∧ SharesDelivered t := by
  have hrun : runActions deliveryStep {} quietReconnect = some
      { submitted := [.submitShare [0x27, 1], .submitShare [0x27, 2]]
        ended := [[.submitShare [0x27, 1]]]
        link := some { written := [.submitShare [0x27, 2]] } } := rfl
  exact ⟨_, hrun, rfl, (sharesDelivered_iff_runGuarded hrun).mpr rfl⟩

/-- The write of the first share fails, with the second in the queue behind it and the third held
by the bridge. -/
def failedWrite : List DeliveryAction :=
  [.submitShare [0x27, 1], .submitShare [0x27, 2], .submitShare [0x27, 3], .connect,
    .bridgeRecv, .bridgeSend, .bridgeRecv, .bridgeSend, .writerRecv, .bridgeRecv,
    .sendFails, .bridgeSend, .readerEnds, .tearDown]

theorem shares_lost_in_failedWrite :
    ∃ t, Reachable deliveryStep {} t ∧ ¬ SharesDelivered t ∧
      t.submitted = [.submitShare [0x27, 1], .submitShare [0x27, 2], .submitShare [0x27, 3]] ∧
      t.written = [] ∧ t.commands = [] ∧ t.link = none := by
  obtain ⟨t, hreachable, ht⟩ := exists_reachable_of_runActions deliveryStep {} failedWrite
    (fun t => decide (t = { submitted :=
      [.submitShare [0x27, 1], .submitShare [0x27, 2], .submitShare [0x27, 3]], ended := [[]] }))
    rfl
  obtain rfl := of_decide_eq_true ht
  refine ⟨_, hreachable, ?_, rfl, rfl, rfl, rfl⟩
  rw [sharesDelivered_iff_of_no_link rfl]
  decide

/-! The end of the receive task. -/

/-- The caller sees the stream of events end: the receive task has ended and `run`, which holds the
stream open as well, has returned. -/
def Link.eventsClosed (l : Link) : Bool :=
  l.readerEnded && l.writer.isNone

/-- From now on, as long as the connection is not torn down, nothing is written to it and its
stream of events is closed. -/
def LossObserved (t : DeliveryState) (link : Link) : Prop :=
  ∀ u, Reachable deliveryStep t u → u.ended.length = t.ended.length →
    ∀ l, u.link = some l → l.written = link.written ∧ l.eventsClosed = true

/-- The connection is over for both loops, and what was written to it is settled. -/
def Settled (connection : ℕ) (written : List UpstreamCommand) (s : DeliveryState) : Prop :=
  connection ≤ s.ended.length ∧ (s.ended.length = connection →
    ∃ l, s.link = some l ∧ l.written = written ∧ l.readerEnded = true ∧ l.writer = none)

theorem Settled.of_link {connection : ℕ} {written : List UpstreamCommand} {s t : DeliveryState}
    (hsettled : Settled connection written s) (hended : t.ended = s.ended)
    (hlink : ∀ l, s.link = some l → l.readerEnded = true → l.writer = none →
      ∃ l', t.link = some l' ∧ l'.written = l.written ∧ l'.readerEnded = true ∧ l'.writer = none) :
    Settled connection written t := by
  rw [Settled, hended]
  refine ⟨hsettled.1, fun hconnection => ?_⟩
  obtain ⟨l, hl, rfl, hreader, hwriter⟩ := hsettled.2 hconnection
  exact hlink l hl hreader hwriter

theorem Settled.of_writer {connection : ℕ} {written : List UpstreamCommand} {s t : DeliveryState}
    {link : Link} {writer : Writer} (hsettled : Settled connection written s)
    (hlink : s.link = some link) (hwriter : link.writer = some writer)
    (hended : t.ended = s.ended) : Settled connection written t := by
  refine hsettled.of_link hended fun l hl _ hnone => ?_
  obtain rfl := Option.some.inj (hlink.symm.trans hl)
  rw [hnone] at hwriter
  cases hwriter

theorem Settled.step {connection : ℕ} {written : List UpstreamCommand} {s t : DeliveryState}
    {a : DeliveryAction} (hsettled : Settled connection written s)
    (hstep : deliveryStep s a = some t) : Settled connection written t := by
  cases deliveryStep_cases hstep with
  | submitted | coinbaserDropped => exact hsettled
  | connected hlink =>
      refine hsettled.of_link rfl fun l hl => ?_
      rw [hlink] at hl
      cases hl
  | bridgeReceived link hlink | bridgeEnded link hlink =>
      refine hsettled.of_link rfl fun l hl hreader hwriter => ?_
      obtain rfl := Option.some.inj (hlink.symm.trans hl)
      exact ⟨_, rfl, rfl, hreader, hwriter⟩
  | bridgeSent link writer hlink hwriter | coinbaserQueued link writer hlink hwriter
  | writerReceived link writer hlink hwriter | frameSent link writer hlink hwriter
  | sendFailed link writer hlink hwriter => exact hsettled.of_writer hlink hwriter rfl
  | readerEnded link hlink =>
      refine hsettled.of_link rfl fun l hl hreader hwriter => ?_
      obtain rfl := Option.some.inj (hlink.symm.trans hl)
      exact ⟨_, rfl, rfl, rfl, hwriter⟩
  | tornDown link =>
      have hlength : (s.ended ++ [link.written]).length = s.ended.length + 1 := List.length_append
      refine ⟨?_, fun hconnection => ?_⟩
      · rw [hlength]
        exact Nat.le_succ_of_le hsettled.1
      · rw [hlength] at hconnection
        have hle := hsettled.1
        omega

theorem exists_written_of_writer {s : DeliveryState} {link : Link} {writer : Writer}
    (hlink : s.link = some link) (hwriter : link.writer = some writer) :
    ∃ u l, Reachable deliveryStep s u ∧ u.ended = s.ended ∧ u.link = some l ∧
      l.written ≠ link.written := by
  obtain ⟨readerEnded, _, bridge, written⟩ := link
  obtain rfl : _ = some writer := hwriter
  obtain ⟨submitted, commands, _, ended⟩ := s
  obtain rfl : _ = some _ := hlink
  obtain ⟨sending, queue⟩ := writer
  have hgrown : ∀ command, written ++ [command] ≠ written := by
    intro command hsame
    simp at hsame
  cases sending with
  | some command =>
      exact ⟨_, _, reachable_of_runActions [.sendFrame] rfl, rfl, rfl, hgrown command⟩
  | none =>
      cases queue with
      | cons command queue =>
          exact ⟨_, _, reachable_of_runActions [.writerRecv, .sendFrame] rfl, rfl, rfl,
            hgrown command⟩
      | nil =>
          let prevhashBin : Bytes32 := List.Vector.replicate 32 0
          exact ⟨_, _, reachable_of_runActions
            [.requestCoinbaser 0 prevhashBin, .writerRecv, .sendFrame] rfl, rfl, rfl,
            hgrown (.requestCoinbaser 0 prevhashBin)⟩

/-- When the receive task of a connection ends, the connection is left alone and the caller hears
of it exactly if the send loop has returned before. -/
theorem lossObserved_iff {s t : DeliveryState} {link : Link} (hlink : s.link = some link)
    (hstep : deliveryStep s .readerEnds = some t) : LossObserved t link ↔ link.writer = none := by
  have hread : t = { s with link := some { link with readerEnded := true } } := by
    simpa [deliveryStep, hlink] using hstep.symm
  constructor
  · intro hobserved
    by_contra hwriter
    obtain ⟨writer, hwriter⟩ := Option.ne_none_iff_exists'.mp hwriter
    have hlink' : t.link = some { link with readerEnded := true } := by
      rw [hread]
    obtain ⟨u, l, hreachable, hended, hl, hwritten⟩ := exists_written_of_writer hlink' hwriter
    exact hwritten (hobserved u hreachable (by rw [hended]) l hl).1
  · intro hwriter u hreachable hconnection l hl
    have hstart : Settled t.ended.length link.written t := by
      refine ⟨le_rfl, fun _ => ⟨_, congrArg DeliveryState.link hread, rfl, rfl, hwriter⟩⟩
    have hsettled : Settled t.ended.length link.written u :=
      hreachable.invariant hstart fun _ _ _ hsettled hstep => hsettled.step hstep
    obtain ⟨l', hl', hwritten, hreader, hnone⟩ := hsettled.2 hconnection
    obtain rfl := Option.some.inj (hl.symm.trans hl')
    refine ⟨hwritten, ?_⟩
    rw [Link.eventsClosed, hreader, hnone]
    rfl

theorem lossObserved_of_failedWrite :
    ∃ s t link, Reachable deliveryStep {} s ∧ s.link = some link ∧
      deliveryStep s .readerEnds = some t ∧ LossObserved t link := by
  have hrun : runActions deliveryStep {} [.connect, .submitShare [0x27], .bridgeRecv, .bridgeSend,
      .writerRecv, .sendFails] = some
        { submitted := [.submitShare [0x27]], link := some { writer := none } } := rfl
  have hended : deliveryStep
      { submitted := [.submitShare [0x27]], link := some { writer := none } } .readerEnds = some
        { submitted := [.submitShare [0x27]]
          link := some { readerEnded := true, writer := none } } := rfl
  exact ⟨_, _, _, reachable_of_runActions _ hrun, rfl, hended,
    (lossObserved_iff rfl hended).mpr rfl⟩

/-- The receive task ends with a share in the queue; the share is written to the connection, and
the caller has not heard of the end. -/
theorem share_written_after_loss :
    ∃ s t u link, Reachable deliveryStep {} s ∧ s.link = some link ∧
      deliveryStep s .readerEnds = some t ∧ Reachable deliveryStep t u ∧
      u.link.any (fun l => l.written = link.written ++ [.submitShare [0x27]] &&
        !l.eventsClosed) = true ∧ ¬ LossObserved t link := by
  have hrun : runActions deliveryStep {} [.connect, .submitShare [0x27], .bridgeRecv, .bridgeSend] =
      some
        { submitted := [.submitShare [0x27]]
          link := some { writer := some { queue := [.submitShare [0x27]] } } } := rfl
  have hwrites : runActions deliveryStep
      { submitted := [.submitShare [0x27]]
        link := some
          { readerEnded := true, writer := some { queue := [.submitShare [0x27]] } } }
      [.writerRecv, .sendFrame] = some
        { submitted := [.submitShare [0x27]]
          link := some { readerEnded := true, written := [.submitShare [0x27]] } } := rfl
  have hreachable := reachable_of_runActions _ hwrites
  refine ⟨_, _, _, _, reachable_of_runActions _ hrun, rfl, rfl, hreachable, rfl, ?_⟩
  intro hobserved
  exact absurd (hobserved _ hreachable rfl _ rfl).1 (by decide)

end DatumGateway.CommandDelivery

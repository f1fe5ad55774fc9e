import DatumGateway.AuthenticatedEvents
import DatumGateway.CommandDelivery
import DatumGateway.TemplatePublisher

/-!
The task that keeps a connection to the pool up: what it makes of the events of each
connection, and when it asks the pool for a coinbaser.
-/

namespace DatumGateway.UpstreamSession

open DatumGateway.AuthenticatedEvents
open DatumGateway.BlockTemplate
open DatumGateway.ByteString
open DatumGateway.Coinbaser
open DatumGateway.CommandDelivery (UpstreamCommand)
open DatumGateway.TemplatePublisher
open DatumGateway.TransitionSystem
open DatumGateway.UpstreamMessages

/-- The command to fetch a coinbaser for the template; none if its hash cannot be read. -/
def coinbaserRequest (template : Template) : Option UpstreamCommand :=
  match Hex.decode template.previousBlockHash with
  | none => none
  | some prevhashBe =>
      if hlength : prevhashBe.length = 32 then
        some (.requestCoinbaser template.coinbaseValue
          ⟨prevhashBe.reverse, prevhashBe.length_reverse.trans hlength⟩)
      else none

/-- Where the event loop stands; other tasks run wherever it waits. -/
inductive LoopPhase where
  | selecting
  /-- About to look at the template, for a client configuration or for a new template. -/
  | asking (fromConfig : Bool)
  | requesting (command : UpstreamCommand) (fromConfig : Bool)
  /-- A client configuration has been handled; about to look whether there is a template. -/
  | checking
  deriving DecidableEq

/-- What lasts as long as a connection, with the events that came from it and the commands that
the event loop has put into its queue. -/
structure Session where
  clientConfigSeen : Bool := false
  coinbaserRequested : Bool := false
  templateUnseen : Bool
  phase : LoopPhase := .selecting
  events : List UpstreamEvent := []
  commands : List UpstreamCommand := []

/-- The task, with the templates that have been on its channel; the last is the current one.  No
channel is as one that no template comes through. -/
structure UpstreamTask where
  templates : List Template := []
  coinbaser : Option CoinbaserBlob := none
  poolMinDiff : UInt64 := 0
  poolCoinbaseTag : Option Bytes := none
  sharesAccepted : UInt64 := 0
  sharesRejected : UInt64 := 0
  session : Option Session := none
  ended : List Session := []

inductive UpstreamAction where
  | template (template : Template)
  | connected
  | templateChanged
  | event (event : UpstreamEvent)
  | ask
  | sent
  /-- Nobody receives the commands any more. -/
  | sendFailed
  | check
  | streamClosed

/-- The event loop goes on after it has asked for a coinbaser, or could not. -/
def Session.asked (c : Session) (fromConfig : Bool) : Session :=
  if fromConfig then { c with phase := .checking }
  else { c with phase := .selecting, coinbaserRequested := true }

def Session.receive (c : Session) (e : UpstreamEvent) : Session :=
  { c with events := c.events ++ [e] }

def Session.receiveConfig (c : Session) (config : ClientConfig) : Session :=
  { c.receive (.clientConfig config) with
    clientConfigSeen := true
    phase := if c.coinbaserRequested then .selecting else .asking true }

def handleEvent (s : UpstreamTask) (c : Session) : UpstreamEvent → UpstreamTask
  | .coinbaser response =>
      match parseV2Blob response.v2Blob response.coinbaseValue with
      | .ok blob =>
          { s with coinbaser := some blob, session := some (c.receive (.coinbaser response)) }
      | .error _ => { s with session := some (c.receive (.coinbaser response)) }
  | .clientConfig config =>
      { s with
        poolMinDiff := config.vardiffMin
        poolCoinbaseTag := some (poolTagOverride config.poolCoinbaseTag)
        session := some (c.receiveConfig config) }
  | .shareResponse response =>
      match response.status with
      | .accepted | .acceptedTentatively =>
          { s with
            sharesAccepted := s.sharesAccepted + 1
            session := some (c.receive (.shareResponse response)) }
      | .rejected =>
          { s with
            sharesRejected := s.sharesRejected + 1
            session := some (c.receive (.shareResponse response)) }
  | e => { s with session := some (c.receive e) }

def upstreamStep (s : UpstreamTask) : UpstreamAction → Option UpstreamTask
  | .template template =>
      some { s with
        templates := s.templates ++ [template]
        session := s.session.map fun c => { c with templateUnseen := true } }
  | .connected =>
      match s.session with
      -- a clone of a receiver that has seen no template yet
      | none => some { s with session := some { templateUnseen := !s.templates.isEmpty } }
      | some _ => none
  | .templateChanged => do
      let c ← s.session
      match c.phase with
      | .selecting =>
          if c.templateUnseen then
            some { s with
              session := some { c with
                templateUnseen := false
                phase :=
                  if c.clientConfigSeen && !c.coinbaserRequested then .asking false
                  else .selecting } }
          else none
      | _ => none
  | .event e => do
      let c ← s.session
      match c.phase with
      | .selecting => some (handleEvent s c e)
      | _ => none
  | .ask => do
      let c ← s.session
      match c.phase with
      | .asking fromConfig =>
          match s.templates.getLast?.bind coinbaserRequest with
          | some command =>
              some { s with session := some { c with phase := .requesting command fromConfig } }
          | none => some { s with session := some (c.asked fromConfig) }
      | _ => none
  | .sent => do
      let c ← s.session
      match c.phase with
      | .requesting command fromConfig =>
          some { s with
            session := some ({ c with commands := c.commands ++ [command] }.asked fromConfig) }
      | _ => none
  | .sendFailed => do
      let c ← s.session
      match c.phase with
      | .requesting _ fromConfig => some { s with session := some (c.asked fromConfig) }
      | _ => none
  | .check => do
      let c ← s.session
      match c.phase with
      | .checking =>
          some { s with
            session := some { c with
              phase := .selecting
              coinbaserRequested := !s.templates.isEmpty } }
      | _ => none
  | .streamClosed => do
      let c ← s.session
      match c.phase with
      | .selecting =>
          some { s with session := none, ended := s.ended ++ [c], poolCoinbaseTag := none }
      | _ => none

/-- What an action does, and when it can happen. -/
inductive UpstreamStep (s : UpstreamTask) : UpstreamAction → UpstreamTask → Prop
  | template (template : Template) :
      UpstreamStep s (.template template)
        { s with
          templates := s.templates ++ [template]
          session := s.session.map fun c => { c with templateUnseen := true } }
  | connected (hnone : s.session = none) :
      UpstreamStep s .connected
        { s with session := some { templateUnseen := !s.templates.isEmpty } }
  | templateChanged (c : Session) (hsession : s.session = some c) (hphase : c.phase = .selecting)
      (hunseen : c.templateUnseen = true) :
      UpstreamStep s .templateChanged
        { s with
          session := some { c with
            templateUnseen := false
            phase :=
              if c.clientConfigSeen && !c.coinbaserRequested then .asking false
              else .selecting } }
  | event (c : Session) (e : UpstreamEvent) (hsession : s.session = some c)
      (hphase : c.phase = .selecting) : UpstreamStep s (.event e) (handleEvent s c e)
  | ask (c : Session) (fromConfig : Bool) (template : Template) (command : UpstreamCommand)
      (hsession : s.session = some c) (hphase : c.phase = .asking fromConfig)
      (hlast : s.templates.getLast? = some template)
      (hrequest : coinbaserRequest template = some command) :
      UpstreamStep s .ask
        { s with session := some { c with phase := .requesting command fromConfig } }
  | askNothing (c : Session) (fromConfig : Bool) (hsession : s.session = some c)
      (hphase : c.phase = .asking fromConfig)
      (hnone : ∀ template, s.templates.getLast? = some template →
        coinbaserRequest template = none) :
      UpstreamStep s .ask { s with session := some (c.asked fromConfig) }
  | sent (c : Session) (command : UpstreamCommand) (fromConfig : Bool)
      (hsession : s.session = some c) (hphase : c.phase = .requesting command fromConfig) :
      UpstreamStep s .sent
        { s with
          session := some ({ c with commands := c.commands ++ [command] }.asked fromConfig) }
  | sendFailed (c : Session) (command : UpstreamCommand) (fromConfig : Bool)
      (hsession : s.session = some c) (hphase : c.phase = .requesting command fromConfig) :
      UpstreamStep s .sendFailed { s with session := some (c.asked fromConfig) }
  | check (c : Session) (hsession : s.session = some c) (hphase : c.phase = .checking) :
      UpstreamStep s .check
        { s with
          session := some { c with
            phase := .selecting
            coinbaserRequested := !s.templates.isEmpty } }
  | streamClosed (c : Session) (hsession : s.session = some c) (hphase : c.phase = .selecting) :
      UpstreamStep s .streamClosed
        { s with session := none, ended := s.ended ++ [c], poolCoinbaseTag := none }

theorem upstreamStep_cases {s t : UpstreamTask} {a : UpstreamAction}
    (hstep : upstreamStep s a = some t) : UpstreamStep s a t := by
  cases a with
  | template template =>
      obtain rfl := Option.some.inj hstep
      exact .template template
  | connected =>
      simp only [upstreamStep] at hstep
      split at hstep
      · rename_i hnone
        obtain rfl := Option.some.inj hstep
        exact .connected hnone
      · cases hstep
  | templateChanged =>
      obtain ⟨c, hsession, hstep⟩ := Option.bind_eq_some_iff.mp hstep
      split at hstep
      · rename_i hphase
        obtain ⟨hunseen, hstep⟩ := Option.ite_none_right_eq_some.mp hstep
        obtain rfl := Option.some.inj hstep
        exact .templateChanged c hsession hphase hunseen
      · cases hstep
  | event e =>
      obtain ⟨c, hsession, hstep⟩ := Option.bind_eq_some_iff.mp hstep
      split at hstep
      · rename_i hphase
        obtain rfl := Option.some.inj hstep
        exact .event c e hsession hphase
      · cases hstep
  | ask =>
      obtain ⟨c, hsession, hstep⟩ := Option.bind_eq_some_iff.mp hstep
      split at hstep
      · rename_i fromConfig hphase
        split at hstep <;> rename_i hrequest <;> obtain rfl := Option.some.inj hstep
        · obtain ⟨template, hlast, hrequest⟩ := Option.bind_eq_some_iff.mp hrequest
          exact .ask c fromConfig template _ hsession hphase hlast hrequest
        · refine .askNothing c fromConfig hsession hphase ?_
          intro template hlast
          rw [hlast] at hrequest
          exact hrequest
      · cases hstep
  | sent =>
      obtain ⟨c, hsession, hstep⟩ := Option.bind_eq_some_iff.mp hstep
      split at hstep
      · rename_i command fromConfig hphase
        obtain rfl := Option.some.inj hstep
        exact .sent c command fromConfig hsession hphase
      · cases hstep
  | sendFailed =>
      obtain ⟨c, hsession, hstep⟩ := Option.bind_eq_some_iff.mp hstep
      split at hstep
      · rename_i command fromConfig hphase
        obtain rfl := Option.some.inj hstep
        exact .sendFailed c command fromConfig hsession hphase
      · cases hstep
  | check =>
      obtain ⟨c, hsession, hstep⟩ := Option.bind_eq_some_iff.mp hstep
      split at hstep
      · rename_i hphase
        obtain rfl := Option.some.inj hstep
        exact .check c hsession hphase
      · cases hstep
  | streamClosed =>
      obtain ⟨c, hsession, hstep⟩ := Option.bind_eq_some_iff.mp hstep
      split at hstep
      · rename_i hphase
        obtain rfl := Option.some.inj hstep
        exact .streamClosed c hsession hphase
      · cases hstep

end DatumGateway.UpstreamSession

import DatumGateway.JsonValues
import DatumGateway.StratumV1Messages

namespace DatumGateway.MinerDialogues

open DatumGateway.ByteString
open DatumGateway.JsonValues
open DatumGateway.NotifyPatches (Value)
open DatumGateway.ShareEncoder
open DatumGateway.StratumV1Assembler
open DatumGateway.StratumV1Connection
open DatumGateway.StratumV1Messages
open DatumGateway.StratumV1Server
open DatumGateway.TransitionSystem

structure StratumRequest where
  id : Value
  method : String
  params : Value

structure StratumResponse where
  id : Value
  result : Value
  error : Value

namespace StratumResponse

def ok (id result : Value) : StratumResponse where
  id
  result
  error := .null

def err (id : Value) (code : ℤ) (message : String) : StratumResponse where
  id
  result := .null
  error := .array [.number (toString code), .string message, .null]

end StratumResponse

/-- The fields of an object as they stand in the line; in an array they stand in this order. -/
def parseRequest : Value → Option StratumRequest
  | .object fields =>
      match uniqueField fields "id", uniqueField fields "method", uniqueField fields "params" with
      | some (some id), some (some (.string method)), some params =>
          some { id, method, params := params.getD .null }
      | _, _, _ => none
  | .array [id, .string method] => some { id, method, params := .null }
  | .array [id, .string method, params] => some { id, method, params }
  | _ => none

inductive Method where
  | configure
  | subscribe
  | authorize
  | submit
  | suggestDifficulty
  | other (name : String)
  deriving DecidableEq

def Method.ofName (name : String) : Method :=
  if name = "mining.configure" then .configure
  else if name = "mining.subscribe" then .subscribe
  else if name = "mining.authorize" then .authorize
  else if name = "mining.submit" then .submit
  else if name = "mining.suggest_difficulty" then .suggestDifficulty
  else .other name

def param (params : Value) (i : ℕ) : Option Value :=
  (asArray params).bind fun values => values[i]?

/-- The extensions that a `mining.configure` names, each with its text if it is a string. -/
def extensionNames (params : Value) : Option (List (Option String)) :=
  ((param params 0).bind asArray).map fun names => names.map asStr

def requestedMask (params : Value) : Option String :=
  (((param params 1).bind asObject).bind fun opts => field opts "version-rolling.mask").bind asStr

/-- The fields are sorted by their names. -/
def configureResult (names : List (Option String)) (mask : Option UInt32) : Value :=
  let acked (name : String) : List (String × Value) :=
    if names.any (· == some name) then [(name, .bool true)] else []
  .object (acked "minimum-difficulty" ++ acked "subscribe-extranonce" ++
    mask.elim [] fun mask =>
      [("version-rolling", .bool true), ("version-rolling.mask", .string (hexWord mask))])

def subscribeResult (clientId xn1 : UInt32) : Value :=
  .array
    [.array
      [.array [.string "mining.set_difficulty", .string "1"],
        .array [.string "mining.notify", .string (hexWord clientId)]],
      .string (hexWord xn1), .number "8"]

def parseError : StratumResponse :=
  .err .null (-32700) "Parse error"

def respond (clientId : UInt32) (conn : MinerConnection) (r : StratumRequest) : StratumResponse :=
  match Method.ofName r.method with
  | .configure =>
      match extensionNames r.params with
      | none => .err r.id 20 "Malformed mining.configure params"
      | some names =>
          .ok r.id (configureResult names (negotiatedMask names (requestedMask r.params)))
  | .subscribe => .ok r.id (subscribeResult clientId conn.xn1)
  | .authorize => .ok r.id (.bool true)
  | .submit =>
      match submit conn (((asArray r.params).getD []).map asStr) with
      | .error e => .err r.id e.code e.message
      | .ok _ => .ok r.id (.bool true)
  | .suggestDifficulty => .ok r.id (.bool true)
  | .other name => .err r.id 20 ("Unknown method: " ++ name)

/-- What the request does to the connection. -/
def requestAction (r : StratumRequest) : Option ConnectionAction :=
  match Method.ofName r.method with
  | .configure =>
      (extensionNames r.params).map fun names => .configure names (requestedMask r.params)
  | .subscribe => some .subscribe
  | .authorize => some (.authorize ((param r.params 0).bind asStr))
  | .submit => some (.submit (((asArray r.params).getD []).map asStr))
  | .suggestDifficulty => none
  | .other _ => none

inductive Written where
  | response (response : StratumResponse)
  | setVersionMask (mask : UInt32)
  | push (message : ServerMessage)

def Written.response? : Written → Option StratumResponse
  | .response r => some r
  | _ => none

def Written.mask? : Written → Option UInt32
  | .setVersionMask mask => some mask
  | _ => none

def Written.push? : Written → Option ServerMessage
  | .push message => some message
  | _ => none

/-- A line without its line end; the text is not needed if it is no JSON. -/
inductive Line where
  | blank
  | notJson
  | json (v : Value)

/-- `asked` are the lines that were not blank, with the request if it is one, and `enqueued` the
shares that have been put into the queue of the relay. -/
structure Dialogue where
  clientId : UInt32
  link : MinerLink
  asked : List (Option StratumRequest) := []
  written : List Written := []
  enqueued : List SubmittedShare := []

inductive DialogueAction where
  | line (line : Line)
  /-- All but the lines of the miner: the channels, the timer and the relay. -/
  | other (a : ConnectionAction)

def isRequest : ConnectionAction → Bool
  | .configure _ _ => true
  | .subscribe => true
  | .authorize _ => true
  | .submit _ => true
  | _ => false

/-- The mask that the miner is told after the response. -/
def maskTold : ConnectionAction → List Written
  | .configure names requestedMask =>
      (negotiatedMask names requestedMask).toList.map .setVersionMask
  | _ => []

def sharesOf (conn : MinerConnection) : ConnectionAction → List SubmittedShare
  | .submit params => (submit conn params).toOption.toList
  | _ => []

section Steps

variable (sha256d : Bytes → Bytes32) (userCfg : ShareUserConfig)

/-- The line is answered, and what it does is done, before another is read. -/
def answer (d : Dialogue) (r : StratumRequest) : Option Dialogue :=
  let response := respond d.clientId d.link.state.conn r
  match requestAction r with
  | none =>
      some { d with
        asked := d.asked ++ [some r]
        written := d.written ++ [.response response] }
  | some a =>
      (linkStep sha256d userCfg d.link a).map fun link =>
        { d with
          link
          asked := d.asked ++ [some r]
          written := d.written ++
            .response response :: (maskTold a ++ (messages d.link.state a).map .push)
          enqueued := d.enqueued ++ sharesOf d.link.state.conn a }

def refuseLine (d : Dialogue) : Dialogue :=
  { d with asked := d.asked ++ [none], written := d.written ++ [.response parseError] }

def dialogueStep (d : Dialogue) : DialogueAction → Option Dialogue
  | .line .blank => some d
  | .line .notJson => some (refuseLine d)
  | .line (.json v) =>
      match parseRequest v with
      | none => some (refuseLine d)
      | some r => answer sha256d userCfg d r
  | .other a =>
      if isRequest a then none
      else
        (linkStep sha256d userCfg d.link a).map fun link =>
          { d with link, written := d.written ++ (messages d.link.state a).map .push }

/-- What a step does to the dialogue, and to the connection under it. -/
inductive DialogueStep (d : Dialogue) : DialogueAction → Dialogue → Prop
  | blank : DialogueStep d (.line .blank) d
  | refused (line : Line) : DialogueStep d (.line line) (refuseLine d)
  | answered (v : Value) (r : StratumRequest) (hparse : parseRequest v = some r)
      (hnone : requestAction r = none) :
      DialogueStep d (.line (.json v))
        { d with
          asked := d.asked ++ [some r]
          written := d.written ++ [.response (respond d.clientId d.link.state.conn r)] }
  | done (v : Value) (r : StratumRequest) (a : ConnectionAction) (link : MinerLink)
      (hparse : parseRequest v = some r) (haction : requestAction r = some a)
      (hlink : linkStep sha256d userCfg d.link a = some link) :
      DialogueStep d (.line (.json v))
        { d with
          link
          asked := d.asked ++ [some r]
          written := d.written ++
            .response (respond d.clientId d.link.state.conn r) ::
              (maskTold a ++ (messages d.link.state a).map .push)
          enqueued := d.enqueued ++ sharesOf d.link.state.conn a }
  | other (a : ConnectionAction) (link : MinerLink) (hother : isRequest a = false)
      (hlink : linkStep sha256d userCfg d.link a = some link) :
      DialogueStep d (.other a)
        { d with link, written := d.written ++ (messages d.link.state a).map .push }

variable {sha256d userCfg}

theorem dialogueStep_cases {d t : Dialogue} {a : DialogueAction}
    (hstep : dialogueStep sha256d userCfg d a = some t) :
    DialogueStep sha256d userCfg d a t := by
  cases a with
  | line line =>
      cases line with
      | blank =>
          obtain rfl := Option.some.inj hstep
          exact .blank
      | notJson =>
          obtain rfl := Option.some.inj hstep
          exact .refused .notJson
      | json v =>
          simp only [dialogueStep] at hstep
          split at hstep
          · obtain rfl := Option.some.inj hstep
            exact .refused (.json v)
          · rename_i r hparse
            simp only [answer] at hstep
            split at hstep
            · rename_i hnone
              obtain rfl := Option.some.inj hstep
              exact .answered v r hparse hnone
            · rename_i a haction
              obtain ⟨link, hlink, rfl⟩ := Option.map_eq_some_iff.mp hstep
              exact .done v r a link hparse haction hlink
  | other a =>
      simp only [dialogueStep] at hstep
      split_ifs at hstep with hother
      obtain ⟨link, hlink, rfl⟩ := Option.map_eq_some_iff.mp hstep
      exact .other a link (Bool.eq_false_of_not_eq_true hother) hlink

end Steps

end DatumGateway.MinerDialogues

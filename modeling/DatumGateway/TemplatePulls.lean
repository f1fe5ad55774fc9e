import DatumGateway.JsonValues
import DatumGateway.KeyedMaps
import DatumGateway.RpcResponses
import DatumGateway.TransitionSystem
import DatumGateway.WatchViews

namespace DatumGateway.TemplatePulls

open DatumGateway.BlockTemplate
open DatumGateway.JsonValues
open DatumGateway.KeyedMaps
open DatumGateway.NotifyPatches (Value)
open DatumGateway.RpcResponses
open DatumGateway.TransitionSystem
open DatumGateway.WatchViews

/-! Templates in JSON. -/

/-- The fields of a structure, which an array lists in the order of their names. -/
def structFields (names : List String) : Value → Option (List (String × Value))
  | .object fields => some fields
  | .array values => if values.length ≤ names.length then some (names.zip values) else none
  | _ => none

def required {α : Type} (fields : List (String × Value)) (name : String)
    (read : Value → Option α) : Option α :=
  (field fields name).bind read

/-- A field with a default, which stands for a missing field only. -/
def defaulted {α : Type} (fields : List (String × Value)) (name : String) (default : α)
    (read : Value → Option α) : Option α :=
  match field fields name with
  | none => some default
  | some value => read value

def nullable {α : Type} (read : Value → Option α) : Value → Option (Option α)
  | .null => some none
  | value => (read value).map some

def listOf {α : Type} (read : Value → Option α) (value : Value) : Option (List α) :=
  (asArray value).bind fun values => values.mapM read

def transactionFields : List String :=
  ["data", "txid", "hash", "fee", "sigops", "weight", "depends"]

def transactionFromValue (value : Value) : Option TemplateTransaction := do
  let fields ← structFields transactionFields value
  let data ← required fields "data" asStr
  let txid ← required fields "txid" asStr
  let _ ← required fields "hash" asStr
  let _ ← defaulted fields "fee" 0 asI64
  let sigops ← defaulted fields "sigops" 0 (asUnsigned 32)
  let weight ← defaulted fields "weight" 0 (asUnsigned 32)
  let _ ← defaulted fields "depends" [] (listOf (asUnsigned 32))
  return { data, txid, sigops := UInt32.ofNat sigops, weight := UInt32.ofNat weight }

/-- A template with the id to wait on for a newer one. -/
structure FetchedTemplate where
  template : Template
  longPollId : Option String

def templateFields : List String :=
  ["version", "previousblockhash", "bits", "height", "coinbasevalue", "curtime", "mintime",
    "sizelimit", "weightlimit", "sigoplimit", "default_witness_commitment", "transactions",
    "longpollid", "target"]

def templateFromValue (value : Value) : Option FetchedTemplate := do
  let fields ← structFields templateFields value
  let version ← required fields "version" (asUnsigned 32)
  let previousBlockHash ← required fields "previousblockhash" asStr
  let bits ← required fields "bits" asStr
  let height ← required fields "height" (asUnsigned 32)
  let coinbaseValue ← required fields "coinbasevalue" (asUnsigned 64)
  let curtime ← required fields "curtime" (asUnsigned 64)
  let _ ← required fields "mintime" (asUnsigned 64)
  let _ ← required fields "sizelimit" (asUnsigned 64)
  let _ ← required fields "weightlimit" (asUnsigned 64)
  let _ ← required fields "sigoplimit" (asUnsigned 32)
  let defaultWitnessCommitment ←
    defaulted fields "default_witness_commitment" none (nullable asStr)
  let transactions ← defaulted fields "transactions" [] (listOf transactionFromValue)
  let longPollId ← defaulted fields "longpollid" none (nullable asStr)
  let target ← defaulted fields "target" none (nullable asStr)
  return {
    longPollId
    template := {
      version := UInt32.ofNat version
      previousBlockHash
      bits
      height := UInt32.ofNat height
      coinbaseValue := UInt64.ofNat coinbaseValue
      curtime := UInt64.ofNat curtime
      defaultWitnessCommitment
      transactions
      target } }

/-- The fields are sorted by their names. -/
def fetchRequest (rules : List String) (longPollId : Option String) : Value :=
  let waiting := match longPollId with
    | some id => [("longpollid", Value.string id)]
    | none => []
  .array [.object (waiting ++ [("rules", .array (rules.map .string))])]

/-- A call of `getblocktemplate`; without a time limit of its own it has that of the client. -/
structure Fetch where
  params : Value
  perCallTimeout : Option ℕ

def fetchOnce (rules : List String) (longPollId : Option String) : Fetch where
  params := fetchRequest rules longPollId
  perCallTimeout := longPollId.map fun _ => 75

inductive FetchResult where
  | ok (fetched : FetchedTemplate)
  | rpcError
  | deserializeError

def fetchResult : Except RpcError Value → FetchResult
  | .error _ => .rpcError
  | .ok value =>
      match templateFromValue value with
      | some fetched => .ok fetched
      | none => .deserializeError

/-! The task and its channel. -/

inductive PullPhase where
  | fetching
  | waiting
  | backingOff
  /-- Nobody is left to receive the template that has just come. -/
  | exited (unsent : FetchedTemplate)

/-- `fetches` are the calls that the task has made, and `results` what they have come to. -/
structure PullState where
  rules : List String
  phase : PullPhase := .fetching
  longPollId : Option String := none
  fetches : List Fetch := []
  results : List FetchResult := []
  sent : List FetchedTemplate := []
  receivers : KeyMap ℕ (View FetchedTemplate)

inductive PullAction where
  | fetch
  | answer (result : Except RpcError Value)
  | backoffOver
  | clone (receiver fresh : ℕ)
  | drop (receiver : ℕ)
  | changed (receiver : ℕ)

def handleResult (s : PullState) : FetchResult → PullState
  | .ok fetched =>
      let s := { s with
        longPollId := fetched.longPollId, results := s.results ++ [FetchResult.ok fetched] }
      if s.receivers.entries.isEmpty then { s with phase := .exited fetched }
      else { s with phase := .fetching, sent := s.sent ++ [fetched] }
  | e => { s with longPollId := none, results := s.results ++ [e], phase := .backingOff }

def pullStep (s : PullState) : PullAction → Option PullState
  | .fetch =>
      match s.phase with
      | .fetching =>
          some { s with
            phase := .waiting, fetches := s.fetches ++ [fetchOnce s.rules s.longPollId] }
      | _ => none
  | .answer result =>
      match s.phase with
      | .waiting => some (handleResult s (fetchResult result))
      | _ => none
  | .backoffOver =>
      match s.phase with
      | .backingOff => some { s with phase := .fetching }
      | _ => none
  | .clone receiver fresh => do
      let view ← s.receivers.lookup receiver
      if (s.receivers.lookup fresh).isSome then none
      else some { s with receivers := s.receivers.insert fresh view.clone }
  | .drop receiver => do
      let _ ← s.receivers.lookup receiver
      some { s with receivers := s.receivers.erase receiver }
  | .changed receiver => do
      let view ← s.receivers.lookup receiver
      let view ← view.take s.sent
      some { s with receivers := s.receivers.insert receiver view }

/-- What an action does, and when it can happen. -/
inductive PullStep (s : PullState) : PullAction → PullState → Prop
  | fetch (hphase : s.phase = .fetching) :
      PullStep s .fetch
        { s with phase := .waiting, fetches := s.fetches ++ [fetchOnce s.rules s.longPollId] }
  | answer (result : Except RpcError Value) (hphase : s.phase = .waiting) :
      PullStep s (.answer result) (handleResult s (fetchResult result))
  | backoffOver (hphase : s.phase = .backingOff) :
      PullStep s .backoffOver { s with phase := .fetching }
  | clone (receiver fresh : ℕ) (view : View FetchedTemplate)
      (hview : s.receivers.lookup receiver = some view) :
      PullStep s (.clone receiver fresh)
        { s with receivers := s.receivers.insert fresh view.clone }
  | drop (receiver : ℕ) (view : View FetchedTemplate)
      (hview : s.receivers.lookup receiver = some view) :
      PullStep s (.drop receiver) { s with receivers := s.receivers.erase receiver }
  | changed (receiver : ℕ) (view next : View FetchedTemplate)
      (hview : s.receivers.lookup receiver = some view) (hnext : view.take s.sent = some next) :
      PullStep s (.changed receiver)
        { s with receivers := s.receivers.insert receiver next }

theorem pullStep_cases {s t : PullState} {a : PullAction} (hstep : pullStep s a = some t) :
    PullStep s a t := by
  cases a with
  | fetch =>
      simp only [pullStep] at hstep
      split at hstep
      · rename_i hphase
        obtain rfl := Option.some.inj hstep
        exact .fetch hphase
      · cases hstep
  | answer result =>
      simp only [pullStep] at hstep
      split at hstep
      · rename_i hphase
        obtain rfl := Option.some.inj hstep
        exact .answer result hphase
      · cases hstep
  | backoffOver =>
      simp only [pullStep] at hstep
      split at hstep
      · rename_i hphase
        obtain rfl := Option.some.inj hstep
        exact .backoffOver hphase
      · cases hstep
  | clone receiver fresh =>
      obtain ⟨view, hview, hstep⟩ := Option.bind_eq_some_iff.mp hstep
      split_ifs at hstep
      obtain rfl := Option.some.inj hstep
      exact .clone receiver fresh view hview
  | drop receiver =>
      obtain ⟨view, hview, hstep⟩ := Option.bind_eq_some_iff.mp hstep
      obtain rfl := Option.some.inj hstep
      exact .drop receiver view hview
  | changed receiver =>
      obtain ⟨view, hview, hstep⟩ := Option.bind_eq_some_iff.mp hstep
      obtain ⟨next, hnext, hstep⟩ := Option.bind_eq_some_iff.mp hstep
      obtain rfl := Option.some.inj hstep
      exact .changed receiver view next hview hnext

end DatumGateway.TemplatePulls

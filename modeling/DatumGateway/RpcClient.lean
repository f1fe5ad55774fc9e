import DatumGateway.KeyedMaps
import DatumGateway.RpcResponses
import DatumGateway.TransitionSystem

/-!
Calls of the bitcoind RPC client that run at the same time, beside a server which may
write a new cookie and forget the old one at any moment.
-/

namespace DatumGateway.RpcClient

open DatumGateway.KeyedMaps
open DatumGateway.NotifyPatches
open DatumGateway.RpcResponses
open DatumGateway.TransitionSystem

/-- What `request_body` puts into the text of a request. -/
structure RequestBody where
  id : UInt64
  method : String
  params : Value

/-- Whether the call is on its way to its first request, or to the one after a refusal. -/
inductive Attempt where
  | first
  | second (body : RequestBody)

def Attempt.retried : Attempt → Bool
  | .first => false
  | .second _ => true

/-- Where a call stands; other tasks run wherever it waits for a lock or for the server. -/
inductive CallPhase where
  /-- About to look into the cache. -/
  | userpass (attempt : Attempt)
  /-- The cache was empty; about to resolve the credentials. -/
  | resolving (attempt : Attempt)
  /-- About to put them into the cache. -/
  | storing (attempt : Attempt) (userpass : String)
  | sending (attempt : Attempt) (userpass : String)
  | sent (retried : Bool) (body : RequestBody) (userpass : String)
  | refused (body : RequestBody)

structure RpcCall where
  method : String
  params : Value
  perCallTimeout : Option ℕ
  phase : CallPhase

structure HttpRequest where
  callId : ℕ
  retried : Bool
  basicAuth : String × String
  body : RequestBody
  perCallTimeout : Option ℕ

inductive HttpResponse where
  | unauthorized
  /-- No answer, another status, or no JSON in it. -/
  | failed
  | value (v : Value)

/-- What goes over the network for a call. -/
inductive HttpEvent where
  | request (r : HttpRequest)
  | response (callId : ℕ) (response : HttpResponse)

def HttpEvent.callId : HttpEvent → ℕ
  | .request r => r.callId
  | .response callId _ => callId

def HttpEvent.request? : HttpEvent → Option HttpRequest
  | .request r => some r
  | .response _ _ => none

/-- The client, its calls, and of the server what the calls depend on. -/
structure RpcState where
  auth : Auth
  cachedUserpass : Option String := none
  nextId : UInt64 := 1
  calls : KeyMap ℕ RpcCall := ∅
  started : ℕ := 0
  events : List HttpEvent := []
  results : List (ℕ × Except RpcError Value) := []
  cookieFile : Option String
  accepted : List (String × String)

inductive RpcAction where
  | call (method : String) (params : Value) (perCallTimeout : Option ℕ)
  | readCache (callId : ℕ)
  | resolve (callId : ℕ)
  | store (callId : ℕ)
  | send (callId : ℕ)
  | answer (callId : ℕ) (response : HttpResponse)
  | reload (callId : ℕ)
  | writeCookie (contents : Option String)
  | setAccepted (accepted : List (String × String))

namespace RpcState

def requests (s : RpcState) : List HttpRequest :=
  s.events.filterMap HttpEvent.request?

def setPhase (s : RpcState) (callId : ℕ) (call : RpcCall) (phase : CallPhase) : RpcState :=
  { s with calls := s.calls.insert callId { call with phase } }

def answered (s : RpcState) (callId : ℕ) (response : HttpResponse) : RpcState :=
  { s with events := s.events ++ [.response callId response] }

def finish (s : RpcState) (callId : ℕ) (result : Except RpcError Value) : RpcState :=
  { s with calls := s.calls.erase callId, results := s.results ++ [(callId, result)] }

theorem requests_append {s t : RpcState} {new : List HttpEvent}
    (hevents : t.events = s.events ++ new) :
    t.requests = s.requests ++ new.filterMap HttpEvent.request? := by
  rw [requests, hevents, List.filterMap_append, requests]

theorem requests_answered (s : RpcState) (callId : ℕ) (response : HttpResponse) :
    (s.answered callId response).requests = s.requests := by
  have hnone : [HttpEvent.response callId response].filterMap HttpEvent.request? = [] := rfl
  rw [requests_append (s := s) rfl, hnone, List.append_nil]

end RpcState

/-- The request of a call, with the body it has or a new one. -/
def request (callId : ℕ) (call : RpcCall) (retried : Bool) (body : RequestBody)
    (userpass : String) : HttpRequest where
  callId
  retried
  basicAuth := splitUserpass userpass
  body
  perCallTimeout := call.perCallTimeout

def rpcStep (s : RpcState) : RpcAction → Option RpcState
  | .call method params perCallTimeout =>
      some { s with
        calls := s.calls.insert s.started
          { method, params, perCallTimeout, phase := .userpass .first }
        started := s.started + 1 }
  | .readCache callId => do
      let call ← s.calls.lookup callId
      match call.phase with
      | .userpass attempt =>
          match s.cachedUserpass with
          | some cached => some (s.setPhase callId call (.sending attempt cached))
          | none => some (s.setPhase callId call (.resolving attempt))
      | _ => none
  | .resolve callId => do
      let call ← s.calls.lookup callId
      match call.phase with
      | .resolving attempt =>
          match resolveAuth s.auth s.cookieFile with
          | .error e => some (s.finish callId (.error e))
          | .ok userpass => some (s.setPhase callId call (.storing attempt userpass))
      | _ => none
  | .store callId => do
      let call ← s.calls.lookup callId
      match call.phase with
      | .storing attempt userpass =>
          some { s.setPhase callId call (.sending attempt userpass) with
            cachedUserpass := some userpass }
      | _ => none
  | .send callId => do
      let call ← s.calls.lookup callId
      match call.phase with
      | .sending .first userpass =>
          let body : RequestBody := { id := s.nextId, method := call.method, params := call.params }
          some { s.setPhase callId call (.sent false body userpass) with
            nextId := s.nextId + 1
            events := s.events ++ [.request (request callId call false body userpass)] }
      | .sending (.second body) userpass =>
          some { s.setPhase callId call (.sent true body userpass) with
            events := s.events ++ [.request (request callId call true body userpass)] }
      | _ => none
  | .answer callId response => do
      let call ← s.calls.lookup callId
      match call.phase with
      | .sent retried body userpass =>
          match response with
          | .unauthorized =>
              if splitUserpass userpass ∈ s.accepted then none
              else if retried then
                some ((s.answered callId response).finish callId (.error .authFailed))
              else some ((s.answered callId response).setPhase callId call (.refused body))
          | .failed => some ((s.answered callId response).finish callId (.error .http))
          | .value v =>
              if splitUserpass userpass ∈ s.accepted then
                some ((s.answered callId response).finish callId (parseRpcResponse v))
              else none
      | _ => none
  | .reload callId => do
      let call ← s.calls.lookup callId
      match call.phase with
      | .refused body =>
          match s.auth with
          | .cookie _ =>
              some { s.setPhase callId call (.userpass (.second body)) with cachedUserpass := none }
          | .userPass _ _ => some (s.finish callId (.error .authFailed))
      | _ => none
  | .writeCookie contents => some { s with cookieFile := contents }
  | .setAccepted accepted => some { s with accepted }

/-- What an action does, and when it can happen. -/
inductive RpcStep (s : RpcState) : RpcAction → RpcState → Prop where
  | call (method : String) (params : Value) (perCallTimeout : Option ℕ) :
      RpcStep s (.call method params perCallTimeout)
        { s with
          calls := s.calls.insert s.started
            { method, params, perCallTimeout, phase := .userpass .first }
          started := s.started + 1 }
  | cached (callId : ℕ) (call : RpcCall) (attempt : Attempt) (userpass : String)
      (hcall : s.calls.lookup callId = some call) (hphase : call.phase = .userpass attempt)
      (hcache : s.cachedUserpass = some userpass) :
      RpcStep s (.readCache callId) (s.setPhase callId call (.sending attempt userpass))
  | notCached (callId : ℕ) (call : RpcCall) (attempt : Attempt)
      (hcall : s.calls.lookup callId = some call) (hphase : call.phase = .userpass attempt)
      (hcache : s.cachedUserpass = none) :
      RpcStep s (.readCache callId) (s.setPhase callId call (.resolving attempt))
  | notResolved (callId : ℕ) (call : RpcCall) (attempt : Attempt) (e : RpcError)
      (hcall : s.calls.lookup callId = some call) (hphase : call.phase = .resolving attempt)
      (hresolve : resolveAuth s.auth s.cookieFile = .error e) :
      RpcStep s (.resolve callId) (s.finish callId (.error e))
  | resolved (callId : ℕ) (call : RpcCall) (attempt : Attempt) (userpass : String)
      (hcall : s.calls.lookup callId = some call) (hphase : call.phase = .resolving attempt)
      (hresolve : resolveAuth s.auth s.cookieFile = .ok userpass) :
      RpcStep s (.resolve callId) (s.setPhase callId call (.storing attempt userpass))
  | store (callId : ℕ) (call : RpcCall) (attempt : Attempt) (userpass : String)
      (hcall : s.calls.lookup callId = some call)
      (hphase : call.phase = .storing attempt userpass) :
      RpcStep s (.store callId)
        { s.setPhase callId call (.sending attempt userpass) with
          cachedUserpass := some userpass }
  | sendFirst (callId : ℕ) (call : RpcCall) (userpass : String) (body : RequestBody)
      (hcall : s.calls.lookup callId = some call)
      (hphase : call.phase = .sending .first userpass)
      (hbody : body = { id := s.nextId, method := call.method, params := call.params }) :
      RpcStep s (.send callId)
        { s.setPhase callId call (.sent false body userpass) with
          nextId := s.nextId + 1
          events := s.events ++ [.request (request callId call false body userpass)] }
  | sendSecond (callId : ℕ) (call : RpcCall) (userpass : String) (body : RequestBody)
      (hcall : s.calls.lookup callId = some call)
      (hphase : call.phase = .sending (.second body) userpass) :
      RpcStep s (.send callId)
        { s.setPhase callId call (.sent true body userpass) with
          events := s.events ++ [.request (request callId call true body userpass)] }
  | refusedFirst (callId : ℕ) (call : RpcCall) (userpass : String) (body : RequestBody)
      (hcall : s.calls.lookup callId = some call)
      (hphase : call.phase = .sent false body userpass)
      (hrefuses : splitUserpass userpass ∉ s.accepted) :
      RpcStep s (.answer callId .unauthorized)
        ((s.answered callId .unauthorized).setPhase callId call (.refused body))
  | refusedSecond (callId : ℕ) (call : RpcCall) (userpass : String) (body : RequestBody)
      (hcall : s.calls.lookup callId = some call)
      (hphase : call.phase = .sent true body userpass)
      (hrefuses : splitUserpass userpass ∉ s.accepted) :
      RpcStep s (.answer callId .unauthorized)
        ((s.answered callId .unauthorized).finish callId (.error .authFailed))
  | failed (callId : ℕ) (call : RpcCall) (retried : Bool) (userpass : String) (body : RequestBody)
      (hcall : s.calls.lookup callId = some call)
      (hphase : call.phase = .sent retried body userpass) :
      RpcStep s (.answer callId .failed)
        ((s.answered callId .failed).finish callId (.error .http))
  | answered (callId : ℕ) (call : RpcCall) (retried : Bool) (userpass : String)
      (body : RequestBody) (v : Value) (hcall : s.calls.lookup callId = some call)
      (hphase : call.phase = .sent retried body userpass)
      (haccepts : splitUserpass userpass ∈ s.accepted) :
      RpcStep s (.answer callId (.value v))
        ((s.answered callId (.value v)).finish callId (parseRpcResponse v))
  | reload (callId : ℕ) (call : RpcCall) (body : RequestBody) (path : String)
      (hcall : s.calls.lookup callId = some call) (hphase : call.phase = .refused body)
      (hauth : s.auth = .cookie path) :
      RpcStep s (.reload callId)
        { s.setPhase callId call (.userpass (.second body)) with cachedUserpass := none }
  | noReload (callId : ℕ) (call : RpcCall) (body : RequestBody) (user pass : String)
      (hcall : s.calls.lookup callId = some call) (hphase : call.phase = .refused body)
      (hauth : s.auth = .userPass user pass) :
      RpcStep s (.reload callId) (s.finish callId (.error .authFailed))
  | writeCookie (contents : Option String) :
      RpcStep s (.writeCookie contents) { s with cookieFile := contents }
  | setAccepted (accepted : List (String × String)) :
      RpcStep s (.setAccepted accepted) { s with accepted }

theorem rpcStep_cases {s t : RpcState} {a : RpcAction} (hstep : rpcStep s a = some t) :
    RpcStep s a t := by
  cases a with
  | call method params perCallTimeout =>
      obtain rfl := Option.some.inj hstep
      exact .call method params perCallTimeout
  | readCache callId =>
      obtain ⟨call, hcall, hstep⟩ := Option.bind_eq_some_iff.mp hstep
      split at hstep
      · rename_i attempt hphase
        split at hstep <;> rename_i hcache <;> obtain rfl := Option.some.inj hstep
        · exact .cached callId call attempt _ hcall hphase hcache
        · exact .notCached callId call attempt hcall hphase hcache
      · cases hstep
  | resolve callId =>
      obtain ⟨call, hcall, hstep⟩ := Option.bind_eq_some_iff.mp hstep
      split at hstep
      · rename_i attempt hphase
        split at hstep <;> rename_i hresolve <;> obtain rfl := Option.some.inj hstep
        · exact .notResolved callId call attempt _ hcall hphase hresolve
        · exact .resolved callId call attempt _ hcall hphase hresolve
      · cases hstep
  | store callId =>
      obtain ⟨call, hcall, hstep⟩ := Option.bind_eq_some_iff.mp hstep
      split at hstep
      · rename_i attempt userpass hphase
        obtain rfl := Option.some.inj hstep
        exact .store callId call attempt userpass hcall hphase
      · cases hstep
  | send callId =>
      obtain ⟨call, hcall, hstep⟩ := Option.bind_eq_some_iff.mp hstep
      split at hstep
      · rename_i userpass hphase
        obtain rfl := Option.some.inj hstep
        exact .sendFirst callId call userpass _ hcall hphase rfl
      · rename_i body userpass hphase
        obtain rfl := Option.some.inj hstep
        exact .sendSecond callId call userpass body hcall hphase
      · cases hstep
  | answer callId response =>
      obtain ⟨call, hcall, hstep⟩ := Option.bind_eq_some_iff.mp hstep
      split at hstep
      · rename_i retried body userpass hphase
        cases response with
        | unauthorized =>
            dsimp only at hstep
            split_ifs at hstep with haccepts hretried
            · obtain rfl := Option.some.inj hstep
              exact .refusedSecond callId call userpass body hcall (hretried ▸ hphase) haccepts
            · obtain rfl := Option.some.inj hstep
              exact .refusedFirst callId call userpass body hcall
                (Bool.eq_false_of_not_eq_true hretried ▸ hphase) haccepts
        | failed =>
            obtain rfl := Option.some.inj hstep
            exact .failed callId call retried userpass body hcall hphase
        | value v =>
            obtain ⟨haccepts, hstep⟩ := Option.ite_none_right_eq_some.mp hstep
            obtain rfl := Option.some.inj hstep
            exact .answered callId call retried userpass body v hcall hphase haccepts
      · cases hstep
  | reload callId =>
      obtain ⟨call, hcall, hstep⟩ := Option.bind_eq_some_iff.mp hstep
      split at hstep
      · rename_i body hphase
        split at hstep <;> rename_i hauth <;> obtain rfl := Option.some.inj hstep
        · exact .reload callId call body _ hcall hphase hauth
        · exact .noReload callId call body _ _ hcall hphase hauth
      · cases hstep
  | writeCookie contents =>
      obtain rfl := Option.some.inj hstep
      exact .writeCookie contents
  | setAccepted accepted =>
      obtain rfl := Option.some.inj hstep
      exact .setAccepted accepted

end DatumGateway.RpcClient

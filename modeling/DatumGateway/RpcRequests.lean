import DatumGateway.RpcClient
import Mathlib.Data.List.Nodup

namespace DatumGateway.RpcRequests

open DatumGateway.KeyedMaps
open DatumGateway.RpcClient
open DatumGateway.RpcResponses
open DatumGateway.TransitionSystem

/-- What has gone over the network for a call, in order. -/
def exchanged (s : RpcState) (callId : ℕ) : List HttpEvent :=
  s.events.filter fun e => e.callId == callId

def firstRequests (s : RpcState) : List HttpRequest :=
  s.requests.filter fun r => !r.retried

/-- No request; one; or one that is answered by a 401 and sent once more, with the same body
and time limit. The last request may have its answer. -/
inductive AtMostRetried : List HttpEvent → Prop
  | none : AtMostRetried []
  | once (r : HttpRequest) (hfirst : r.retried = false) (answer : Option HttpResponse) :
      AtMostRetried (.request r :: (answer.map (HttpEvent.response r.callId)).toList)
  | twice (r r' : HttpRequest) (hfirst : r.retried = false) (hsecond : r'.retried = true)
      (hbody : r'.body = r.body) (htimeout : r'.perCallTimeout = r.perCallTimeout)
      (answer : Option HttpResponse) :
      AtMostRetried (.request r :: .response r.callId .unauthorized :: .request r' ::
        (answer.map (HttpEvent.response r'.callId)).toList)

def rpcClient (auth : Auth) (cookieFile : Option String) (accepted : List (String × String)) :
    RpcState where
  auth
  cookieFile
  accepted

def Attempt.Exchanged (callId : ℕ) (call : RpcCall) : Attempt → List HttpEvent → Prop
  | .first, events => events = []
  | .second body, events => ∃ u,
      events = [.request (request callId call false body u), .response callId .unauthorized]

/-- What has gone over the network for a call when it gets to the phase. -/
def Exchanged (callId : ℕ) (call : RpcCall) : CallPhase → List HttpEvent → Prop
  | .userpass attempt, events => Attempt.Exchanged callId call attempt events
  | .resolving attempt, events => Attempt.Exchanged callId call attempt events
  | .storing attempt _, events => Attempt.Exchanged callId call attempt events
  | .sending attempt _, events => Attempt.Exchanged callId call attempt events
  | .sent false body _, events => ∃ u, events = [.request (request callId call false body u)]
  | .sent true body _, events => ∃ u u',
      events = [.request (request callId call false body u), .response callId .unauthorized,
        .request (request callId call true body u')]
  | .refused body, events => Attempt.Exchanged callId call (.second body) events

structure Accounted (s : RpcState) : Prop where
  fresh : ∀ callId, s.started ≤ callId →
    s.calls.lookup callId = none ∧ exchanged s callId = []
  phases : ∀ callId call, s.calls.lookup callId = some call →
    Exchanged callId call call.phase (exchanged s callId)
  shapes : ∀ callId, AtMostRetried (exchanged s callId)

section Steps

variable {s t : RpcState} {callId : ℕ} {call : RpcCall}

theorem Accounted.lt_started (haccounted : Accounted s)
    (hcall : s.calls.lookup callId = some call) : callId < s.started := by
  by_contra hle
  have hnone := (haccounted.fresh callId (not_lt.mp hle)).1
  rw [hcall] at hnone
  cases hnone

theorem Accounted.phase (haccounted : Accounted s) (hcall : s.calls.lookup callId = some call)
    {phase : CallPhase} (hphase : call.phase = phase) :
    Exchanged callId call phase (exchanged s callId) :=
  hphase ▸ haccounted.phases callId call hcall

theorem Accounted.move (haccounted : Accounted s) (hcall : s.calls.lookup callId = some call)
    {new : List HttpEvent} (hevents : t.events = s.events ++ new)
    (hnew : ∀ e ∈ new, e.callId = callId) (hstarted : t.started = s.started)
    (hcalls : ∀ id other, t.calls.lookup id = some other →
      id = callId ∧ Exchanged callId other other.phase (exchanged s callId ++ new) ∨
      id ≠ callId ∧ s.calls.lookup id = some other)
    (hshape : AtMostRetried (exchanged s callId ++ new)) : Accounted t := by
  have hsame : exchanged t callId = exchanged s callId ++ new := by
    rw [exchanged, hevents, List.filter_append, exchanged,
      List.filter_eq_self.mpr fun e he => beq_iff_eq.mpr (hnew e he)]
  have hother : ∀ id, id ≠ callId → exchanged t id = exchanged s id := by
    intro id hne
    have hnone : new.filter (fun e => e.callId == id) = [] := by
      rw [List.filter_eq_nil_iff]
      intro e he hid
      exact hne ((beq_iff_eq.mp hid).symm.trans (hnew e he))
    rw [exchanged, hevents, List.filter_append, exchanged, hnone, List.append_nil]
  constructor
  · intro id hle
    obtain ⟨hnone, hempty⟩ := haccounted.fresh id (hstarted ▸ hle)
    have hne : id ≠ callId := fun h => by
      have hlt := haccounted.lt_started hcall
      omega
    refine ⟨?_, by rw [hother id hne, hempty]⟩
    rw [Option.eq_none_iff_forall_ne_some]
    intro other hlookup
    rcases hcalls id other hlookup with ⟨h, -⟩ | ⟨-, hlookup⟩
    · exact hne h
    · rw [hnone] at hlookup
      cases hlookup
  · intro id other hlookup
    rcases hcalls id other hlookup with ⟨rfl, hphase⟩ | ⟨hne, hlookup⟩
    · rw [hsame]
      exact hphase
    · rw [hother id hne]
      exact haccounted.phases id other hlookup
  · intro id
    by_cases hne : id = callId
    · rw [hne, hsame]
      exact hshape
    · rw [hother id hne]
      exact haccounted.shapes id

theorem Accounted.setPhase (haccounted : Accounted s) (hcall : s.calls.lookup callId = some call)
    {phase : CallPhase} (hevents : t.events = s.events) (hstarted : t.started = s.started)
    (hcalls : t.calls = s.calls.insert callId { call with phase })
    (hphase : Exchanged callId call phase (exchanged s callId)) : Accounted t := by
  refine haccounted.move hcall (by rw [hevents, List.append_nil]) (by simp) hstarted ?_ ?_
  · intro id other hother
    rw [hcalls, lookup_insert_eq_some_iff] at hother
    rw [List.append_nil]
    exact hother.imp_left fun ⟨hid, h⟩ => ⟨hid, h ▸ hphase⟩
  · rw [List.append_nil]
    exact haccounted.shapes callId

theorem Accounted.emit (haccounted : Accounted s) (hcall : s.calls.lookup callId = some call)
    {phase : CallPhase} {e : HttpEvent} (hevents : t.events = s.events ++ [e])
    (he : e.callId = callId) (hstarted : t.started = s.started)
    (hcalls : t.calls = s.calls.insert callId { call with phase })
    (hphase : Exchanged callId call phase (exchanged s callId ++ [e]))
    (hshape : AtMostRetried (exchanged s callId ++ [e])) : Accounted t := by
  refine haccounted.move hcall hevents (by simpa using he) hstarted ?_ hshape
  intro id other hother
  rw [hcalls, lookup_insert_eq_some_iff] at hother
  exact hother.imp_left fun ⟨hid, h⟩ => ⟨hid, h ▸ hphase⟩

theorem Accounted.finish (haccounted : Accounted s) (hcall : s.calls.lookup callId = some call)
    {new : List HttpEvent} (hevents : t.events = s.events ++ new)
    (hnew : ∀ e ∈ new, e.callId = callId) (hstarted : t.started = s.started)
    (hcalls : t.calls = s.calls.erase callId)
    (hshape : AtMostRetried (exchanged s callId ++ new)) : Accounted t := by
  refine haccounted.move hcall hevents hnew hstarted ?_ hshape
  intro id other hother
  rw [hcalls, lookup_erase_eq_some_iff] at hother
  exact .inr hother

theorem Accounted.giveUp (haccounted : Accounted s) (hcall : s.calls.lookup callId = some call)
    (result : Except RpcError NotifyPatches.Value) : Accounted (s.finish callId result) := by
  refine haccounted.finish hcall (List.append_nil _).symm (by simp) rfl rfl ?_
  rw [List.append_nil]
  exact haccounted.shapes callId

theorem Exchanged.atMostRetried {retried : Bool} {body : RequestBody} {u : String}
    {events : List HttpEvent} (hevents : Exchanged callId call (.sent retried body u) events)
    (response : HttpResponse) : AtMostRetried (events ++ [.response callId response]) := by
  cases retried with
  | false =>
      obtain ⟨u, rfl⟩ := hevents
      exact .once _ rfl (some response)
  | true =>
      obtain ⟨u, u', rfl⟩ := hevents
      exact .twice (request callId call false body u) (request callId call true body u')
        rfl rfl rfl rfl (some response)

theorem Accounted.conclude (haccounted : Accounted s)
    (hcall : s.calls.lookup callId = some call) {retried : Bool} {body : RequestBody} {u : String}
    (hphase : call.phase = .sent retried body u) (response : HttpResponse)
    (result : Except RpcError NotifyPatches.Value) :
    Accounted ((s.answered callId response).finish callId result) := by
  have hsent := haccounted.phase hcall hphase
  refine haccounted.finish hcall rfl ?_ rfl rfl (hsent.atMostRetried response)
  intro e he
  rw [List.mem_singleton.mp he, HttpEvent.callId]

theorem Accounted.step {a : RpcAction} (haccounted : Accounted s) (hstep : RpcStep s a t) :
    Accounted t := by
  cases hstep with
  | call method params perCallTimeout =>
      obtain ⟨-, hempty⟩ := haccounted.fresh s.started le_rfl
      refine ⟨?_, ?_, haccounted.shapes⟩
      · intro id hle
        obtain ⟨hnone, hnoEvent⟩ := haccounted.fresh id ((Nat.le_succ _).trans hle)
        exact ⟨by rw [AList.lookup_insert_ne (Nat.succ_le_iff.mp hle).ne', hnone], hnoEvent⟩
      · intro id other hother
        rcases lookup_insert_eq_some_iff.mp hother with ⟨rfl, rfl⟩ | ⟨-, hother⟩
        · exact hempty
        · exact haccounted.phases id other hother
  | cached callId call attempt u hcall hphase hcache =>
      have hbefore := haccounted.phase hcall hphase
      exact haccounted.setPhase hcall rfl rfl rfl hbefore
  | notCached callId call attempt hcall hphase hcache =>
      have hbefore := haccounted.phase hcall hphase
      exact haccounted.setPhase hcall rfl rfl rfl hbefore
  | notResolved callId call attempt e hcall hphase hresolve => exact haccounted.giveUp hcall _
  | resolved callId call attempt u hcall hphase hresolve =>
      have hbefore := haccounted.phase hcall hphase
      exact haccounted.setPhase hcall rfl rfl rfl hbefore
  | store callId call attempt u hcall hphase =>
      have hbefore := haccounted.phase hcall hphase
      exact haccounted.setPhase hcall rfl rfl rfl hbefore
  | sendFirst callId call u body hcall hphase hbody =>
      have hnone := haccounted.phase hcall hphase
      have hone : exchanged s callId ++ [.request (request callId call false body u)] =
          [.request (request callId call false body u)] := congrArg (· ++ _) hnone
      refine haccounted.emit hcall rfl rfl rfl rfl ?_ ?_
      · rw [hone]
        exact ⟨u, rfl⟩
      · rw [hone]
        exact .once _ rfl none
  | sendSecond callId call u body hcall hphase =>
      have hbefore := haccounted.phase hcall hphase
      obtain ⟨u', hrefused⟩ := hbefore
      refine haccounted.emit hcall rfl rfl rfl rfl ?_ ?_
      · rw [hrefused]
        exact ⟨u', u, rfl⟩
      · rw [hrefused]
        exact .twice (request callId call false body u') (request callId call true body u)
          rfl rfl rfl rfl none
  | refusedFirst callId call u body hcall hphase hrefuses =>
      have hsent := haccounted.phase hcall hphase
      refine haccounted.emit hcall rfl rfl rfl rfl ?_ (hsent.atMostRetried .unauthorized)
      obtain ⟨u', hone⟩ := hsent
      rw [hone]
      exact ⟨u', rfl⟩
  | refusedSecond callId call u body hcall hphase hrefuses =>
      exact haccounted.conclude hcall hphase _ _
  | failed callId call retried u body hcall hphase => exact haccounted.conclude hcall hphase _ _
  | answered callId call retried u body v hcall hphase haccepts =>
      exact haccounted.conclude hcall hphase _ _
  | reload callId call body path hcall hphase hauth =>
      have hbefore := haccounted.phase hcall hphase
      exact haccounted.setPhase hcall rfl rfl rfl hbefore
  | noReload callId call body user pass hcall hphase hauth => exact haccounted.giveUp hcall _
  | writeCookie contents | setAccepted accepted =>
      exact ⟨haccounted.fresh, haccounted.phases, haccounted.shapes⟩

end Steps

theorem accounted_rpcClient (auth : Auth) (cookieFile : Option String)
    (accepted : List (String × String)) : Accounted (rpcClient auth cookieFile accepted) where
  fresh := fun _ _ => ⟨rfl, rfl⟩
  phases := fun _ _ hcall => nomatch hcall
  shapes := fun _ => .none

/-- The requests that are not sent again are numbered from one. -/
structure Numbered (s : RpcState) : Prop where
  ids : (firstRequests s).map (fun r => r.body.id) =
    (List.range (firstRequests s).length).map fun i => UInt64.ofNat (i + 1)
  nextId : s.nextId = UInt64.ofNat ((firstRequests s).length + 1)

theorem firstRequests_append {s t : RpcState} {new : List HttpEvent}
    (hevents : t.events = s.events ++ new) : firstRequests t = firstRequests s ++
      (new.filterMap HttpEvent.request?).filter fun r => !r.retried := by
  rw [firstRequests, RpcState.requests_append hevents, List.filter_append, firstRequests]

theorem Numbered.of_append {s t : RpcState} (hnumbered : Numbered s) {new : List HttpEvent}
    (hevents : t.events = s.events ++ new)
    (hnew : (new.filterMap HttpEvent.request?).filter (fun r => !r.retried) = [])
    (hnextId : t.nextId = s.nextId) : Numbered t := by
  have hfirst : firstRequests t = firstRequests s := by
    rw [firstRequests_append hevents, hnew, List.append_nil]
  exact ⟨by rw [hfirst]; exact hnumbered.ids, by rw [hfirst, hnextId]; exact hnumbered.nextId⟩

theorem Numbered.of_request {s t : RpcState} (hnumbered : Numbered s) {r : HttpRequest}
    (hevents : t.events = s.events ++ [.request r]) (hretried : r.retried = false)
    (hid : r.body.id = s.nextId) (hnextId : t.nextId = s.nextId + 1) : Numbered t := by
  have hfirst : firstRequests t = firstRequests s ++ [r] := by
    rw [firstRequests_append hevents]
    simp [HttpEvent.request?, hretried]
  constructor
  · rw [hfirst, List.map_append, List.length_append, List.length_singleton, List.range_succ,
      List.map_append, hnumbered.ids, List.map_singleton, List.map_singleton, hid,
      hnumbered.nextId]
  · rw [hfirst, hnextId, hnumbered.nextId, List.length_append, List.length_singleton,
      ← UInt64.ofNat_one, ← UInt64.ofNat_add]

theorem Numbered.step {s t : RpcState} {a : RpcAction} (hnumbered : Numbered s)
    (hstep : RpcStep s a t) : Numbered t := by
  cases hstep with
  | sendFirst callId call u body hcall hphase hbody =>
      have hid : body.id = s.nextId := by rw [hbody]
      exact hnumbered.of_request rfl rfl hid rfl
  | sendSecond | refusedFirst | refusedSecond | failed | answered =>
      exact hnumbered.of_append rfl rfl rfl
  | call | cached | notCached | notResolved | resolved | store | reload | noReload | writeCookie
    | setAccepted =>
      exact hnumbered.of_append (List.append_nil _).symm rfl rfl

theorem Numbered.nodup_ids {s : RpcState} (hnumbered : Numbered s)
    (hcount : (firstRequests s).length < 2 ^ 64) :
    ((firstRequests s).map fun r => r.body.id).Nodup := by
  rw [hnumbered.ids]
  refine List.Nodup.map_on ?_ List.nodup_range
  intro i hi j hj hij
  rw [List.mem_range] at hi hj
  have hvalues := congrArg UInt64.toNat hij
  rw [UInt64.toNat_ofNat', UInt64.toNat_ofNat'] at hvalues
  omega

theorem splitUserpass_append {user pass : String} (hcolon : ':' ∉ user.toList) :
    splitUserpass (user ++ ":" ++ pass) = (user, pass) := by
  have hchars : (user ++ ":" ++ pass).toList = user.toList ++ ':' :: pass.toList := by
    rw [String.toList_append, String.toList_append, List.append_assoc]
    rfl
  have hidx : (user ++ ":" ++ pass).toList.findIdx? (fun c => c == ':') =
      some user.toList.length := by
    have hnone : user.toList.findIdx? (fun c => c == ':') = none := by
      rw [List.findIdx?_eq_none_iff]
      intro c hc
      rw [beq_eq_false_iff_ne]
      exact fun h => hcolon (h ▸ hc)
    rw [hchars, List.findIdx?_append, hnone]
    simp [List.findIdx?_cons]
  rw [splitUserpass, hidx]
  simp [hchars]

/-- What a call holds that has been given a user and a password. -/
def HoldsFixed (userpass : String) : CallPhase → Prop
  | .userpass attempt => attempt.retried = false
  | .resolving attempt => attempt.retried = false
  | .storing attempt u => attempt.retried = false ∧ u = userpass
  | .sending attempt u => attempt.retried = false ∧ u = userpass
  | .sent retried _ _ => retried = false
  | .refused _ => True

structure FixedCredentials (user pass : String) (s : RpcState) : Prop where
  auth : s.auth = .userPass user pass
  cache : ∀ u ∈ s.cachedUserpass, u = user ++ ":" ++ pass
  phases : ∀ callId call, s.calls.lookup callId = some call →
    HoldsFixed (user ++ ":" ++ pass) call.phase
  requests : ∀ r ∈ s.requests, r.retried = false ∧
    r.basicAuth = splitUserpass (user ++ ":" ++ pass)

section FixedSteps

variable {user pass : String} {s t : RpcState} {callId : ℕ} {call : RpcCall}

theorem FixedCredentials.phase (hfixed : FixedCredentials user pass s)
    (hcall : s.calls.lookup callId = some call) {phase : CallPhase}
    (hphase : call.phase = phase) : HoldsFixed (user ++ ":" ++ pass) phase :=
  hphase ▸ hfixed.phases callId call hcall

theorem FixedCredentials.move (hfixed : FixedCredentials user pass s) (hauth : t.auth = s.auth)
    (hcache : ∀ u ∈ t.cachedUserpass, u = user ++ ":" ++ pass) {phase : CallPhase}
    (hcalls : t.calls = s.calls.insert callId { call with phase })
    (hphase : HoldsFixed (user ++ ":" ++ pass) phase)
    (hrequests : ∀ r ∈ t.requests, r ∈ s.requests ∨ r.retried = false ∧
      r.basicAuth = splitUserpass (user ++ ":" ++ pass)) : FixedCredentials user pass t where
  auth := hauth.trans hfixed.auth
  cache := hcache
  phases := by
    intro id other hother
    rw [hcalls, lookup_insert_eq_some_iff] at hother
    rcases hother with ⟨-, rfl⟩ | ⟨-, hother⟩
    · exact hphase
    · exact hfixed.phases id other hother
  requests := fun r hr => (hrequests r hr).elim (hfixed.requests r) id

theorem FixedCredentials.finish (hfixed : FixedCredentials user pass s) (callId : ℕ)
    (result : Except RpcError NotifyPatches.Value) :
    FixedCredentials user pass (s.finish callId result) where
  auth := hfixed.auth
  cache := hfixed.cache
  phases := fun id other hother =>
    hfixed.phases id other (lookup_erase_eq_some_iff.mp hother).2
  requests := hfixed.requests

theorem FixedCredentials.answered (hfixed : FixedCredentials user pass s) (callId : ℕ)
    (response : HttpResponse) : FixedCredentials user pass (s.answered callId response) where
  auth := hfixed.auth
  cache := hfixed.cache
  phases := hfixed.phases
  requests := by
    rw [RpcState.requests_answered]
    exact hfixed.requests

theorem FixedCredentials.step {a : RpcAction} (hfixed : FixedCredentials user pass s)
    (hstep : RpcStep s a t) : FixedCredentials user pass t := by
  have hcache := hfixed.cache
  have hsame : ∀ r ∈ s.requests, r ∈ s.requests ∨ r.retried = false ∧
      r.basicAuth = splitUserpass (user ++ ":" ++ pass) := fun _ hr => .inl hr
  cases hstep with
  | call method params perCallTimeout =>
      refine ⟨hfixed.auth, hcache, ?_, hfixed.requests⟩
      intro id other hother
      rcases lookup_insert_eq_some_iff.mp hother with ⟨-, rfl⟩ | ⟨-, hother⟩
      · rfl
      · exact hfixed.phases id other hother
  | cached callId call attempt u hcall hphase hcached =>
      have hbefore := hfixed.phase hcall hphase
      exact hfixed.move rfl hcache rfl ⟨hbefore, hcache u hcached⟩ hsame
  | notCached callId call attempt hcall hphase hcached =>
      have hbefore := hfixed.phase hcall hphase
      exact hfixed.move rfl hcache rfl hbefore hsame
  | notResolved callId call attempt e hcall hphase hresolve => exact hfixed.finish callId _
  | resolved callId call attempt u hcall hphase hresolve =>
      have hbefore := hfixed.phase hcall hphase
      rw [hfixed.auth] at hresolve
      exact hfixed.move rfl hcache rfl ⟨hbefore, (Except.ok.inj hresolve).symm⟩ hsame
  | store callId call attempt u hcall hphase =>
      have hbefore := hfixed.phase hcall hphase
      exact hfixed.move rfl (fun v hv => Option.some.inj hv ▸ hbefore.2) rfl hbefore hsame
  | sendFirst callId call u body hcall hphase hbody =>
      have hbefore := hfixed.phase hcall hphase
      refine hfixed.move rfl hcache rfl rfl ?_
      intro r hr
      rw [RpcState.requests_append (s := s) rfl] at hr
      rcases List.mem_append.mp hr with hr | hr
      · exact .inl hr
      · obtain rfl := List.mem_singleton.mp hr
        exact .inr ⟨rfl, congrArg splitUserpass hbefore.2⟩
  | sendSecond callId call u body hcall hphase =>
      have hbefore := hfixed.phase hcall hphase
      cases hbefore.1
  | refusedFirst callId call u body hcall hphase hrefuses =>
      exact (hfixed.answered callId _).move rfl hcache rfl trivial fun _ hr => .inl hr
  | refusedSecond callId call u body hcall hphase hrefuses =>
      exact (hfixed.answered callId _).finish callId _
  | failed callId call retried u body hcall hphase =>
      exact (hfixed.answered callId _).finish callId _
  | answered callId call retried u body v hcall hphase haccepts =>
      exact (hfixed.answered callId _).finish callId _
  | reload callId call body path hcall hphase hauth =>
      rw [hfixed.auth] at hauth
      cases hauth
  | noReload callId call body user' pass' hcall hphase hauth => exact hfixed.finish callId _
  | writeCookie contents | setAccepted accepted =>
      exact ⟨hfixed.auth, hcache, hfixed.phases, hfixed.requests⟩

end FixedSteps

theorem fixedCredentials_rpcClient (user pass : String) (cookieFile : Option String)
    (accepted : List (String × String)) :
    FixedCredentials user pass (rpcClient (.userPass user pass) cookieFile accepted) where
  auth := rfl
  cache := fun _ hu => nomatch hu
  phases := fun _ _ hcall => nomatch hcall
  requests := fun _ hr => nomatch hr

theorem numbered_rpcClient (auth : Auth) (cookieFile : Option String)
    (accepted : List (String × String)) : Numbered (rpcClient auth cookieFile accepted) :=
  ⟨rfl, rfl⟩

/-- However the calls of a client run beside each other, each sends one request at most, or the
same one once more after a 401; no two calls share an id before the counter wraps; and with a user
and a password no request is sent again, and each carries these if the user has no colon. -/
theorem requests_of_calls (auth : Auth) (cookieFile : Option String)
    (accepted : List (String × String)) (t : RpcState)
    (hreachable : Reachable rpcStep (rpcClient auth cookieFile accepted) t) :
    (∀ callId, AtMostRetried (exchanged t callId)) ∧
    ((firstRequests t).length < 2 ^ 64 →
      ((firstRequests t).map fun r => r.body.id).Nodup) ∧
    ∀ user pass, auth = .userPass user pass → ∀ r ∈ t.requests,
      r.retried = false ∧ (':' ∉ user.toList → r.basicAuth = (user, pass)) := by
  have haccounted : Accounted t :=
    hreachable.invariant (accounted_rpcClient auth cookieFile accepted)
      fun _ _ _ hinv hstep => hinv.step (rpcStep_cases hstep)
  have hnumbered : Numbered t :=
    hreachable.invariant (numbered_rpcClient auth cookieFile accepted)
      fun _ _ _ hinv hstep => hinv.step (rpcStep_cases hstep)
  refine ⟨haccounted.shapes, hnumbered.nodup_ids, ?_⟩
  rintro user pass rfl r hr
  have hfixed : FixedCredentials user pass t :=
    hreachable.invariant (fixedCredentials_rpcClient user pass cookieFile accepted)
      fun _ _ _ hinv hstep => hinv.step (rpcStep_cases hstep)
  obtain ⟨hretried, hbasicAuth⟩ := hfixed.requests r hr
  exact ⟨hretried, fun hcolon => hbasicAuth.trans (splitUserpass_append hcolon)⟩

/-- Two calls at the same time, the second of which gets to the server first; and a call whose
cookie is renewed between its two requests. -/
theorem requests_of_calls_overlapping :
    (∃ t, Reachable rpcStep (rpcClient (.userPass "user" "pa:ss") none [("user", "pa:ss")]) t ∧
      (t.requests.map (fun r => (r.callId, r.body.id)) == [(1, 1), (0, 2)]) = true ∧
      (∀ callId, AtMostRetried (exchanged t callId)) ∧
      ((firstRequests t).map fun r => r.body.id).Nodup ∧
      ∀ r ∈ t.requests, r.retried = false ∧ r.basicAuth = ("user", "pa:ss")) ∧
    ∃ t, Reachable rpcStep
        (rpcClient (.cookie ".cookie") (some "user:old\n") [("user", "new")]) t ∧
      (t.requests.map (fun r => (r.callId, r.body.id, r.basicAuth)) ==
        [(0, 1, "user", "old"), (0, 1, "user", "new")]) = true ∧
      ∀ callId, AtMostRetried (exchanged t callId) := by
  constructor
  · obtain ⟨t, hreachable, ht⟩ := exists_reachable_of_runActions rpcStep
      (rpcClient (.userPass "user" "pa:ss") none [("user", "pa:ss")])
      [.call "getblocktemplate" .null (some 75), .call "getbestblockhash" (.array []) none,
        .readCache 0, .readCache 1, .resolve 1, .store 1, .send 1, .resolve 0, .store 0, .send 0]
      (fun t => t.requests.map (fun r => (r.callId, r.body.id)) == [(1, 1), (0, 2)] &&
        decide ((firstRequests t).length < 2 ^ 64))
      (by decide +kernel)
    obtain ⟨hids, hcount⟩ := Bool.and_eq_true_iff.mp ht
    obtain ⟨hshapes, hnodup, hbasicAuth⟩ := requests_of_calls _ _ _ t hreachable
    refine ⟨t, hreachable, hids, hshapes, hnodup (of_decide_eq_true hcount), ?_⟩
    intro r hr
    obtain ⟨hretried, hpair⟩ := hbasicAuth "user" "pa:ss" rfl r hr
    exact ⟨hretried, hpair (by decide +kernel)⟩
  · obtain ⟨t, hreachable, ht⟩ := exists_reachable_of_runActions rpcStep
      (rpcClient (.cookie ".cookie") (some "user:old\n") [("user", "new")])
      [.call "getblocktemplate" .null (some 75), .readCache 0, .resolve 0, .store 0, .send 0,
        .answer 0 .unauthorized, .writeCookie (some "user:new\n"), .reload 0, .readCache 0,
        .resolve 0, .store 0, .send 0]
      (fun t => t.requests.map (fun r => (r.callId, r.body.id, r.basicAuth)) ==
        [(0, 1, "user", "old"), (0, 1, "user", "new")])
      (by decide +kernel)
    exact ⟨t, hreachable, ht, (requests_of_calls _ _ _ t hreachable).1⟩

end DatumGateway.RpcRequests

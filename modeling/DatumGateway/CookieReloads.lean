import DatumGateway.RpcClient

namespace DatumGateway.CookieReloads

open DatumGateway.KeyedMaps
open DatumGateway.NotifyPatches
open DatumGateway.RpcClient
open DatumGateway.RpcResponses
open DatumGateway.TransitionSystem

/-- The cookie file and the server stay as they are. -/
def undisturbed : RpcAction → Bool
  | .writeCookie _ => false
  | .setAccepted _ => false
  | _ => true

/-- The credentials are those in force, or there are none. -/
def NotStale (userpass : String) (cached : Option String) : Prop :=
  ∀ u ∈ cached, u = userpass

/-- What a call goes into its second request with, or is about to leave to others, is in force. -/
def RetriesWith (userpass : String) (cached : Option String) : CallPhase → Prop
  | .userpass attempt => attempt.retried = true → NotStale userpass cached
  | .resolving _ => True
  | .storing _ u => u = userpass
  | .sending attempt u => attempt.retried = true → u = userpass
  | .sent retried _ u => retried = true → u = userpass
  | .refused _ => True

/-- The server accepts what the cookie file holds, and no call is left with what it held before
that could be refused for it twice, or put it into the cache. -/
structure Settled (userpass : String) (s : RpcState) : Prop where
  resolves : resolveAuth s.auth s.cookieFile = .ok userpass
  accepts : splitUserpass userpass ∈ s.accepted
  cookie : ∃ path, s.auth = .cookie path
  phases : ∀ callId call, s.calls.lookup callId = some call →
    RetriesWith userpass s.cachedUserpass call.phase

/-- Whatever a call holds is in force. -/
def Carries (userpass : String) : CallPhase → Prop
  | .userpass _ => True
  | .resolving _ => True
  | .storing _ u => u = userpass
  | .sending _ u => u = userpass
  | .sent _ _ u => u = userpass
  | .refused _ => True

structure Renewed (userpass : String) (s : RpcState) : Prop where
  resolves : resolveAuth s.auth s.cookieFile = .ok userpass
  accepts : splitUserpass userpass ∈ s.accepted
  cache : NotStale userpass s.cachedUserpass
  phases : ∀ callId call, s.calls.lookup callId = some call → Carries userpass call.phase

/-- The error says that the client could not authenticate. -/
def isAuthError : RpcError → Bool
  | .cookieRead _ => true
  | .cookieEmpty _ => true
  | .authFailed => true
  | _ => false

def Authenticated (result : Except RpcError Value) : Prop :=
  ∀ e, result = .error e → isAuthError e = false

theorem authenticated_parseRpcResponse (v : Value) : Authenticated (parseRpcResponse v) := by
  intro e he
  cases v with
  | object fields =>
      simp only [parseRpcResponse] at he
      split at he
      · split at he <;> obtain rfl := Except.error.inj he <;> rfl
      · split at he
        · cases he
        · obtain rfl := Except.error.inj he
          rfl
  | null | bool | number | string | array =>
      obtain rfl := Except.error.inj he
      rfl

theorem authenticated_http : Authenticated (.error .http) := by
  intro e he
  obtain rfl := Except.error.inj he
  rfl

section Phases

variable {userpass : String} {s : RpcState}

theorem RetriesWith.of_cache {cached cached' : Option String} {phase : CallPhase}
    (hphase : RetriesWith userpass cached phase)
    (hcache : cached' = cached ∨ NotStale userpass cached') :
    RetriesWith userpass cached' phase := by
  rcases hcache with rfl | hfresh
  · exact hphase
  · cases phase with
    | userpass attempt => exact fun _ => hfresh
    | resolving | storing | sending | sent | refused => exact hphase

theorem Settled.move {t : RpcState} (hsettled : Settled userpass s) {callId : ℕ} {call : RpcCall}
    (hauth : t.auth = s.auth) (hfile : t.cookieFile = s.cookieFile)
    (haccepted : t.accepted = s.accepted) (hcalls : t.calls = s.calls.insert callId call)
    (hcache : t.cachedUserpass = s.cachedUserpass ∨ NotStale userpass t.cachedUserpass)
    (hphase : RetriesWith userpass t.cachedUserpass call.phase) : Settled userpass t where
  resolves := by rw [hauth, hfile, hsettled.resolves]
  accepts := haccepted ▸ hsettled.accepts
  cookie := hauth ▸ hsettled.cookie
  phases := by
    intro id other hother
    rw [hcalls, lookup_insert_eq_some_iff] at hother
    rcases hother with ⟨-, rfl⟩ | ⟨-, hother⟩
    · exact hphase
    · exact (hsettled.phases id other hother).of_cache hcache

theorem Settled.phase (hsettled : Settled userpass s) {callId : ℕ} {call : RpcCall}
    (hcall : s.calls.lookup callId = some call) {phase : CallPhase}
    (hphase : call.phase = phase) : RetriesWith userpass s.cachedUserpass phase :=
  hphase ▸ hsettled.phases callId call hcall

theorem Settled.finish (hsettled : Settled userpass s) (callId : ℕ)
    (result : Except RpcError Value) : Settled userpass (s.finish callId result) where
  resolves := hsettled.resolves
  accepts := hsettled.accepts
  cookie := hsettled.cookie
  phases := fun id other hother =>
    hsettled.phases id other (lookup_erase_eq_some_iff.mp hother).2

theorem Settled.answered (hsettled : Settled userpass s) (callId : ℕ) (response : HttpResponse) :
    Settled userpass (s.answered callId response) :=
  ⟨hsettled.resolves, hsettled.accepts, hsettled.cookie, hsettled.phases⟩

/-- The results that a step adds. -/
def NewResults (p : Except RpcError Value → Prop) (s t : RpcState) : Prop :=
  ∃ new, t.results = s.results ++ new ∧ ∀ result ∈ new, p result.2

theorem NewResults.none {p : Except RpcError Value → Prop} {t : RpcState}
    (hresults : t.results = s.results) : NewResults p s t :=
  ⟨[], by rw [hresults, List.append_nil], fun _ hmem => absurd hmem List.not_mem_nil⟩

theorem NewResults.finish {p : Except RpcError Value → Prop} (callId : ℕ)
    {result : Except RpcError Value} (hresult : p result) :
    NewResults p s (s.finish callId result) :=
  ⟨[(callId, result)], rfl, fun x hx => by rwa [List.mem_singleton.mp hx]⟩

theorem NewResults.trans {p : Except RpcError Value → Prop} {t u : RpcState}
    (hfirst : NewResults p s t) (hsecond : NewResults p t u) : NewResults p s u := by
  obtain ⟨new, hnew, hall⟩ := hfirst
  obtain ⟨new', hnew', hall'⟩ := hsecond
  refine ⟨new ++ new', by rw [hnew', hnew, List.append_assoc], ?_⟩
  intro result hresult
  rcases List.mem_append.mp hresult with h | h
  · exact hall result h
  · exact hall' result h

theorem Settled.step {t : RpcState} {a : RpcAction} (hsettled : Settled userpass s)
    (hundisturbed : undisturbed a = true) (hstep : RpcStep s a t) :
    Settled userpass t ∧ NewResults Authenticated s t := by
  obtain ⟨path, hcookie⟩ := hsettled.cookie
  cases hstep with
  | call method params perCallTimeout =>
      exact ⟨hsettled.move rfl rfl rfl rfl (.inl rfl) (fun h => nomatch h), .none rfl⟩
  | cached callId call attempt u hcall hphase hcache =>
      have hbefore := hsettled.phase hcall hphase
      exact ⟨hsettled.move rfl rfl rfl rfl (.inl rfl) (fun h => hbefore h u hcache), .none rfl⟩
  | notCached callId call attempt hcall hphase hcache =>
      exact ⟨hsettled.move rfl rfl rfl rfl (.inl rfl) trivial, .none rfl⟩
  | notResolved callId call attempt e hcall hphase hresolve =>
      rw [hsettled.resolves] at hresolve
      cases hresolve
  | resolved callId call attempt u hcall hphase hresolve =>
      rw [hsettled.resolves] at hresolve
      exact ⟨hsettled.move rfl rfl rfl rfl (.inl rfl) (Except.ok.inj hresolve).symm, .none rfl⟩
  | store callId call attempt u hcall hphase =>
      have hbefore := hsettled.phase hcall hphase
      have hfresh : NotStale userpass (some u) := fun v hv => Option.some.inj hv ▸ hbefore
      exact ⟨hsettled.move rfl rfl rfl rfl (.inr hfresh) (fun _ => hbefore), .none rfl⟩
  | sendFirst callId call u body hcall hphase hbody =>
      exact ⟨hsettled.move rfl rfl rfl rfl (.inl rfl) (fun h => nomatch h), .none rfl⟩
  | sendSecond callId call u body hcall hphase =>
      have hbefore := hsettled.phase hcall hphase
      exact ⟨hsettled.move rfl rfl rfl rfl (.inl rfl) hbefore, .none rfl⟩
  | refusedFirst callId call u body hcall hphase hrefuses =>
      exact ⟨hsettled.move rfl rfl rfl rfl (.inl rfl) trivial, .none rfl⟩
  | refusedSecond callId call u body hcall hphase hrefuses =>
      have hbefore := hsettled.phase hcall hphase
      obtain rfl := hbefore rfl
      exact absurd hsettled.accepts hrefuses
  | failed callId call retried u body hcall hphase =>
      exact ⟨(hsettled.answered callId _).finish callId _,
        .trans (.none rfl) (.finish callId authenticated_http)⟩
  | answered callId call retried u body v hcall hphase haccepts =>
      exact ⟨(hsettled.answered callId _).finish callId _,
        .trans (.none rfl) (.finish callId (authenticated_parseRpcResponse v))⟩
  | reload callId call body path hcall hphase hauth =>
      have hfresh : NotStale userpass none := fun v hv => nomatch hv
      exact ⟨hsettled.move rfl rfl rfl rfl (.inr hfresh) (fun _ => hfresh), .none rfl⟩
  | noReload callId call body user pass hcall hphase hauth =>
      rw [hcookie] at hauth
      cases hauth
  | writeCookie contents => cases hundisturbed
  | setAccepted accepted => cases hundisturbed

/-! No refusal at all. -/

theorem Renewed.move {t : RpcState} (hrenewed : Renewed userpass s) {callId : ℕ} {call : RpcCall}
    (hauth : t.auth = s.auth) (hfile : t.cookieFile = s.cookieFile)
    (haccepted : t.accepted = s.accepted) (hcalls : t.calls = s.calls.insert callId call)
    (hcache : NotStale userpass t.cachedUserpass) (hphase : Carries userpass call.phase) :
    Renewed userpass t where
  resolves := by rw [hauth, hfile, hrenewed.resolves]
  accepts := haccepted ▸ hrenewed.accepts
  cache := hcache
  phases := by
    intro id other hother
    rw [hcalls, lookup_insert_eq_some_iff] at hother
    rcases hother with ⟨-, rfl⟩ | ⟨-, hother⟩
    · exact hphase
    · exact hrenewed.phases id other hother

theorem Renewed.phase (hrenewed : Renewed userpass s) {callId : ℕ} {call : RpcCall}
    (hcall : s.calls.lookup callId = some call) {phase : CallPhase}
    (hphase : call.phase = phase) : Carries userpass phase :=
  hphase ▸ hrenewed.phases callId call hcall

theorem Renewed.finish (hrenewed : Renewed userpass s) (callId : ℕ)
    (result : Except RpcError Value) : Renewed userpass (s.finish callId result) where
  resolves := hrenewed.resolves
  accepts := hrenewed.accepts
  cache := hrenewed.cache
  phases := fun id other hother =>
    hrenewed.phases id other (lookup_erase_eq_some_iff.mp hother).2

theorem Renewed.answered (hrenewed : Renewed userpass s) (callId : ℕ) (response : HttpResponse) :
    Renewed userpass (s.answered callId response) :=
  ⟨hrenewed.resolves, hrenewed.accepts, hrenewed.cache, hrenewed.phases⟩

theorem Renewed.step {t : RpcState} {a : RpcAction} (hrenewed : Renewed userpass s)
    (hundisturbed : undisturbed a = true) (hstep : RpcStep s a t) : Renewed userpass t := by
  have hcache := hrenewed.cache
  cases hstep with
  | call method params perCallTimeout => exact hrenewed.move rfl rfl rfl rfl hcache trivial
  | cached callId call attempt u hcall hphase hcached =>
      exact hrenewed.move rfl rfl rfl rfl hcache (hcache u hcached)
  | notCached callId call attempt hcall hphase hnone =>
      exact hrenewed.move rfl rfl rfl rfl hcache trivial
  | notResolved callId call attempt e hcall hphase hresolve => exact hrenewed.finish callId _
  | resolved callId call attempt u hcall hphase hresolve =>
      rw [hrenewed.resolves] at hresolve
      exact hrenewed.move rfl rfl rfl rfl hcache (Except.ok.inj hresolve).symm
  | store callId call attempt u hcall hphase =>
      have hbefore := hrenewed.phase hcall hphase
      exact hrenewed.move rfl rfl rfl rfl (fun v hv => Option.some.inj hv ▸ hbefore) hbefore
  | sendFirst callId call u body hcall hphase hbody =>
      have hbefore := hrenewed.phase hcall hphase
      exact hrenewed.move rfl rfl rfl rfl hcache hbefore
  | sendSecond callId call u body hcall hphase =>
      have hbefore := hrenewed.phase hcall hphase
      exact hrenewed.move rfl rfl rfl rfl hcache hbefore
  | refusedFirst callId call u body hcall hphase hrefuses =>
      exact hrenewed.move rfl rfl rfl rfl hcache trivial
  | refusedSecond callId call u body hcall hphase hrefuses =>
      exact (hrenewed.answered callId _).finish callId _
  | failed callId call retried u body hcall hphase =>
      exact (hrenewed.answered callId _).finish callId _
  | answered callId call retried u body v hcall hphase haccepts =>
      exact (hrenewed.answered callId _).finish callId _
  | reload callId call body path hcall hphase hauth =>
      exact hrenewed.move rfl rfl rfl rfl (fun v hv => nomatch hv) trivial
  | noReload callId call body user pass hcall hphase hauth => exact hrenewed.finish callId _
  | writeCookie contents => cases hundisturbed
  | setAccepted accepted => cases hundisturbed

theorem Renewed.not_refused {t : RpcState} {callId : ℕ} (hrenewed : Renewed userpass s) :
    ¬ RpcStep s (.answer callId .unauthorized) t := by
  intro hstep
  cases hstep with
  | refusedFirst _ call u body hcall hphase hrefuses =>
      have hcarries := hrenewed.phase hcall hphase
      exact hrefuses (hcarries ▸ hrenewed.accepts)
  | refusedSecond _ call u body hcall hphase hrefuses =>
      have hcarries := hrenewed.phase hcall hphase
      exact hrefuses (hcarries ▸ hrenewed.accepts)

end Phases

/-- The state is settled, and all calls that have ended since `s` were let in. -/
def SettledSince (userpass : String) (s t : RpcState) : Prop :=
  Settled userpass t ∧ NewResults Authenticated s t

/-- From a settled state on, every call that ends has been let in, whatever the calls that run at
the same time do to the cache; and once nothing stale is held, the server refuses no request. -/
theorem settled_calls_authenticate (userpass : String) (s t : RpcState)
    (hreaches : Reaches rpcStep (fun _ a => undisturbed a = true) s t) :
    (Settled userpass s → NewResults Authenticated s t) ∧
    (Renewed userpass s → ∀ callId, rpcStep t (.answer callId .unauthorized) = none) := by
  constructor
  · intro hsettled
    have hend : SettledSince userpass s t := by
      apply Reaches.invariant hreaches
      · exact ⟨hsettled, .none rfl⟩
      · rintro u a v ⟨hsettled, hresults⟩ hundisturbed hstep
        obtain ⟨hsettled', hnew⟩ := hsettled.step hundisturbed (rpcStep_cases hstep)
        exact ⟨hsettled', hresults.trans hnew⟩
    exact hend.2
  · intro hrenewed callId
    have hend : Renewed userpass t :=
      hreaches.invariant hrenewed fun _ _ _ hinv hundisturbed hstep =>
        hinv.step hundisturbed (rpcStep_cases hstep)
    cases hstep : rpcStep t (.answer callId .unauthorized) with
    | none => rfl
    | some u => exact absurd (rpcStep_cases hstep) hend.not_refused

/-- bitcoind has written a new cookie since the client cached the old one. -/
def rotatedClient (cachedUserpass : Option String) : RpcState where
  auth := .cookie ".cookie"
  cachedUserpass
  nextId := 2
  cookieFile := some "__cookie__:new\n"
  accepted := [("__cookie__", "new")]

theorem accepts_new : splitUserpass "__cookie__:new" ∈ [("__cookie__", "new")] := by
  decide +kernel

theorem settled_rotatedClient (cachedUserpass : Option String) :
    Settled "__cookie__:new" (rotatedClient cachedUserpass) where
  resolves := rfl
  accepts := accepts_new
  cookie := ⟨_, rfl⟩
  phases := fun _ _ hcall => nomatch hcall

theorem renewed_rotatedClient : Renewed "__cookie__:new" (rotatedClient none) where
  resolves := rfl
  accepts := accepts_new
  cache := fun _ hcached => nomatch hcached
  phases := fun _ _ hcall => nomatch hcall

/-- A call with the cookie that is cached, and the same call with the one in the file. -/
theorem settled_calls_authenticate_after_rotation :
    (∃ t, Reaches rpcStep (fun _ a => undisturbed a = true)
        (rotatedClient (some "__cookie__:old")) t ∧
      (t.requests.map HttpRequest.basicAuth == [("__cookie__", "old"), ("__cookie__", "new")] &&
        t.results.length == 1) = true ∧
      NewResults Authenticated (rotatedClient (some "__cookie__:old")) t) ∧
    ∃ t, Reaches rpcStep (fun _ a => undisturbed a = true) (rotatedClient none) t ∧
      (t.requests.length == 1) = true ∧ rpcStep t (.answer 0 .unauthorized) = none := by
  constructor
  · obtain ⟨t, hreaches, ht⟩ := exists_reaches_of_runGuarded rpcStep (fun _ a => undisturbed a)
      (rotatedClient (some "__cookie__:old"))
      [.call "getbestblockhash" (.array []) none, .readCache 0, .send 0, .answer 0 .unauthorized,
        .reload 0, .readCache 0, .resolve 0, .store 0, .send 0,
        .answer 0 (.value (.object [("result", .string "00"), ("error", .null)]))]
      (fun t => t.requests.map HttpRequest.basicAuth ==
        [("__cookie__", "old"), ("__cookie__", "new")] && t.results.length == 1)
      (by decide +kernel)
    exact ⟨t, hreaches, ht,
      (settled_calls_authenticate _ _ t hreaches).1 (settled_rotatedClient _)⟩
  · obtain ⟨t, hreaches, ht⟩ := exists_reaches_of_runGuarded rpcStep (fun _ a => undisturbed a)
      (rotatedClient none)
      [.call "getbestblockhash" (.array []) none, .readCache 0, .resolve 0, .store 0, .send 0]
      (fun t => t.requests.length == 1) (by decide +kernel)
    exact ⟨t, hreaches, ht,
      (settled_calls_authenticate _ _ t hreaches).2 renewed_rotatedClient 0⟩

end DatumGateway.CookieReloads

import XiraNet.Gateway.Responses

/-!
# Gateway handler around the upstream

`gateway_handler` of `gateway/mod.rs` at the cache check, and again from the result of the contact
with an upstream to the response. Other executions run between the two.

* `gatewayHandler_cacheHit`: the cache check is the one that the handler makes after its checks.
* `onResponse_eq_ok`: the plugins only add headers to a result.
-/

namespace XiraNet

/-- `response_is_cacheable`. -/
def responseIsCacheable (headers : List (String × String)) : Bool :=
  headers.all fun h =>
    let headerName := Text.toAsciiLowercase h.1
    !(headerName = "set-cookie") &&
      !(headerName = "cache-control" && Gateway.cacheControlDisablesStorage h.2) &&
        !(headerName = "vary" && Text.trim h.2 = "*")

/-- The `on_response` hooks of the plugins: headers are added to the result, and an action that
blocks replaces it by a response of its own. -/
def onResponse : List PluginAction → ProxyResult → Except HttpResponse ProxyResult
  | [], r => .ok r
  | .addHeader key value :: actions, r =>
      onResponse actions { r with headers := r.headers ++ [(key, value)] }
  | .block status message :: _, _ =>
      -- The later plugins are not asked, and nothing goes to the cache.
      .error (.json (statusOr 500 status) [("error", .string "Blocked by plugin (response)"),
        ("message", .string message)])
  | .continue :: actions, r => onResponse actions r

/-- An execution of the handler whose request has passed the checks. -/
structure GatewayExecution where
  request : HttpRequest
  service : ServiceEntry
  requestId : String
  /-- `config.cache.enabled`, as the execution has read it. -/
  cacheEnabled : Bool

namespace GatewayExecution

/-- The key of the request, if it may be answered from the cache. -/
def cacheKey (e : GatewayExecution) : Option String :=
  if e.request.method = "GET" ∧ e.cacheEnabled ∧ Gateway.requestIsCacheable e.request then
    some (Gateway.makeKey "GET" e.request.path e.request.query)
  else none

/-- The cache check. -/
def lookup (e : GatewayExecution) (now : Instant) (cache : ResponseCache) :
    Option CachedReply × ResponseCache :=
  match e.cacheKey with
  | some key => cache.get now key e.request.headers.texts
  | none => (none, cache)

/-- The key under which a result goes to the cache. -/
def storeKey (e : GatewayExecution) (r : ProxyResult) : Option String :=
  if e.request.method = "GET" ∧ r.isError = false ∧ 200 ≤ r.status ∧ r.status < 300 ∧
      responseIsCacheable r.headers then e.cacheKey
  else none

/-- The cache after a result was offered to it. -/
def store (e : GatewayExecution) (now : Instant) (r : ProxyResult) (cache : ResponseCache) :
    ResponseCache :=
  match e.storeKey r with
  | some key => cache.put now key r.status r.headers r.body
  | none => cache

/-- The execution from the result of the contact with the upstream to the response: the plugins,
the cache, and only then the rules of the service. -/
def finish (lib : HttpLib) (e : GatewayExecution) (now : Instant) (duration : String)
    (actions : List PluginAction) (result : ProxyResult) (cache : ResponseCache) :
    Except HttpResponse SentResponse × ResponseCache :=
  match onResponse actions result with
  | .error res => (.error res, cache)
  | .ok r =>
      -- The cache gets the result as the plugins left it, the client what the rules make of it.
      (.ok (missResponse lib e.service.transform e.requestId duration r), e.store now r cache)

/-- What is known of a request with a key. -/
theorem of_cacheKey_eq_some {e : GatewayExecution} {key : String} (h : e.cacheKey = some key) :
    e.request.method = "GET" ∧ Gateway.requestIsCacheable e.request = true ∧
      key = Gateway.makeKey "GET" e.request.path e.request.query := by
  simp only [cacheKey, Option.ite_none_right_eq_some, Option.some.injEq] at h
  exact ⟨h.1.1, h.1.2.2, h.2.symm⟩

/-- What is known of a result that goes to the cache. -/
theorem of_storeKey_eq_some {e : GatewayExecution} {r : ProxyResult} {key : String}
    (h : e.storeKey r = some key) :
    e.cacheKey = some key ∧ r.isError = false ∧ responseIsCacheable r.headers = true := by
  simp only [storeKey, Option.ite_none_right_eq_some] at h
  exact ⟨h.2, h.1.2.1, h.1.2.2.2.2⟩

end GatewayExecution

/-- The plugins leave everything but the headers of a result alone, and only add to these. -/
theorem onResponse_eq_ok {actions : List PluginAction} {result r : ProxyResult}
    (h : onResponse actions result = .ok r) :
    ∃ added, r = { result with headers := result.headers ++ added } := by
  induction actions generalizing result with
  | nil =>
      cases h
      exact ⟨[], by rw [List.append_nil]⟩
  | cons action actions ih =>
      cases action with
      | «continue» => exact ih h
      | block status message => cases h
      | addHeader key value =>
          -- The header of this plugin comes before those of the later ones.
          obtain ⟨added, rfl⟩ := ih h
          exact ⟨(key, value) :: added, by simp⟩

/-- A response that `gateway_handler` takes from the cache is what the cache check finds. -/
theorem gatewayHandler_cacheHit {env : GatewayEnv} {g : Gateway} {req : HttpRequest}
    {cache : ResponseCache} {reply : CachedReply}
    (hget : env.cacheGet = fun key headers => (cache.get env.now key headers).1)
    (h : (Gateway.gatewayHandler env g req).1 = .cacheHit reply) :
    ∃ service, Gateway.runChecks env g req = .ok service ∧
      (GatewayExecution.lookup ⟨req, service, Gateway.requestId env req, g.cacheEnabled⟩ env.now
        cache).1 = some reply := by
  unfold Gateway.gatewayHandler at h
  split at h
  next => cases h
  next service hchecks =>
    refine ⟨service, hchecks, ?_⟩
    split at h
    next => cases h
    next =>
      dsimp only at h
      split at h
      next found hfound =>
        cases h
        -- The lookup of the handler is the lookup of an execution.
        simp only [Gateway.cacheLookup, hget] at hfound
        simp only [GatewayExecution.lookup, GatewayExecution.cacheKey]
        split at hfound
        next hkey =>
          rw [if_pos hkey]
          exact hfound
        next => cases hfound
      next =>
        unfold Gateway.forward at h
        dsimp only at h
        split at h <;> cases h

end XiraNet

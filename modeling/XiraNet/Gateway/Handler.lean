import XiraNet.Gateway.CircuitBreaker
import XiraNet.Gateway.LoadBalancer
import XiraNet.Middleware.Validation
import XiraNet.Middleware.Waf

/-!
# Gateway handler

`gateway_handler` of `gateway/mod.rs`, from the request to the contact with an upstream. What the
handler does with the answer of the upstream is not part of this module. Plugins, the bot detector
and the response cache are known by their answers; metrics and log lines are left out.

* `runChecks`: the checks of the handler up to the plugins, in the order of the source.
* `runChecks_eq_ok`: what is known of a request that has passed them.
-/

namespace XiraNet

/-- The verdict of the bot detector. -/
inductive BotVerdict
  | human
  | bot (name : String)
  | rateLimited
  | blocked
  deriving DecidableEq, Repr

/-- What a plugin asks for. -/
inductive PluginAction
  | continue
  | block (status : ℕ) (message : String)
  | addHeader (key value : String)
  deriving DecidableEq, Repr

/-- A response held in the cache. -/
structure CachedReply where
  status : ℕ
  headers : List (String × String)
  body : List UInt8
  deriving DecidableEq, Repr

/-- The shared state that the handler works on. -/
structure Gateway where
  registry : ServiceRegistry
  cbManager : CircuitBreakerManager
  lb : LoadBalancer
  waf : Waf
  /-- `config.cache.enabled`. -/
  cacheEnabled : Bool
  /-- `config.retry.max_retries`. -/
  maxRetries : ℕ

/-- What an execution of the handler takes from elsewhere. -/
structure GatewayEnv where
  now : Instant
  schemaLib : SchemaLib
  /-- `Uuid::new_v4`, for the request id. -/
  freshRequestId : String
  /-- `BotDetector::check`, on the address and the user agent. -/
  botCheck : String → String → BotVerdict
  /-- `PluginManager::execute_on_request`, on the method, the path and the headers. -/
  pluginOnRequest : String → String → List (String × String) → List PluginAction
  /-- `ResponseCache::get`, on the key and the headers. -/
  cacheGet : String → List (String × String) → Option CachedReply
  /-- The random number of the load balancer. -/
  rand : ℕ

/-- A request on its way to an upstream. -/
structure Forwarded where
  service : ServiceEntry
  upstream : String
  method : String
  url : String

/-- How an execution of the handler goes on. -/
inductive GatewayOutcome
  /-- The handler answers itself. -/
  | respond (res : HttpResponse)
  /-- The cached response is returned. -/
  | cacheHit (reply : CachedReply)
  /-- An upstream is contacted. -/
  | forward (f : Forwarded)
  /-- The method is not forwarded: the result is a 405 that no upstream has seen. -/
  | notSupported (service : ServiceEntry) (upstream : String)

namespace Gateway

/-- The request id of the client, or a fresh one. -/
def requestId (env : GatewayEnv) (req : HttpRequest) : String :=
  (req.header "x-request-id").getD env.freshRequestId

/-- The peer address as logged and given to the firewall and the bot detector. -/
def peerIpLog (req : HttpRequest) : String := (req.peerAddr.map IpAddr.text).getD "-"

/-- The paths that the gateway leaves to the admin API and the dashboard. -/
def isInternalPath (path : String) : Bool :=
  Text.startsWith path "/xira" || path = "/metrics" || path = "/ws" || path = "/dashboard"

/-- What the firewall says of a request. -/
def wafVerdict (waf : Waf) (req : HttpRequest) : WafVerdict :=
  waf.inspect req.path (some req.query) (Utf8.lossy req.body) req.headers.texts (peerIpLog req)

/-- The firewall. -/
def wafCheck (env : GatewayEnv) (waf : Waf) (req : HttpRequest) : Except HttpResponse Unit :=
  match wafVerdict waf req with
  | .block _ rule =>
      throw (.json 403 [("error", .string "Blocked by WAF"), ("rule", .string rule),
        ("request_id", .string (requestId env req))])
  | .allow => pure ()

/-- The bot detector. -/
def botCheck (env : GatewayEnv) (req : HttpRequest) : Except HttpResponse Unit :=
  match env.botCheck (peerIpLog req) ((req.header "user-agent").getD "") with
  | .blocked =>
      throw (.json 403 [("error", .string "Bot blocked"),
        ("request_id", .string (requestId env req))])
  | .rateLimited =>
      throw (.json 429 [("error", .string "Bot rate limited"),
        ("request_id", .string (requestId env req))])
  | .human => pure ()
  | .bot _ => pure ()

/-- The service of the path. -/
def findService (registry : ServiceRegistry) (path : String) : Except HttpResponse ServiceEntry :=
  match registry.lookup path with
  | some service => pure service
  | none =>
      throw (.json 404 [("error", .string "No service registered for this path"),
        ("path", .string path)])

/-- The IP filter of a service. -/
def ipCheck (service : ServiceEntry) (peerIp : String) : Except HttpResponse Unit :=
  if peerIp ∈ service.ipBlacklist then
    throw (.json 403 [("error", .string "Access denied by service IP filter"),
      ("service", .string service.name)])
  else if service.ipWhitelist ≠ [] ∧ peerIp ∉ service.ipWhitelist then
    throw (.json 403 [("error", .string "Access denied by service IP whitelist"),
      ("service", .string service.name)])
  else pure ()

/-- The validation of the body, for a service with a schema. -/
def validationCheck (env : GatewayEnv) (registry : ServiceRegistry) (service : ServiceEntry)
    (req : HttpRequest) : Except HttpResponse Unit :=
  -- The validator looks the service up again, under the same path.
  if service.validationSchema.isSome then
    match validateRequestBody env.schemaLib registry req with
    | some res => throw res
    | none => pure ()
  else pure ()

/-- The response to the first action that blocks. -/
def pluginBlock : List PluginAction → Option HttpResponse
  | [] => none
  | .block status message :: _ =>
      some (.json (statusOr 403 status) [("error", .string "Blocked by plugin"),
        ("message", .string message)])
  | .continue :: actions => pluginBlock actions
  | .addHeader _ _ :: actions => pluginBlock actions

/-- The `on_request` hooks of the plugins. -/
def pluginCheck (env : GatewayEnv) (req : HttpRequest) : Except HttpResponse Unit :=
  match pluginBlock (env.pluginOnRequest req.method req.path req.headers.texts) with
  | some res => throw res
  | none => pure ()

/-- The checks up to the plugins: the service that the request is for, or the refusal. -/
def runChecks (env : GatewayEnv) (g : Gateway) (req : HttpRequest) :
    Except HttpResponse ServiceEntry := do
  if isInternalPath req.path then
    throw (.json 404 [("error", .string "Not found via gateway")])
  wafCheck env g.waf req
  botCheck env req
  let service ← findService g.registry req.path
  ipCheck service req.peerIp
  validationCheck env g.registry service req
  pluginCheck env req
  return service

/-- `cache_control_disables_storage`. -/
def cacheControlDisablesStorage (value : String) : Bool :=
  let normalized := Text.toAsciiLowercase value
  Text.contains normalized "no-store" || Text.contains normalized "private" ||
    Text.contains normalized "no-cache"

/-- `request_is_cacheable`. -/
def requestIsCacheable (req : HttpRequest) : Bool :=
  req.headers.all fun h =>
    let headerName := Text.toAsciiLowercase h.1
    headerName ∉ ["authorization", "cookie", "proxy-authorization", "x-api-key", "upgrade",
        "range"] &&
      !(headerName = "cache-control" && (HeaderValue.toStr h.2).any cacheControlDisablesStorage)

/-- `ResponseCache::make_key`. -/
def makeKey (method path query : String) : String :=
  if query = "" then method ++ ":" ++ path else method ++ ":" ++ path ++ "?" ++ query

/-- The cached response to a request, if the request may be answered from the cache. -/
def cacheLookup (env : GatewayEnv) (g : Gateway) (req : HttpRequest) : Option CachedReply :=
  if req.method = "GET" ∧ g.cacheEnabled ∧ requestIsCacheable req then
    env.cacheGet (makeKey "GET" req.path req.query) req.headers.texts
  else none

/-- The path without the prefix of the service. -/
def downstreamPath (service : ServiceEntry) (path : String) : String :=
  let rest := (Text.stripPrefix path service.pathPrefix).getD "/"
  if rest = "" then "/" else rest

/-- The URL that is requested from an upstream. -/
def downstreamUrl (service : ServiceEntry) (upstream : String) (req : HttpRequest) : String :=
  if req.query = "" then upstream ++ downstreamPath service req.path
  else upstream ++ downstreamPath service req.path ++ "?" ++ req.query

/-- The methods that are forwarded. -/
def forwardedMethods : List String :=
  ["GET", "POST", "PUT", "DELETE", "PATCH", "HEAD", "OPTIONS"]

/-- The method that is sent. With retries a method that is not forwarded counts as `GET`, which
may be retried; without them it is not sent at all. -/
def sentMethod (maxRetries : ℕ) (method : String) : Option String :=
  if method ∈ forwardedMethods then some method
  else if 0 < maxRetries then some "GET"
  else none

/-- The choice of an upstream and the contact with it. -/
def forward (env : GatewayEnv) (g : Gateway) (service : ServiceEntry) (req : HttpRequest) :
    GatewayOutcome × Gateway :=
  let strategy := (service.loadBalance.map LoadBalanceStrategy.fromStr).getD .roundRobin
  let (upstream, lb) := g.lb.selectUpstream env.rand service.id service.allUpstreams strategy
  let g := { g with lb := lb.acquireConnection upstream }
  match sentMethod g.maxRetries req.method with
  | some method => (.forward ⟨service, upstream, method, downstreamUrl service upstream req⟩, g)
  | none => (.notSupported service upstream, g)

/-- The response while the breaker of a service is open. -/
def breakerOpenResponse (service : ServiceEntry) : HttpResponse :=
  .json 503 [("error", .string "Service temporarily unavailable (circuit breaker open)"),
    ("service", .string service.name)]

/-- `gateway_handler`, up to the contact with an upstream. -/
def gatewayHandler (env : GatewayEnv) (g : Gateway) (req : HttpRequest) :
    GatewayOutcome × Gateway :=
  match runChecks env g req with
  | .error res => (.respond res, g)
  | .ok service =>
      match g.cbManager.allowRequest env.now service.id with
      | (.error _, cbManager) =>
          (.respond (breakerOpenResponse service), { g with cbManager })
      | (.ok (), cbManager) =>
          let g := { g with
            cbManager
            registry := g.registry.incrementRequestCount service.id }
          -- The cache HIT return: the breaker is not told that the execution is over.
          match cacheLookup env g req with
          | some reply => (.cacheHit reply, g)
          | none => forward env g service req

/-- A step of a sequence of checks that has passed. -/
theorem bind_eq_ok {ε α β : Type} {x : Except ε α} {f : α → Except ε β} {b : β}
    (h : (x >>= f) = .ok b) : ∃ a, x = .ok a ∧ f a = .ok b := by
  cases x with
  | error e => cases h
  | ok a => exact ⟨a, rfl, h⟩

/-- A request that passes the firewall was not blocked. -/
theorem wafCheck_eq_ok {env : GatewayEnv} {waf : Waf} {req : HttpRequest}
    (h : wafCheck env waf req = .ok ()) : wafVerdict waf req = .allow := by
  unfold wafCheck at h
  split at h
  next => cases h
  next hverdict => exact hverdict

/-- What `findService` finds is what `lookup` finds. -/
theorem findService_eq_ok {registry : ServiceRegistry} {path : String} {service : ServiceEntry} :
    findService registry path = .ok service ↔ registry.lookup path = some service := by
  unfold findService
  cases registry.lookup path with
  | none => exact iff_of_false (fun h => nomatch h) (fun h => nomatch h)
  | some found =>
      constructor
      · rintro ⟨⟩
        rfl
      · rintro ⟨⟩
        rfl

/-- An address that passes the IP filter. -/
theorem ipCheck_eq_ok {service : ServiceEntry} {peerIp : String}
    (h : ipCheck service peerIp = .ok ()) :
    peerIp ∉ service.ipBlacklist ∧ (service.ipWhitelist ≠ [] → peerIp ∈ service.ipWhitelist) := by
  unfold ipCheck at h
  split at h
  next => cases h
  next hblack =>
    split at h
    next => cases h
    next hwhite => exact ⟨hblack, fun hne => not_not.mp fun hmem => hwhite ⟨hne, hmem⟩⟩

/-- A body that passes the validation, for the service that serves the request. -/
theorem validationCheck_eq_ok {env : GatewayEnv} {registry : ServiceRegistry}
    {service : ServiceEntry} {req : HttpRequest}
    (hservice : registry.lookup req.path = some service)
    (h : validationCheck env registry service req = .ok ()) :
    SatisfiesSchema env.schemaLib service req := by
  unfold validationCheck at h
  split at h
  next =>
    split at h
    next => cases h
    next hnone => exact validateRequestBody_eq_none hservice hnone
  -- Without a schema there is nothing to satisfy.
  next hschema =>
    intro _ _ schema hmem
    rw [Option.not_isSome_iff_eq_none.mp hschema] at hmem
    cases hmem

/-- What is known of a request that has passed the checks. -/
structure Admitted (env : GatewayEnv) (g : Gateway) (req : HttpRequest) (service : ServiceEntry) :
    Prop where
  external : isInternalPath req.path = false
  waf : wafVerdict g.waf req = .allow
  lookup : g.registry.lookup req.path = some service
  blacklist : req.peerIp ∉ service.ipBlacklist
  whitelist : service.ipWhitelist ≠ [] → req.peerIp ∈ service.ipWhitelist
  schema : SatisfiesSchema env.schemaLib service req

/-- Every check has passed when the sequence of checks has. -/
theorem runChecks_eq_ok {env : GatewayEnv} {g : Gateway} {req : HttpRequest}
    {service : ServiceEntry} (h : runChecks env g req = .ok service) :
    Admitted env g req service := by
  unfold runChecks at h
  split at h
  next => cases h
  next hexternal =>
    -- One check after the other, in the order of the source.
    obtain ⟨_, hwaf, h⟩ := bind_eq_ok h
    obtain ⟨_, -, h⟩ := bind_eq_ok h
    obtain ⟨found, hfound, h⟩ := bind_eq_ok h
    obtain ⟨_, hip, h⟩ := bind_eq_ok h
    obtain ⟨_, hvalid, h⟩ := bind_eq_ok h
    obtain ⟨_, -, h⟩ := bind_eq_ok h
    cases h
    have hlookup := findService_eq_ok.mp hfound
    obtain ⟨hblack, hwhite⟩ := ipCheck_eq_ok hip
    exact ⟨Bool.eq_false_iff.mpr hexternal, wafCheck_eq_ok hwaf, hlookup, hblack, hwhite,
      validationCheck_eq_ok hlookup hvalid⟩

/-- `forward` contacts one of the upstreams of the service it is given. -/
theorem forward_spec {env : GatewayEnv} {g : Gateway} {service : ServiceEntry} {req : HttpRequest}
    {f : Forwarded} (h : (forward env g service req).1 = .forward f) :
    f.service = service ∧ f.upstream ∈ service.allUpstreams := by
  unfold forward at h
  dsimp only at h
  split at h
  next =>
    cases h
    exact ⟨rfl, LoadBalancer.selectUpstream_mem _ _ _ _
      (List.ne_nil_of_mem service.upstream_mem_allUpstreams)⟩
  next => cases h

/-- A request that reaches an upstream has passed the checks for the service of the upstream. -/
theorem gatewayHandler_forward {env : GatewayEnv} {g : Gateway} {req : HttpRequest}
    {f : Forwarded} (h : (gatewayHandler env g req).1 = .forward f) :
    runChecks env g req = .ok f.service ∧ f.upstream ∈ f.service.allUpstreams := by
  unfold gatewayHandler at h
  split at h
  next => cases h
  next service hchecks =>
    split at h
    next => cases h
    next =>
      dsimp only at h
      split at h
      next => cases h
      next =>
        obtain ⟨rfl, hupstream⟩ := forward_spec h
        exact ⟨hchecks, hupstream⟩

end Gateway

end XiraNet

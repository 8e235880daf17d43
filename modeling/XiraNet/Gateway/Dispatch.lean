import XiraNet.Middleware.ApiKey
import XiraNet.Middleware.Jwt

/-!
# Dispatch

The way of a request through the route table of `main.rs`: the scopes with their inner routes, and
the handler that a request ends in. A request that a scope has no route for goes to the default
service of the application, `gateway_handler`.

* `gatewayHandler_letThrough`: what the gateway handler does with a request that nothing stops.
* `reachesService_iff`: the requests that reach the service registered for their path.
* `reachesService_fails`: a registered service that no request reaches.
-/

namespace XiraNet

/-- Whether the segments of a path match those of a pattern. A segment in braces stands for any
segment that is not empty. -/
def matchesSegments : List (List Char) → List (List Char) → Bool
  | [], [] => true
  | ('{' :: _) :: pattern, segment :: path => segment ≠ [] && matchesSegments pattern path
  | literal :: pattern, segment :: path => literal = segment && matchesSegments pattern path
  | _, _ => false

/-- Whether one of the routes of a scope, given by method and pattern, is for a request. -/
def hasRoute (routes : List (String × String)) (method path : String) : Bool :=
  routes.any fun route => route.1 = method &&
    matchesSegments (Path.segments route.2.toList) (Path.segments path.toList)

/-- The routes of `admin::configure`, in the scope `/xira`. -/
def adminRoutes : List (String × String) :=
  [("GET", "/services"), ("POST", "/services"), ("DELETE", "/services/{id}"),
    ("GET", "/services/{id}/health"), ("GET", "/stats"), ("GET", "/health"), ("GET", "/events"),
    ("GET", "/logs"), ("POST", "/cache/clear"), ("GET", "/circuit-breakers"), ("GET", "/plugins"),
    ("GET", "/versions"), ("GET", "/log-stats"), ("GET", "/config"), ("PUT", "/config"),
    ("GET", "/docs"), ("GET", "/docs/spec"),
    ("GET", "/identity/users"), ("POST", "/identity/users"), ("GET", "/identity/sessions"),
    ("POST", "/identity/sessions/flush"),
    ("GET", "/automation/cron"), ("POST", "/automation/cron"), ("DELETE", "/automation/cron/{id}"),
    ("GET", "/automation/workflows"), ("GET", "/automation/events"),
    ("POST", "/automation/events/publish"),
    ("GET", "/observability/logs"), ("GET", "/observability/uptime"),
    ("GET", "/observability/incidents"), ("POST", "/observability/incidents"),
    ("POST", "/observability/incidents/{id}/update"),
    ("GET", "/db/connections"), ("GET", "/db/slow-queries"), ("GET", "/db/firewall/stats"),
    ("GET", "/deployment/flags"), ("POST", "/deployment/flags"),
    ("POST", "/deployment/flags/{name}/toggle"), ("GET", "/deployment/releases"),
    ("POST", "/deployment/releases"), ("POST", "/deployment/releases/{id}/switch"),
    ("GET", "/pipeline/watchers"), ("POST", "/pipeline/watchers"), ("GET", "/pipeline/analytics"),
    ("GET", "/security/waf"), ("GET", "/security/waf/rules"), ("POST", "/security/waf/rules"),
    ("DELETE", "/security/waf/rules/{id}"), ("GET", "/security/bots"), ("GET", "/security/audit"),
    ("GET", "/advanced-metrics"), ("GET", "/health-scoring"), ("GET", "/sla"),
    ("GET", "/oauth2/status"), ("POST", "/oauth2/introspect"), ("POST", "/oauth2/cache/clear"),
    ("GET", "/mesh/services"), ("POST", "/mesh/services")]

/-- The routes of the scope `/auth/admin`. -/
def userAdminRoutes : List (String × String) :=
  [("GET", "/users"), ("PUT", "/users/{id}/role"), ("POST", "/users/{id}/disable"),
    ("POST", "/users/{id}/mfa/disable"), ("POST", "/users/{id}/logout-all")]

/-- The routes of the scope `/auth` that need no session. -/
def loginRoutes : List (String × String) := [("POST", "/login"), ("POST", "/mfa/login")]

/-- The routes of the scope `/auth` that need a session. -/
def sessionRoutes : List (String × String) :=
  [("GET", "/me"), ("POST", "/logout"), ("POST", "/logout-all"), ("GET", "/sessions"),
    ("POST", "/mfa/enroll"), ("POST", "/mfa/verify")]

/-- The path below a scope. -/
def belowScope (scope path : String) : String := (Text.stripPrefix path scope).getD ""

/-- What the route table takes from elsewhere. -/
structure DispatchEnv where
  entry : EntryEnv
  /-- Whether `SessionAuth` lets a request through. -/
  sessionAuth : HttpRequest → Bool
  /-- Whether `RequireRole` lets a request through. -/
  requireRole : HttpRequest → Bool

/-- The handler of the scope `/auth`, if it is one that forwards. -/
def authEntryPoint (env : DispatchEnv) (req : HttpRequest) (path : String) : Option EntryPoint :=
  -- The scope of the administrators comes before the routes without a session.
  if inScope "/admin" path then
    if env.sessionAuth req && env.requireRole req &&
        !hasRoute userAdminRoutes req.method (belowScope "/admin" path) then some .gatewayHandler
    else none
  else if hasRoute loginRoutes req.method path then none
  else if env.sessionAuth req && !hasRoute sessionRoutes req.method path then some .gatewayHandler
  else none

/-- The handler that a request ends in, if it is one that forwards. -/
def entryPointOf (cfg : RouteConfig) (env : DispatchEnv) (req : HttpRequest) : Option EntryPoint :=
  let path := decodePath req.path
  match routeOf cfg req.method req.path with
  | .dashboard => none
  | .health => none
  | .auth => authEntryPoint env req (belowScope "/auth" path)
  | .wsMetrics => none
  | .wsDashboard => none
  | .wsProxy => some .websocketProxy
  | .versioned => some .versionedGatewayHandler
  | .metrics => none
  | .admin =>
      if hasRoute adminRoutes req.method (belowScope "/xira" path) then none
      else some .gatewayHandler
  | .gateway => some .gatewayHandler

/-- What reaches an upstream of a request, if anything does. -/
def dispatch (cfg : RouteConfig) (env : DispatchEnv) (g : Gateway) (req : HttpRequest) :
    Option Forwarded :=
  (entryPointOf cfg env req).bind (forwardedBy env.entry g req)

/-- The scopes that the gateway keeps for itself. -/
def reservedScopes : List String := ["/metrics", "/health", "/dashboard", "/auth", "/ws", "/xira"]

/-- Nothing stops a request on its way to a service. -/
structure LetThrough (env : GatewayEnv) (g : Gateway) (req : HttpRequest) (service : ServiceEntry) :
    Prop where
  waf : Gateway.wafCheck env g.waf req = .ok ()
  bot : Gateway.botCheck env req = .ok ()
  ip : Gateway.ipCheck service req.peerIp = .ok ()
  validation : Gateway.validationCheck env g.registry service req = .ok ()
  plugin : Gateway.pluginCheck env req = .ok ()
  breaker : (g.cbManager.allowRequest env.now service.id).1 = .ok ()

/-- What the path of a service is for an upstream: the rest behind the prefix, or the root, and the
query. -/
def restUrl (rest query : String) : String :=
  (if rest = "" then "/" else rest) ++ (if query = "" then "" else "?" ++ query)

/-- A request reaches the service: it is sent to one of its upstreams, with what stands behind the
prefix and the query. -/
def ReachesService (cfg : RouteConfig) (env : DispatchEnv) (g : Gateway) (req : HttpRequest)
    (service : ServiceEntry) : Prop :=
  ∃ f rest, dispatch cfg env g req = some f ∧ f.service = service ∧
    f.upstream ∈ service.allUpstreams ∧ req.path = service.pathPrefix ++ rest ∧
      f.url = f.upstream ++ restUrl rest req.query

/-- The gateway handler gets a request, and sends it. -/
structure SentByGateway (cfg : RouteConfig) (env : DispatchEnv) (g : Gateway) (req : HttpRequest) :
    Prop where
  dispatched : entryPointOf cfg env req = some .gatewayHandler
  external : Text.startsWith req.path "/xira" = false
  uncached : Gateway.cacheLookup env.entry.gateway g req = none
  method : req.method ∈ Gateway.forwardedMethods ∨ 0 < g.maxRetries

/-- The WebSocket proxy gets a handshake that looks to the upstream as the gateway would send it. -/
structure SentByProxy (cfg : RouteConfig) (env : DispatchEnv) (req : HttpRequest)
    (service : ServiceEntry) : Prop where
  dispatched : entryPointOf cfg env req = some .websocketProxy
  accepted : env.entry.wsRefusal req = none
  upstream : Text.replace (Text.replace service.upstream "http://" "ws://") "https://" "wss://" =
    service.upstream
  query : req.query = ""

namespace Gateway

/-- What the gateway handler sends has its URL made from the path and the query, and no cached
response or unknown method has kept it back. -/
theorem gatewayHandler_sent {env : GatewayEnv} {g : Gateway} {req : HttpRequest} {f : Forwarded}
    (h : (gatewayHandler env g req).1 = .forward f) :
    cacheLookup env g req = none ∧ (sentMethod g.maxRetries req.method).isSome ∧
      f.url = downstreamUrl f.service f.upstream req := by
  unfold gatewayHandler at h
  split at h
  next => cases h
  next service hchecks =>
    split at h
    next => cases h
    next =>
      dsimp only at h
      split at h
      next => cases h
      next hcache =>
        unfold forward at h
        dsimp only at h
        split at h
        next hmethod =>
          cases h
          exact ⟨hcache, by rw [hmethod]; rfl, rfl⟩
        next => cases h

/-- The checks of a request that nothing stops. -/
theorem runChecks_letThrough {env : GatewayEnv} {g : Gateway} {req : HttpRequest}
    {service : ServiceEntry} (hlookup : g.registry.lookup req.path = some service)
    (hlet : LetThrough env g req service) (hexternal : isInternalPath req.path = false) :
    runChecks env g req = .ok service := by
  have hfound : findService g.registry req.path = .ok service := findService_eq_ok.mpr hlookup
  simp only [runChecks, hexternal, hlet.waf, hlet.bot, hfound]
  -- The last three checks are those of the service found.
  change (ipCheck service req.peerIp >>= fun _ => validationCheck env g.registry service req >>=
    fun _ => pluginCheck env req >>= fun _ => pure service) = .ok service
  rw [hlet.ip, hlet.validation, hlet.plugin]
  rfl

/-- The gateway handler sends a request that nothing stops. -/
theorem gatewayHandler_letThrough {env : GatewayEnv} {g : Gateway} {req : HttpRequest}
    {service : ServiceEntry} (hlookup : g.registry.lookup req.path = some service)
    (hlet : LetThrough env g req service) (hexternal : isInternalPath req.path = false)
    (hcache : cacheLookup env g req = none)
    (hmethod : (sentMethod g.maxRetries req.method).isSome) :
    ∃ f, (gatewayHandler env g req).1 = .forward f ∧ f.service = service := by
  obtain ⟨method, hsent⟩ := Option.isSome_iff_exists.mp hmethod
  have hallowed := hlet.breaker
  unfold gatewayHandler
  rw [runChecks_letThrough hlookup hlet hexternal]
  dsimp only
  split
  next hopen => rw [hopen] at hallowed; cases hallowed
  next =>
    split
    next reply hhit => cases hcache.symm.trans hhit
    next =>
      unfold forward
      dsimp only
      rw [hsent]
      exact ⟨_, rfl, rfl⟩

/-- The methods that are sent. -/
theorem isSome_sentMethod {maxRetries : ℕ} {method : String} :
    (sentMethod maxRetries method).isSome ↔ method ∈ forwardedMethods ∨ 0 < maxRetries := by
  unfold sentMethod
  split
  next hmem => simp [hmem]
  next hmem =>
    split
    next hretries => simp [hretries]
    next hretries => simp [hmem, hretries]

/-- The path that is requested, for a path split behind the prefix. -/
theorem downstreamPath_append {service : ServiceEntry} {path rest : String}
    (h : path = service.pathPrefix ++ rest) :
    downstreamPath service path = if rest = "" then "/" else rest := by
  rw [downstreamPath, h, Text.stripPrefix_append]
  rfl

/-- The URL that is requested, for a path split behind the prefix. -/
theorem downstreamUrl_append {service : ServiceEntry} {req : HttpRequest} {rest : String}
    (upstream : String) (h : req.path = service.pathPrefix ++ rest) :
    downstreamUrl service upstream req = upstream ++ restUrl rest req.query := by
  rw [downstreamUrl, downstreamPath_append h, restUrl]
  split
  next hquery => rw [String.append_empty]
  next hquery => rw [String.append_assoc, String.append_assoc]

end Gateway

/-- A path is the prefix of the service found for it, and a rest. -/
theorem ServiceRegistry.exists_rest_of_lookup {r : ServiceRegistry} {path : String}
    {service : ServiceEntry} (h : r.lookup path = some service) :
    ∃ rest, path = service.pathPrefix ++ rest := by
  obtain ⟨-, hmatch, -⟩ := lookup_eq_some h
  have hprefix := Text.startsWith_iff.mp (startsWith_of_matchesPath hmatch)
  obtain ⟨rest, hrest⟩ := hprefix
  refine ⟨String.ofList rest, String.toList_inj.mp ?_⟩
  rw [String.toList_append, String.toList_ofList, hrest]

/-- A versioned path has its version in front of the rest. -/
theorem length_of_extractVersion {path version rest : String}
    (h : extractVersion path = (some version, rest)) :
    rest.toList.length + 2 ≤ path.toList.length := by
  unfold extractVersion at h
  split at h
  next first digits tail hsplit =>
    split at h
    next hparse =>
      cases h
      have hdigits : 0 < digits.length := by
        refine List.length_pos_of_ne_nil fun hempty => ?_
        rw [hempty] at hparse
        cases hparse
      have hpath := congrArg List.length (Text.intercalate_splitn 2 '/' path.toList)
      rw [hsplit] at hpath
      -- There may be nothing behind the version.
      rcases tail with _ | ⟨last, _ | ⟨more, tail⟩⟩ <;> simp at hpath ⊢ <;> omega
    next => cases h
  next => cases h

/-- A path served under a version is the prefix of the service, and a rest. -/
theorem exists_rest_of_servesVersion {service : ServiceEntry} {version path : String}
    (h : servesVersion service version path = true) :
    ∃ rest, path = service.pathPrefix ++ rest := by
  have hstart : Text.startsWith path service.pathPrefix = true := by
    unfold servesVersion at h
    split at h
    next => exact (Bool.and_eq_true _ _ |>.mp h).1
    next => exact h
  obtain ⟨rest, hrest⟩ := Text.startsWith_iff.mp hstart
  refine ⟨String.ofList rest, String.toList_inj.mp ?_⟩
  rw [String.toList_append, String.toList_ofList, hrest]

/-- The versioned route takes a service for another path than the registry does. -/
theorem not_reached_versioned {g : Gateway} {req : HttpRequest} {f : Forwarded} {rest : String}
    (h : (versionedGatewayHandler g.registry req).1.forwarded = some f)
    (hpath : req.path = f.service.pathPrefix ++ rest) :
    f.url ≠ f.upstream ++ restUrl rest req.query := by
  unfold versionedGatewayHandler at h
  split at h
  next => cases h
  next version path hversion =>
    split at h
    next service hfound =>
      dsimp only at h
      split at h
      next =>
        cases h
        dsimp only at hpath ⊢
        intro hurl
        -- The rest behind the version is shorter than the path, so it leaves less of it.
        have hlength := length_of_extractVersion hversion
        have hserves : servesVersion service version path = true :=
          List.find?_some (p := fun service => servesVersion service version path) hfound
        obtain ⟨below, hbelow⟩ := exists_rest_of_servesVersion hserves
        rw [Gateway.downstreamPath_append hbelow, restUrl] at hurl
        rw [hpath, hbelow] at hlength
        have hcount := congrArg (fun s : String => s.toList.length) hurl
        have hslash : ("/" : String).toList.length = 1 := rfl
        have hrest : rest ≠ "" := by
          rintro rfl
          simp at hlength
          omega
        rw [if_neg hrest] at hcount
        simp only [String.toList_append, List.length_append] at hcount hlength
        split at hcount <;> omega
      next => cases h
    next => cases h

/-- The URL of the WebSocket proxy is the one of the gateway only if it replaces no scheme and drops
no query. -/
theorem wsUpstream_eq {upstream path query : String}
    (h : Text.replace (Text.replace upstream "http://" "ws://") "https://" "wss://" ++ path =
      upstream ++ (path ++ query)) :
    Text.replace (Text.replace upstream "http://" "ws://") "https://" "wss://" = upstream ∧
      query = "" := by
  have hlength : (Text.replace (Text.replace upstream "http://" "ws://") "https://"
      "wss://").toList.length ≤ upstream.toList.length :=
    (Text.length_replace_le _ (by decide)).trans (Text.length_replace_le _ (by decide))
  have hcount := congrArg (fun s : String => s.toList.length) h
  simp only [String.toList_append, List.length_append] at hcount
  have hquery : query = "" :=
    String.toList_inj.mp (List.eq_nil_of_length_eq_zero (by omega))
  refine ⟨?_, hquery⟩
  rw [hquery, String.append_empty] at h
  exact (String.append_left_inj path).mp h

/-- What the WebSocket proxy sends. -/
theorem forwardedBy_websocketProxy {env : EntryEnv} {g : Gateway} {req : HttpRequest}
    {service : ServiceEntry} {f : Forwarded} (hlookup : g.registry.lookup req.path = some service) :
    forwardedBy env g req .websocketProxy = some f ↔ env.wsRefusal req = none ∧
      f = ⟨service, service.upstream, "GET",
        Text.replace (Text.replace service.upstream "http://" "ws://") "https://" "wss://" ++
          Gateway.downstreamPath service req.path⟩ := by
  simp only [forwardedBy, websocketProxy, hlookup]
  cases hrefusal : env.wsRefusal req with
  | none =>
      simp only [EntryOutcome.forwarded, Option.some.injEq, true_and]
      exact eq_comm
  | some res => simp [EntryOutcome.forwarded]

/-- What the gateway handler sends, as the forwarded request of an entry point. -/
theorem forwardedBy_gatewayHandler {env : EntryEnv} {g : Gateway} {req : HttpRequest}
    {f : Forwarded} : forwardedBy env g req .gatewayHandler = some f ↔
      (Gateway.gatewayHandler env.gateway g req).1 = .forward f := by
  simp only [forwardedBy]
  split
  next f' hforward => simp [hforward]
  next hother =>
    refine iff_of_false (Option.some_ne_none f).symm fun h => ?_
    exact hother f h

/-- A request is dispatched to its handler. -/
theorem dispatch_eq {cfg : RouteConfig} {env : DispatchEnv} {g : Gateway} {req : HttpRequest}
    {e : EntryPoint} (h : entryPointOf cfg env req = some e) :
    dispatch cfg env g req = forwardedBy env.entry g req e := by
  rw [dispatch, h, Option.bind_some]

/-- The gRPC proxy is not in the route table. -/
theorem entryPointOf_ne_grpc (cfg : RouteConfig) (env : DispatchEnv) (req : HttpRequest) :
    entryPointOf cfg env req ≠ some .handleGrpcRequest := by
  unfold entryPointOf authEntryPoint
  dsimp only
  split
  next => simp
  next => simp
  next => split_ifs <;> simp
  next => simp
  next => simp
  next => simp
  next => simp
  next => simp
  next => split_ifs <;> simp
  next => simp

/-- A path outside the reserved scopes is internal only if it starts like the admin scope. -/
theorem isInternalPath_of_unreserved {path : String}
    (h : ∀ scope ∈ reservedScopes, inScope scope path = false) :
    Gateway.isInternalPath path = Text.startsWith path "/xira" := by
  have hne : ∀ scope ∈ reservedScopes, path ≠ scope := by
    rintro scope hscope rfl
    simpa [inScope] using h path hscope
  have hmetrics := hne "/metrics" (by decide)
  have hws := hne "/ws" (by decide)
  have hdashboard := hne "/dashboard" (by decide)
  simp [Gateway.isInternalPath, hmetrics, hws, hdashboard]

/-- A request that nothing stops, under a path outside the reserved scopes, reaches the service of
its path exactly if it is sent by the gateway handler, or by the WebSocket proxy in the same way. -/
theorem reachesService_iff {cfg : RouteConfig} {env : DispatchEnv} {g : Gateway}
    {req : HttpRequest} {service : ServiceEntry}
    (hscope : ∀ scope ∈ reservedScopes, inScope scope req.path = false)
    (hlookup : g.registry.lookup req.path = some service)
    (hlet : LetThrough env.entry.gateway g req service) :
    ReachesService cfg env g req service ↔
      SentByGateway cfg env g req ∨ SentByProxy cfg env req service := by
  have hinternal := isInternalPath_of_unreserved hscope
  constructor
  · rintro ⟨f, rest, hdispatch, hservice, -, hpath, hurl⟩
    obtain ⟨entryPoint, hentry, hforward⟩ := Option.bind_eq_some_iff.mp hdispatch
    cases entryPoint with
    | gatewayHandler =>
        rw [forwardedBy_gatewayHandler] at hforward
        obtain ⟨hcache, hmethod, -⟩ := Gateway.gatewayHandler_sent hforward
        have hadmitted := Gateway.runChecks_eq_ok (Gateway.gatewayHandler_forward hforward).1
        exact .inl ⟨hentry, hinternal ▸ hadmitted.external, hcache,
          Gateway.isSome_sentMethod.mp hmethod⟩
    | versionedGatewayHandler =>
        exact absurd hurl (not_reached_versioned hforward (hservice ▸ hpath))
    | websocketProxy =>
        obtain ⟨haccepted, rfl⟩ := (forwardedBy_websocketProxy hlookup).mp hforward
        dsimp only at hurl
        rw [Gateway.downstreamPath_append hpath, restUrl] at hurl
        obtain ⟨hupstream, hquery⟩ := wsUpstream_eq hurl
        refine .inr ⟨hentry, haccepted, hupstream, ?_⟩
        by_contra hne
        rw [if_neg hne] at hquery
        simp at hquery
    | handleGrpcRequest => exact absurd hentry (entryPointOf_ne_grpc cfg env req)
  · obtain ⟨rest, hpath⟩ := ServiceRegistry.exists_rest_of_lookup hlookup
    rintro (hsent | hsent)
    · obtain ⟨f, hforward, rfl⟩ := Gateway.gatewayHandler_letThrough hlookup hlet
        (hinternal.trans hsent.external) hsent.uncached (Gateway.isSome_sentMethod.mpr hsent.method)
      refine ⟨f, rest,
        (dispatch_eq hsent.dispatched).trans (forwardedBy_gatewayHandler.mpr hforward), rfl,
        (Gateway.gatewayHandler_forward hforward).2, hpath, ?_⟩
      rw [(Gateway.gatewayHandler_sent hforward).2.2, Gateway.downstreamUrl_append _ hpath]
    · have hforward := (forwardedBy_websocketProxy hlookup).mpr ⟨hsent.accepted, rfl⟩
      refine ⟨_, rest, (dispatch_eq hsent.dispatched).trans hforward, rfl,
        service.upstream_mem_allUpstreams, hpath, ?_⟩
      dsimp only
      rw [hsent.upstream, Gateway.downstreamPath_append hpath, restUrl, if_pos hsent.query,
        String.append_empty]

/-- Surroundings of the route table in which nobody has a session. -/
def plainDispatchEnv : DispatchEnv := ⟨strictEnv, fun _ => false, fun _ => false⟩

/-- The configuration in which every scope is in place. -/
def fullConfig : RouteConfig := ⟨true, fun path => path = "/metrics", true⟩

/-- Nothing stops a request for the service of the plain gateway. -/
theorem letThrough_plain (given p : String) :
    LetThrough strictEnv.gateway (plainGateway given) (plainRequest p)
      (ServiceEntry.new 0 0 "plain" given "http://10.0.0.2" "/") where
  waf := rfl
  bot := rfl
  ip := rfl
  validation := rfl
  plugin := rfl
  breaker := rfl

/-- The service under `/api` is reached. -/
theorem reachesService_api :
    ReachesService fullConfig plainDispatchEnv (plainGateway "/api") (plainRequest "/api/x")
      (ServiceEntry.new 0 0 "plain" "/api" "http://10.0.0.2" "/") := by
  have hlet := letThrough_plain "/api" "/api/x"
  refine (reachesService_iff (by decide) (lookup_plainGateway (by decide) (by decide)) hlet).mpr
    (.inl ⟨by decide, by decide, rfl, .inl (by decide)⟩)

/-- Not every registered prefix is reachable: the requests for the service under `/vendors` are
taken for versioned ones. -/
theorem reachesService_fails :
    ¬ ∀ cfg env g req service, (∀ scope ∈ reservedScopes, inScope scope req.path = false) →
      g.registry.lookup req.path = some service → LetThrough env.entry.gateway g req service →
        ReachesService cfg env g req service := by
  intro hall
  obtain ⟨f, -, hdispatch, -⟩ := hall fullConfig plainDispatchEnv (plainGateway "/vendors")
    (plainRequest "/vendors/x") _ (by decide) (lookup_plainGateway (by decide) (by decide))
    (letThrough_plain "/vendors" "/vendors/x")
  have hnothing : dispatch fullConfig plainDispatchEnv (plainGateway "/vendors")
      (plainRequest "/vendors/x") = none := by decide +kernel
  rw [hnothing] at hdispatch
  cases hdispatch

end XiraNet

import XiraNet.Gateway.Handler

/-!
# Entry points

The four handlers that forward requests: the gateway handler, the versioned routes
(`versioning/mod.rs`), the WebSocket proxy (`gateway/websocket.rs`) and the gRPC proxy
(`grpc/mod.rs`), each up to the contact with an upstream.

* `upstream_mem_of_forwardedBy`: whatever is contacted is an upstream of the service found.
* `enforces_iff`: the IP lists, the firewall and the validation of a service hold for what the
  gateway handler forwards, and for nothing that the others forward.
-/

namespace XiraNet

/-- What the entry points take from elsewhere. -/
structure EntryEnv where
  gateway : GatewayEnv
  /-- `actix_ws::handle`: the response to a request that is no WebSocket handshake. -/
  wsRefusal : HttpRequest → Option HttpResponse
  /-- A handshake is a `GET` request. -/
  wsRefusal_get : ∀ req, wsRefusal req = none → req.method = "GET"

/-- How an entry point goes on. -/
inductive EntryOutcome
  /-- The handler answers itself. -/
  | respond (res : HttpResponse)
  /-- An upstream is contacted. -/
  | forward (f : Forwarded)

namespace EntryOutcome

/-- The request that reaches an upstream, if one does. -/
def forwarded : EntryOutcome → Option Forwarded
  | .respond _ => none
  | .forward f => some f

end EntryOutcome

/-- `extract_version`: the version of a path `/v{N}/...` and the rest of the path. -/
def extractVersion (path : String) : Option String × String :=
  match Text.splitn 3 '/' path.toList with
  -- The first part is what stands before the leading slash.
  | _ :: ('v' :: version) :: rest =>
      match Text.parseUnsigned u32Max version with
      | some _ =>
          (some (String.ofList version), String.ofList ('/' :: (rest.head?.getD [])))
      | none => (none, path)
  | _ => (none, path)

/-- Whether a service serves a version of a path. -/
def servesVersion (service : ServiceEntry) (version path : String) : Bool :=
  match service.version with
  | some v => Text.startsWith path service.pathPrefix && v = version
  | none => Text.startsWith path service.pathPrefix

/-- The response of the proxy to a method that is not forwarded. -/
def methodNotSupportedResponse : HttpResponse where
  status := 405
  headers := [("content-type", "application/json"), ("X-Proxied-By", "XIRA"), ("X-Cache", "MISS")]
  body := some (.object [("error", .string "Method not supported")])

/-- `versioned_gateway_handler`, up to the contact with the upstream. -/
def versionedGatewayHandler (registry : ServiceRegistry) (req : HttpRequest) :
    EntryOutcome × ServiceRegistry :=
  match extractVersion req.path with
  | (none, _) =>
      (.respond (.json 404 [("error", .string "No version specified"),
        ("hint", .string "Use /v1/..., /v2/... etc."), ("path", .string req.path)]), registry)
  | (some version, path) =>
      match registry.services.values.find? fun service => servesVersion service version path with
      | some service =>
          let url := service.upstream ++ Gateway.downstreamPath service path
          -- `forward_request_raw_with_headers` sends only the methods it knows.
          (if req.method ∈ Gateway.forwardedMethods then
            .forward ⟨service, service.upstream, req.method, url⟩
          else .respond methodNotSupportedResponse,
            registry.incrementRequestCount service.id)
      | none =>
          (.respond (.json 404 [("error", .string "No service found for this version and path"),
            ("version", .string version), ("path", .string path)]), registry)

/-- `websocket_proxy`, up to the connection to the upstream. -/
def websocketProxy (env : EntryEnv) (registry : ServiceRegistry) (req : HttpRequest) :
    EntryOutcome :=
  match registry.lookup req.path with
  | none => .respond (.json 404 [("error", .string "No WebSocket service for this path")])
  -- Neither the peer address nor the firewall is looked at from here on.
  | some service =>
      let wsUpstream := Text.replace (Text.replace service.upstream "http://" "ws://")
        "https://" "wss://"
      match env.wsRefusal req with
      | some res => .respond res
      | none =>
          .forward ⟨service, service.upstream, "GET",
            wsUpstream ++ Gateway.downstreamPath service req.path⟩

/-- `handle_grpc_request`, up to the contact with the upstream. -/
def handleGrpcRequest (registry : ServiceRegistry) (req : HttpRequest) : EntryOutcome :=
  match registry.lookup req.path with
  | some service =>
      .forward ⟨service, service.upstream, "POST", service.upstream ++
        (Text.stripPrefix req.path service.pathPrefix).getD req.path⟩
  | none =>
      .respond
        { status := 404
          headers := [("content-type", "application/grpc"), ("grpc-status", "12"),
            ("grpc-message", "no service registered for path")]
          body := none }

/-- The handlers that forward requests. -/
inductive EntryPoint
  | gatewayHandler
  | versionedGatewayHandler
  | websocketProxy
  | handleGrpcRequest
  deriving DecidableEq, Repr

/-- What an entry point sends to an upstream for a request, if it contacts one. -/
def forwardedBy (env : EntryEnv) (g : Gateway) (req : HttpRequest) : EntryPoint → Option Forwarded
  | .gatewayHandler =>
      match (Gateway.gatewayHandler env.gateway g req).1 with
      | .forward f => some f
      | _ => none
  | .versionedGatewayHandler => (XiraNet.versionedGatewayHandler g.registry req).1.forwarded
  | .websocketProxy => (XiraNet.websocketProxy env g.registry req).forwarded
  | .handleGrpcRequest => (XiraNet.handleGrpcRequest g.registry req).forwarded

/-- The protections of a service. -/
inductive Protection
  | ipBlacklist
  | ipWhitelist
  | waf
  | validation
  deriving DecidableEq, Repr

/-- What a protection promises of a request that reaches the service. -/
def Protection.Holds (env : EntryEnv) (g : Gateway) (req : HttpRequest) (service : ServiceEntry) :
    Protection → Prop
  | .ipBlacklist => req.peerIp ∉ service.ipBlacklist
  | .ipWhitelist => service.ipWhitelist ≠ [] → req.peerIp ∈ service.ipWhitelist
  | .waf => ∀ reason rule, Gateway.wafVerdict g.waf req ≠ .block reason rule
  | .validation => SatisfiesSchema env.gateway.schemaLib service req

/-- An entry point enforces a protection if it holds for everything that is forwarded. -/
def Enforces (e : EntryPoint) (p : Protection) : Prop :=
  ∀ (env : EntryEnv) (g : Gateway) (req : HttpRequest) (f : Forwarded),
    forwardedBy env g req e = some f → p.Holds env g req f.service

/-- Whatever an entry point contacts is an upstream of the service it has found. -/
theorem upstream_mem_of_forwardedBy {env : EntryEnv} {g : Gateway} {req : HttpRequest}
    {e : EntryPoint} {f : Forwarded} (h : forwardedBy env g req e = some f) :
    f.upstream ∈ f.service.allUpstreams := by
  cases e with
  | gatewayHandler =>
      simp only [forwardedBy] at h
      split at h
      next f' hforward =>
        cases h
        exact (Gateway.gatewayHandler_forward hforward).2
      next => cases h
  | versionedGatewayHandler =>
      simp only [forwardedBy, XiraNet.versionedGatewayHandler] at h
      split at h
      next => cases h
      next =>
        split at h
        next =>
          dsimp only at h
          split at h
          next =>
            cases h
            exact ServiceEntry.upstream_mem_allUpstreams _
          next => cases h
        next => cases h
  | websocketProxy =>
      simp only [forwardedBy, XiraNet.websocketProxy] at h
      split at h
      next => cases h
      next =>
        split at h
        next => cases h
        next =>
          cases h
          exact ServiceEntry.upstream_mem_allUpstreams _
  | handleGrpcRequest =>
      simp only [forwardedBy, XiraNet.handleGrpcRequest] at h
      split at h
      next =>
        cases h
        exact ServiceEntry.upstream_mem_allUpstreams _
      next => cases h

/-- Everything that the gateway handler forwards has passed the checks. -/
theorem enforces_gatewayHandler (p : Protection) : Enforces .gatewayHandler p := by
  intro env g req f h
  have hforward : (Gateway.gatewayHandler env.gateway g req).1 = .forward f := by
    simp only [forwardedBy] at h
    split at h
    next hforward =>
      cases h
      exact hforward
    next => cases h
  -- What was checked is what is promised, for the service that `lookup` finds.
  have hadmitted := Gateway.runChecks_eq_ok (Gateway.gatewayHandler_forward hforward).1
  cases p with
  | ipBlacklist => exact hadmitted.blacklist
  | ipWhitelist => exact hadmitted.whitelist
  | waf =>
      intro reason rule hblock
      rw [hadmitted.waf] at hblock
      cases hblock
  | validation => exact hadmitted.schema

/-- A WebSocket handshake has a method whose body is not validated. -/
theorem enforces_websocketProxy_validation : Enforces .websocketProxy .validation := by
  intro env g req f h hmethod
  simp only [forwardedBy, XiraNet.websocketProxy] at h
  split at h
  next => cases h
  next =>
    split at h
    next => cases h
    next haccepted =>
      rw [env.wsRefusal_get req haccepted] at hmethod
      exact absurd hmethod (by decide)

/-- A schema library that knows the empty object and the schema that admits nothing. -/
def strictSchemaLib : SchemaLib where
  fromSlice body := if body = [123, 125] then .ok (.object []) else .error "expected value"
  fromStr s := if s = "false" then .ok (.bool false) else .error "expected value"
  validatorFor _ := .ok fun _ => [("", "False schema does not allow this value")]
  fromStr_empty := ⟨"expected value", rfl⟩

/-- Surroundings in which nothing but the checks stops a request. -/
def strictEnv : EntryEnv where
  gateway :=
    { now := 0
      schemaLib := strictSchemaLib
      freshRequestId := "req"
      botCheck := fun _ _ => .human
      pluginOnRequest := fun _ _ _ => []
      cacheGet := fun _ _ => none
      rand := 0 }
  wsRefusal req := if req.method = "GET" then none else some (.json 405 [])
  wsRefusal_get req h := by
    by_contra hne
    simp [hne] at h

/-- A registry with one service that has every protection, behind a firewall that blocks
everything. -/
def guardedGateway : Gateway where
  registry := (ServiceRegistry.new.registerAdvanced 0 0
    { name := "guarded", pathPrefix := "/ws", upstream := "http://10.0.0.2", healthEndpoint := "/",
      upstreams := [], loadBalance := none, version := none, validationSchema := some "false",
      ipWhitelist := ["10.0.0.1"], ipBlacklist := ["10.0.0.9"], transform := none }).2
  cbManager := .new 5 30 1
  lb := .new
  waf := ⟨true, [fun _ => true], [], [], [], [], .block⟩
  cacheEnabled := false
  maxRetries := 0

/-- A request of a blacklisted peer that the firewall and the schema of the service reject, as it
is sent to an entry point. -/
def hostileRequest (e : EntryPoint) : HttpRequest where
  method := if e = .websocketProxy then "GET" else "POST"
  path := if e = .versionedGatewayHandler then "/v1/ws/chat" else "/ws/chat"
  query := ""
  headers := []
  peerAddr := some (.v4 10 0 0 9)
  body := [123, 125]

/-- Every entry point but the gateway handler forwards its hostile request. -/
theorem forwardedBy_hostileRequest {e : EntryPoint} (he : e ≠ .gatewayHandler) :
    ∃ f, forwardedBy strictEnv guardedGateway (hostileRequest e) e = some f ∧
      f.service.ipBlacklist = ["10.0.0.9"] ∧ f.service.ipWhitelist = ["10.0.0.1"] ∧
        f.service.validationSchema = some "false" := by
  cases e with
  | gatewayHandler => exact absurd rfl he
  | versionedGatewayHandler => exact ⟨_, rfl, rfl, rfl, rfl⟩
  | websocketProxy => exact ⟨_, rfl, rfl, rfl, rfl⟩
  | handleGrpcRequest => exact ⟨_, rfl, rfl, rfl, rfl⟩

/-- The peer of the hostile requests. -/
theorem peerIp_hostileRequest (e : EntryPoint) : (hostileRequest e).peerIp = "10.0.0.9" := by
  have htext : (IpAddr.v4 10 0 0 9).text = "10.0.0.9" := by decide +kernel
  exact htext

/-- Which entry point enforces which protection: the gateway handler enforces all of them, the
others none, except that there is nothing to validate in a WebSocket handshake. -/
theorem enforces_iff (e : EntryPoint) (p : Protection) :
    Enforces e p ↔ e = .gatewayHandler ∨ e = .websocketProxy ∧ p = .validation := by
  constructor
  · intro henforces
    by_contra hnot
    obtain ⟨hgateway, hws⟩ := not_or.mp hnot
    obtain ⟨f, hforward, hblack, hwhite, hschema⟩ := forwardedBy_hostileRequest hgateway
    have hholds := henforces _ _ _ f hforward
    cases p with
    | ipBlacklist =>
        rw [Protection.Holds, peerIp_hostileRequest, hblack] at hholds
        exact hholds (by decide)
    | ipWhitelist =>
        rw [Protection.Holds, peerIp_hostileRequest, hwhite] at hholds
        exact absurd (hholds (by decide)) (by decide)
    | waf => exact hholds _ _ rfl
    -- The handshake is excluded here, so the request is a `POST` with a body.
    | validation =>
        have hmethod : (hostileRequest e).method ∈ validatedMethods := by
          have hne : e ≠ .websocketProxy := fun h => hws ⟨h, rfl⟩
          simp [hostileRequest, hne, validatedMethods]
        obtain ⟨body, -, hvalid⟩ := hholds hmethod (by simp [hostileRequest]) "false" hschema _ rfl
        cases hvalid
  · rintro (rfl | ⟨rfl, rfl⟩)
    · exact enforces_gatewayHandler p
    · exact enforces_websocketProxy_validation

/-- Not every entry point enforces the protections: the versioned route forwards the request of a
blacklisted peer. -/
theorem enforces_fails : ¬ ∀ e p, Enforces e p := by
  intro hall
  obtain ⟨f, hforward, hblack, -⟩ :=
    forwardedBy_hostileRequest (e := .versionedGatewayHandler) (by decide)
  have hholds := hall .versionedGatewayHandler .ipBlacklist _ _ _ f hforward
  rw [Protection.Holds, peerIp_hostileRequest, hblack] at hholds
  exact hholds (by decide)

end XiraNet

import Mathlib
import XiraNet.Http

/-!
# API key of the admin scope

The key check of `middleware/auth.rs` and the dispatch of requests by the route table of `main.rs`.
The router decodes the path before it matches (every escape except those of the percent sign, the
slash and the plus sign); the key check looks at the path as received.

* `keyCovered_iff`: the paths of the admin scope for which the key is checked.
* `keyCovered_fails`: a spelling of the admin scope for which it is not.
-/

namespace XiraNet

/-- The middleware. -/
structure ApiKeyAuth where
  apiKey : String
  deriving DecidableEq, Repr

/-- `ct_eq_str`: the lengths are compared first, then the bytes. -/
def ctEqStr (a b : String) : Bool :=
  if a.utf8ByteSize ≠ b.utf8ByteSize then false else decide (a.toByteArray = b.toByteArray)

/-- The response to a missing or wrong key. -/
def unauthorizedResponse : HttpResponse :=
  .json 401 [("error", .string "Unauthorized"),
    ("message", .string "Valid X-Api-Key header required")]

/-- `ApiKeyAuthMiddleware::call`. -/
def ApiKeyAuth.call (auth : ApiKeyAuth) (req : HttpRequest) : MiddlewareResult :=
  -- The path as received, escapes included.
  if !Text.startsWith req.path "/xira" then .forward
  else
    match req.header "X-Api-Key" with
    | some key => if ctEqStr key auth.apiKey then .forward else .respond unauthorizedResponse
    | none => .respond unauthorizedResponse

/-- The services of the route table. -/
inductive Route
  | dashboard
  | health
  | auth
  | wsMetrics
  | wsDashboard
  | wsProxy
  | versioned
  | metrics
  | admin
  /-- The default service, `gateway_handler`. -/
  | gateway
  deriving DecidableEq, Repr

/-- What the route table takes from the configuration. -/
structure RouteConfig where
  metricsEnabled : Bool
  /-- The paths that the pattern `config.metrics.path` matches. -/
  metricsPath : String → Bool
  adminEnabled : Bool

/-- The bytes whose escapes the router leaves as they are: `%`, `/` and `+`. -/
def isProtectedByte (b : UInt8) : Bool := b = 0x25 || b = 0x2f || b = 0x2b

/-- The path that the router matches. -/
def decodePath (p : String) : String := Percent.decodeString isProtectedByte p

/-- Whether a path is in a scope. -/
def inScope (scope path : String) : Bool := path = scope || Text.startsWith path (scope ++ "/")

/-- The pattern `/v{version}/{tail:.*}`. -/
def isVersionedPath (path : String) : Bool :=
  match path.toList with
  | '/' :: 'v' :: c :: rest => c ≠ '/' && '/' ∈ rest
  | _ => false

/-- The service that a request is dispatched to, by the route table of `main.rs`. -/
def routeOf (cfg : RouteConfig) (method p : String) : Route :=
  -- The services are tried in the order in which they are registered.
  let path := decodePath p
  let get := decide (method = "GET")
  if get && path = "/dashboard" then .dashboard
  else if get && path = "/health" then .health
  else if inScope "/auth" path then .auth
  else if get && path = "/ws/metrics" then .wsMetrics
  else if get && path = "/ws/dashboard" then .wsDashboard
  else if get && Text.startsWith path "/ws/" then .wsProxy
  else if isVersionedPath path then .versioned
  else if cfg.metricsEnabled && get && cfg.metricsPath path then .metrics
  else if cfg.adminEnabled && inScope "/xira" path then .admin
  else .gateway

/-- A request for this path that is dispatched into the admin scope is let through only with the
configured key. -/
def KeyCovered (cfg : RouteConfig) (p : String) : Prop :=
  ∀ (auth : ApiKeyAuth) (req : HttpRequest), req.path = p →
    routeOf cfg req.method p = .admin → auth.call req = .forward →
      req.header "X-Api-Key" = some auth.apiKey

/-- `ct_eq_str` decides equality. -/
theorem ctEqStr_iff (a b : String) : ctEqStr a b = true ↔ a = b := by
  unfold ctEqStr
  split
  next hsize => exact iff_of_false (fun h => nomatch h) fun h => hsize (h ▸ rfl)
  next => rw [decide_eq_true_iff, String.toByteArray_inj]

/-- What is let through has the configured key, or does not look like the admin scope. -/
theorem ApiKeyAuth.call_eq_forward {auth : ApiKeyAuth} {req : HttpRequest} :
    auth.call req = .forward ↔
      Text.startsWith req.path "/xira" = false ∨ req.header "X-Api-Key" = some auth.apiKey := by
  unfold ApiKeyAuth.call
  by_cases hstart : Text.startsWith req.path "/xira" = true
  · rw [hstart, Bool.not_true, if_neg (by decide)]
    cases req.header "X-Api-Key" with
    | none => simp
    | some key => simp [ctEqStr_iff]
  · simp [hstart]

/-- The key is checked for exactly those paths of the admin scope that start with `/xira` as
received. -/
theorem keyCovered_iff (cfg : RouteConfig) (p : String) :
    KeyCovered cfg p ↔
      Text.startsWith p "/xira" = true ∨ ∀ method, routeOf cfg method p ≠ .admin := by
  constructor
  · intro hcovered
    by_contra hnot
    obtain ⟨hstart, hdispatched⟩ := not_or.mp hnot
    obtain ⟨method, hmethod⟩ := not_forall.mp hdispatched
    -- A request without headers is let through.
    have hforward : (ApiKeyAuth.mk "key").call ⟨method, p, "", [], none, []⟩ = .forward :=
      ApiKeyAuth.call_eq_forward.mpr (.inl (Bool.eq_false_iff.mpr hstart))
    cases hcovered ⟨"key"⟩ ⟨method, p, "", [], none, []⟩ rfl (not_not.mp hmethod) hforward
  · rintro (hstart | helsewhere) auth req rfl hroute hforward
    · refine (ApiKeyAuth.call_eq_forward.mp hforward).resolve_left fun hplain => ?_
      rw [hstart] at hplain
      cases hplain
    · exact absurd hroute (helsewhere req.method)

/-- The admin scope is reached without a key under a path with an escaped letter. -/
theorem keyCovered_fails : ¬ ∀ cfg p, KeyCovered cfg p := by
  intro hall
  have hroute : routeOf ⟨true, fun path => path = "/metrics", true⟩ "GET" "/%78ira/services" =
      .admin := by decide
  have hforward : (ApiKeyAuth.mk "key").call ⟨"GET", "/%78ira/services", "", [], none, []⟩ =
      .forward := by
    rw [ApiKeyAuth.call_eq_forward]
    decide
  cases hall _ _ ⟨"key"⟩ _ rfl hroute hforward

end XiraNet

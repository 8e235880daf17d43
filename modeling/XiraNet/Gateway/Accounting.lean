import XiraNet.Gateway.Completion
import XiraNet.Gateway.EntryPoints
import XiraNet.Gateway.Headers

/-!
# Accounting of requests

`gateway_handler` of `gateway/mod.rs` from the request to its end, with the requests that it sends
to an upstream and the records that it makes: metrics, health scores and the audit log. The records
stand at the end of the handler, after two early returns.

* `accountedOnce_iff`: when every request that goes to an upstream is recorded once.
* `accountedOnce_fails`: a request for a service with rules is not recorded.
-/

namespace XiraNet

/-- A call of `AdvancedMetrics::record`. -/
structure MetricsRecord where
  serviceName : String
  status : ℕ
  bytesIn : ℕ
  bytesOut : ℕ
  latency : Instant
  deriving DecidableEq, Repr

/-- A call of `HealthScorer::record`. -/
structure HealthRecord where
  upstream : String
  latency : Instant
  success : Bool
  deriving DecidableEq, Repr

/-- `AuditEntry`. -/
structure AuditEntry where
  timestamp : String
  ip : String
  method : String
  path : String
  status : ℕ
  userAgent : String
  apiKeyPreview : Option String
  requestId : String
  duration : Instant
  bodySize : ℕ
  responseSize : ℕ
  deriving DecidableEq, Repr

/-- The records of one execution. -/
structure Accounts where
  metrics : List MetricsRecord
  health : List HealthRecord
  audit : List AuditEntry
  deriving DecidableEq, Repr

/-- No records. -/
def Accounts.none : Accounts := ⟨[], [], []⟩

/-- What an execution takes from elsewhere after its checks. -/
structure UpstreamEnv where
  lib : HttpLib
  /-- `connection_info().scheme()`. -/
  scheme : String
  /-- What becomes of the request on each attempt. -/
  send : ℕ → UpstreamRequest → SendOutcome
  /-- `PluginManager::execute_on_response`, on the status and the path. -/
  pluginOnResponse : ℕ → String → List PluginAction
  /-- The cache when a result is offered to it, and the time. -/
  cache : ResponseCache
  storedAt : Instant
  /-- The time that the execution has taken, and its text. -/
  elapsed : Instant
  formatMs : Instant → String
  /-- `Utc::now`, as text. -/
  timestamp : String

/-- What the client gets. -/
inductive ClientResponse
  /-- The request is rejected. -/
  | rejected (res : HttpResponse)
  | cached (res : SentResponse)
  /-- The result of the contact with an upstream. -/
  | relayed (res : SentResponse)
  /-- A plugin takes the place of the result. -/
  | blocked (res : HttpResponse)

/-- The status that the client gets. -/
def ClientResponse.status : ClientResponse → ℕ
  | .rejected res => res.status
  | .cached res => res.status
  | .relayed res => res.status
  | .blocked res => res.status

/-- An execution of the handler that has come to its end. -/
structure Handled where
  response : ClientResponse
  /-- The requests that were sent to an upstream. -/
  contacts : List UpstreamRequest
  accounts : Accounts

namespace RetryPolicy

/-- The attempts that the loop of `execute` makes. -/
def attemptsLoop (retryableMethod : Bool) (send : ℕ → SendOutcome) : ℕ → ℕ → List ℕ
  | 0, attempt => [attempt]
  | left + 1, attempt =>
      attempt ::
        if retryableMethod && worthRetrying (send attempt) then
          attemptsLoop retryableMethod send left (attempt + 1)
        else []

/-- There is at least one attempt. -/
theorem attemptsLoop_ne_nil (retryable : Bool) (send : ℕ → SendOutcome) (left attempt : ℕ) :
    attemptsLoop retryable send left attempt ≠ [] := by
  cases left <;> simp [attemptsLoop]

/-- The loop ends with the outcome of its last attempt. -/
theorem executeLoop_eq_last (retryable : Bool) (send : ℕ → SendOutcome) (left attempt : ℕ) :
    ∃ n, (attemptsLoop retryable send left attempt).getLast? = some n ∧
      executeLoop retryable send left attempt = send n := by
  induction left generalizing attempt with
  | zero => exact ⟨attempt, rfl, rfl⟩
  | succ left ih =>
      rw [executeLoop_succ, attemptsLoop]
      split
      next =>
        obtain ⟨n, hlast, houtcome⟩ := ih (attempt + 1)
        exact ⟨n, by rw [List.getLast?_cons, hlast, Option.getD_some], houtcome⟩
      next => exact ⟨attempt, rfl, rfl⟩

end RetryPolicy

/-- The requests that `proxyRequest` sends. -/
def upstreamContacts (maxRetries : ℕ) (send : ℕ → UpstreamRequest → SendOutcome) (req : HttpRequest)
    (downstreamUrl : String) (forwardedHeaders : HeaderMap) : List UpstreamRequest :=
  if 0 < maxRetries ∧ RetryPolicy.methodIsRetryable (reqMethod req.method) then
    let request : UpstreamRequest :=
      ⟨reqMethod req.method, downstreamUrl, forwardedHeaders, forwardedBody req.body⟩
    (RetryPolicy.attemptsLoop (RetryPolicy.isRequestRetryable request.method request.headers)
      (fun attempt => send attempt request) maxRetries 0).map fun _ => request
  else if req.method ∉ Gateway.forwardedMethods then []
  else [⟨req.method, downstreamUrl, forwardedHeaders, forwardedBody req.body⟩]

/-- The first characters of an API key. -/
def keyPreview (key : String) : String :=
  if 8 < key.utf8ByteSize then String.ofList (key.toList.take 8) ++ "..." else key

/-- The size that a response states. -/
def SentResponse.statedSize (res : SentResponse) : ℕ :=
  ((((res.headers.get "content-length").bind HeaderValue.toStr).bind fun text =>
    Text.parseUnsigned (2 ^ 64 - 1) text.toList)).getD 0

namespace UpstreamEnv

variable (u : UpstreamEnv)

/-- The headers for an upstream of a service. -/
def forwardedHeaders (service : ServiceEntry) (req : HttpRequest) : HeaderMap :=
  let headers := buildForwardHeaders u.lib u.scheme req
  match service.transform with
  | some rules => rules.applyRequestHeaders u.lib headers
  | none => headers

/-- The requests that are sent to an upstream of a service. -/
def contacts (maxRetries : ℕ) (service : ServiceEntry) (upstream : String) (req : HttpRequest) :
    List UpstreamRequest :=
  upstreamContacts maxRetries u.send req (Gateway.downstreamUrl service upstream req)
    (u.forwardedHeaders service req)

/-- The result of the contact with an upstream. -/
def result (maxRetries : ℕ) (service : ServiceEntry) (upstream : String) (req : HttpRequest) :
    ProxyResult :=
  proxyRequest maxRetries u.send req (Gateway.downstreamUrl service upstream req)
    (u.forwardedHeaders service req)

/-- What the plugins ask for after the contact with an upstream. -/
def actions (maxRetries : ℕ) (service : ServiceEntry) (upstream : String) (req : HttpRequest) :
    List PluginAction :=
  u.pluginOnResponse (u.result maxRetries service upstream req).status req.path

/-- The records of a response. -/
def accountsOf (service : ServiceEntry) (requestId : String) (req : HttpRequest)
    (res : SentResponse) : Accounts where
  metrics := [⟨service.name, res.status, req.body.length, res.statedSize, u.elapsed⟩]
  health := [⟨service.name, u.elapsed, res.status < 500⟩]
  audit := [{
    timestamp := u.timestamp
    ip := Gateway.peerIpLog req
    method := req.method
    path := req.path
    status := res.status
    userAgent := (req.header "user-agent").getD ""
    apiKeyPreview := (req.header "x-api-key").map keyPreview
    requestId := requestId
    duration := u.elapsed
    bodySize := req.body.length
    responseSize := res.statedSize }]

/-- The handler from the choice of an upstream to its end. -/
def complete (maxRetries : ℕ) (cacheEnabled : Bool) (requestId : String) (service : ServiceEntry)
    (upstream : String) (req : HttpRequest) : Handled :=
  let contacts := u.contacts maxRetries service upstream req
  let e : GatewayExecution := ⟨req, service, requestId, cacheEnabled⟩
  match (e.finish u.lib u.storedAt (u.formatMs u.elapsed)
    (u.actions maxRetries service upstream req) (u.result maxRetries service upstream req)
      u.cache).1 with
  | .error res => ⟨.blocked res, contacts, .none⟩
  | .ok res =>
      -- The response with the rules of the service is returned at once.
      if service.transform.isSome then ⟨.relayed res, contacts, .none⟩
      else ⟨.relayed res, contacts, u.accountsOf service requestId req res⟩

/-- `gateway_handler`. -/
def handle (env : GatewayEnv) (g : Gateway) (req : HttpRequest) : Handled :=
  let requestId := Gateway.requestId env req
  match (Gateway.gatewayHandler env g req).1 with
  | .respond res => ⟨.rejected res, [], .none⟩
  | .cacheHit reply => ⟨.cached (hitResponse u.lib reply), [], .none⟩
  | .forward f => u.complete g.maxRetries g.cacheEnabled requestId f.service f.upstream req
  | .notSupported service upstream =>
      u.complete g.maxRetries g.cacheEnabled requestId service upstream req

end UpstreamEnv

/-- A request that goes to an upstream is recorded once in each place, with its path, its method and
the status that the client gets, and no upstream is contacted for one that is rejected or answered
from the cache. -/
structure AccountedOnce (req : HttpRequest) (h : Handled) : Prop where
  metrics : h.contacts ≠ [] → h.accounts.metrics.length = 1
  health : h.contacts ≠ [] → h.accounts.health.length = 1
  audit : h.contacts ≠ [] →
    (h.accounts.audit.map fun entry => (entry.path, entry.method, entry.status)) =
      [(req.path, req.method, h.response.status)]
  rejected : ∀ res, h.response = .rejected res → h.contacts = []
  cached : ∀ res, h.response = .cached res → h.contacts = []

/-- An action that takes the place of the result. -/
def PluginAction.isBlock : PluginAction → Bool
  | .block _ _ => true
  | .continue => false
  | .addHeader _ _ => false

/-- The result stays in place if no action blocks. -/
theorem onResponse_isOk_iff {actions : List PluginAction} {result : ProxyResult} :
    (∃ r, onResponse actions result = .ok r) ↔ ∀ action ∈ actions, action.isBlock = false := by
  induction actions generalizing result with
  | nil => simp [onResponse]
  | cons action actions ih =>
      rw [List.forall_mem_cons]
      cases action with
      | «continue» => simpa [onResponse, PluginAction.isBlock] using ih
      | addHeader key value => simpa [onResponse, PluginAction.isBlock] using ih
      | block status message => simp [onResponse, PluginAction.isBlock]

/-- A request is sent exactly if there is a method to send. -/
theorem upstreamContacts_eq_nil_iff {maxRetries : ℕ} {send : ℕ → UpstreamRequest → SendOutcome}
    {req : HttpRequest} {downstreamUrl : String} {forwardedHeaders : HeaderMap} :
    upstreamContacts maxRetries send req downstreamUrl forwardedHeaders = [] ↔
      Gateway.sentMethod maxRetries req.method = none := by
  unfold upstreamContacts Gateway.sentMethod
  by_cases hmethod : req.method ∈ Gateway.forwardedMethods
  · rw [if_pos hmethod]
    refine iff_of_false ?_ (Option.some_ne_none _)
    split
    · exact fun h => RetryPolicy.attemptsLoop_ne_nil _ _ _ _ (List.map_eq_nil_iff.mp h)
    · simp
  · -- A method that is not forwarded counts as `GET`, which is sent with retries only.
    rw [if_neg hmethod, reqMethod, if_neg hmethod]
    by_cases hretries : 0 < maxRetries
    · rw [if_pos ⟨hretries, by decide⟩, if_pos hretries]
      refine iff_of_false (fun h => ?_) (Option.some_ne_none _)
      exact RetryPolicy.attemptsLoop_ne_nil _ _ _ _ (List.map_eq_nil_iff.mp h)
    · rw [if_neg fun h => hretries h.1, if_pos hmethod, if_neg hretries]
      simp

namespace Gateway

variable {env : GatewayEnv} {g : Gateway} {req : HttpRequest}

/-- What the handler forwards has a method to send, and what it does not support has none. -/
theorem sentMethod_of_gatewayHandler :
    (∀ f, (gatewayHandler env g req).1 = .forward f →
        sentMethod g.maxRetries req.method ≠ none) ∧
      ∀ service upstream, (gatewayHandler env g req).1 = .notSupported service upstream →
        sentMethod g.maxRetries req.method = none := by
  unfold gatewayHandler
  split
  case h_1 => exact ⟨fun _ h => (nomatch h), fun _ _ h => nomatch h⟩
  case h_2 =>
    split
    case h_1 => exact ⟨fun _ h => (nomatch h), fun _ _ h => nomatch h⟩
    case h_2 =>
      dsimp only
      split
      case h_1 => exact ⟨fun _ h => (nomatch h), fun _ _ h => nomatch h⟩
      case h_2 =>
        -- Checks and cache are passed, and the method decides.
        unfold forward
        dsimp only
        split
        next method hmethod =>
          refine ⟨fun _ _ h => ?_, fun _ _ h => nomatch h⟩
          rw [hmethod] at h
          cases h
        next hmethod => exact ⟨fun _ h => (nomatch h), fun _ _ _ => hmethod⟩

end Gateway

namespace UpstreamEnv

variable {u : UpstreamEnv} {maxRetries : ℕ} {cacheEnabled : Bool} {requestId : String}
  {service : ServiceEntry} {upstream : String} {req : HttpRequest}

/-- A plugin that blocks the result ends the execution. -/
theorem complete_of_error {res : HttpResponse}
    (h : onResponse (u.actions maxRetries service upstream req)
      (u.result maxRetries service upstream req) = .error res) :
    u.complete maxRetries cacheEnabled requestId service upstream req =
      ⟨.blocked res, u.contacts maxRetries service upstream req, .none⟩ := by
  simp only [complete, GatewayExecution.finish, h]

/-- A result that stays in place is relayed, and recorded if the service has no rules. -/
theorem complete_of_ok {r : ProxyResult}
    (h : onResponse (u.actions maxRetries service upstream req)
      (u.result maxRetries service upstream req) = .ok r) :
    u.complete maxRetries cacheEnabled requestId service upstream req =
      let res := missResponse u.lib service.transform requestId (u.formatMs u.elapsed) r
      ⟨.relayed res, u.contacts maxRetries service upstream req,
        if service.transform.isSome then .none else u.accountsOf service requestId req res⟩ := by
  simp only [complete, GatewayExecution.finish, h]
  split <;> rfl

/-- The requests that are sent do not depend on how the execution ends. -/
theorem contacts_complete :
    (u.complete maxRetries cacheEnabled requestId service upstream req).contacts =
      u.contacts maxRetries service upstream req := by
  cases h : onResponse (u.actions maxRetries service upstream req)
      (u.result maxRetries service upstream req) with
  | error res => rw [complete_of_error h]
  | ok r => rw [complete_of_ok h]

/-- When an execution that contacts an upstream is recorded once. -/
theorem accountedOnce_complete_iff (hsent : Gateway.sentMethod maxRetries req.method ≠ none) :
    AccountedOnce req (u.complete maxRetries cacheEnabled requestId service upstream req) ↔
      service.transform = none ∧
        ∀ action ∈ u.actions maxRetries service upstream req, action.isBlock = false := by
  have hcontacts : u.contacts maxRetries service upstream req ≠ [] :=
    mt upstreamContacts_eq_nil_iff.mp hsent
  have hblock := @onResponse_isOk_iff (u.actions maxRetries service upstream req)
    (u.result maxRetries service upstream req)
  cases h : onResponse (u.actions maxRetries service upstream req)
      (u.result maxRetries service upstream req) with
  | error res =>
      rw [complete_of_error h]
      -- Nothing is recorded of a result that a plugin blocks.
      refine iff_of_false (fun honce => nomatch honce.metrics hcontacts) fun hall => ?_
      obtain ⟨r, hr⟩ := hblock.mpr hall.2
      exact nomatch h.symm.trans hr
  | ok r =>
      rw [complete_of_ok h, and_iff_left (hblock.mp ⟨r, h⟩)]
      cases htransform : service.transform with
      | some rules =>
          exact iff_of_false (fun honce => nomatch honce.metrics hcontacts) (Option.some_ne_none _)
      | none =>
          refine iff_of_true ?_ rfl
          constructor
          case metrics => exact fun _ => rfl
          case health => exact fun _ => rfl
          case audit => exact fun _ => rfl
          case rejected => exact fun _ hrejected => nomatch hrejected
          case cached => exact fun _ hcached => nomatch hcached

/-- Nothing is to be recorded of an execution without a contact. -/
theorem accountedOnce_of_contacts {h : Handled} (hcontacts : h.contacts = []) :
    AccountedOnce req h where
  metrics hne := absurd hcontacts hne
  health hne := absurd hcontacts hne
  audit hne := absurd hcontacts hne
  rejected _ _ := hcontacts
  cached _ _ := hcontacts

end UpstreamEnv

/-- Every request that goes to an upstream is recorded once exactly if its service has no rules and
no plugin blocks the result. -/
theorem accountedOnce_iff (env : GatewayEnv) (u : UpstreamEnv) (g : Gateway) (req : HttpRequest) :
    AccountedOnce req (u.handle env g req) ↔
      ∀ f, (Gateway.gatewayHandler env g req).1 = .forward f →
        f.service.transform = none ∧
          ∀ action ∈ u.actions g.maxRetries f.service f.upstream req, action.isBlock = false := by
  obtain ⟨hforwarded, hunsupported⟩ :=
    @Gateway.sentMethod_of_gatewayHandler env g req
  unfold UpstreamEnv.handle
  dsimp only
  cases houtcome : (Gateway.gatewayHandler env g req).1 with
  | respond res =>
      exact iff_of_true (UpstreamEnv.accountedOnce_of_contacts rfl) fun _ h => nomatch h
  | cacheHit reply =>
      exact iff_of_true (UpstreamEnv.accountedOnce_of_contacts rfl) fun _ h => nomatch h
  | notSupported service upstream =>
      -- Nothing is sent for a method that the handler does not forward.
      have hnone : u.contacts g.maxRetries service upstream req = [] :=
        upstreamContacts_eq_nil_iff.mpr (hunsupported service upstream houtcome)
      exact iff_of_true (UpstreamEnv.accountedOnce_of_contacts
        (UpstreamEnv.contacts_complete.trans hnone)) fun _ h => nomatch h
  | forward f =>
      rw [UpstreamEnv.accountedOnce_complete_iff (hforwarded f houtcome)]
      constructor
      · rintro h _ ⟨⟩
        exact h
      · exact fun h => h f rfl

/-- An upstream that answers, plugins that do nothing, and a clock that stands still. -/
def quietUpstream : UpstreamEnv where
  lib := .plain
  scheme := "http"
  send _ _ := .ok ⟨200, [], some []⟩
  pluginOnResponse _ _ := []
  cache := .new 1 1 false
  storedAt := 0
  elapsed := 0
  formatMs _ := "0.00ms"
  timestamp := "1970-01-01T00:00:00+00:00"

/-- A gateway with one service, which has rules that do nothing. -/
def transformingGateway : Gateway where
  registry := (ServiceRegistry.new.registerAdvanced 0 0
    { name := "a", pathPrefix := "/a", upstream := "http://10.0.0.2", healthEndpoint := "/",
      upstreams := [], loadBalance := none, version := none, validationSchema := none,
      ipWhitelist := [], ipBlacklist := [], transform := some ⟨[], [], [], []⟩ }).2
  cbManager := .new 5 30 1
  lb := .new
  waf := ⟨false, [], [], [], [], [], .block⟩
  cacheEnabled := false
  maxRetries := 0

/-- Not every request that goes to an upstream is recorded: one for a service with rules is not. -/
theorem accountedOnce_fails :
    ¬ ∀ (env : GatewayEnv) (u : UpstreamEnv) (g : Gateway) (req : HttpRequest),
      AccountedOnce req (u.handle env g req) := by
  intro hall
  have honce := (accountedOnce_iff strictEnv.gateway quietUpstream transformingGateway
    ⟨"GET", "/a", "", [], none, []⟩).mp (hall _ _ _ _) _ rfl
  exact nomatch honce.1

end XiraNet

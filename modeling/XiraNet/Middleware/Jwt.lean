import XiraNet.Gateway.EntryPoints
import XiraNet.Lib.Path

/-!
# JWT authentication

`middleware/jwt.rs`: the paths that are exempt from the check, and the check of the token. The
exemption judges the normalized path, the gateway handler looks up the path as received.

* `exemptionAgrees_iff`: the paths for which the two agree for every registry.
* `exemptionAgrees_fails`: a traversal into an exempt path reaches a service without a token.
-/

namespace XiraNet

/-- The signature algorithms. -/
inductive Algorithm
  | hs256
  | hs384
  | hs512
  | rs256
  deriving DecidableEq, Repr

/-- The middleware, without its key. -/
structure JwtAuth where
  algorithm : Algorithm
  issuer : Option String
  audience : Option String
  enabled : Bool
  deriving DecidableEq, Repr

/-- `JwtKey`, by the secret that it is made of. -/
inductive JwtKey
  | hmac (secret : String)
  | rsaPem (pem : String)
  deriving DecidableEq, Repr

/-- `JwtInitError`. -/
inductive JwtInitError
  | weakSecret (length : ℕ)
  | defaultSecret
  | invalidRsaPem (e : String)
  | unsupportedAlgorithm (name : String)
  deriving DecidableEq, Repr

namespace JwtAuth

/-- `is_default_jwt_secret`, as `middleware/jwt.rs` has it. -/
def isDefaultJwtSecret (s : String) : Bool :=
  s ∈ ["", "your-jwt-secret-key-here", "change-me", "changeme", "secret", "jwt-secret",
    "xira-secret-key-change-me"]

/-- The name of an algorithm, in any case. -/
def parseAlgorithm (algorithmStr : String) : Except JwtInitError Algorithm :=
  let name := Text.toUppercase algorithmStr
  if name = "HS256" then .ok .hs256
  else if name = "HS384" then .ok .hs384
  else if name = "HS512" then .ok .hs512
  else if name = "RS256" then .ok .rs256
  else .error (.unsupportedAlgorithm name)

/-- The key of an enabled middleware. -/
def parseKey (fromRsaPem : String → Except String Unit) (algorithm : Algorithm) (secret : String) :
    Except JwtInitError JwtKey :=
  match algorithm with
  | .hs256 | .hs384 | .hs512 =>
      if secret.utf8ByteSize < 32 then .error (.weakSecret secret.utf8ByteSize)
      else .ok (.hmac secret)
  | .rs256 =>
      match fromRsaPem secret with
      | .ok () => .ok (.rsaPem secret)
      | .error e => .error (.invalidRsaPem e)

/-- `new_with_audience`, with the parser of RSA keys. -/
def newWithAudience (fromRsaPem : String → Except String Unit) (secret algorithmStr : String)
    (issuer audience : Option String) (enabled : Bool) : Except JwtInitError (JwtKey × JwtAuth) :=
  match parseAlgorithm algorithmStr with
  | .error e => .error e
  | .ok algorithm =>
      let jwt : JwtAuth := { algorithm, issuer, audience, enabled }
      if enabled = false then .ok (.hmac secret, jwt)
      else if isDefaultJwtSecret secret then .error .defaultSecret
      else (parseKey fromRsaPem algorithm secret).map (·, jwt)

/-- `new`. -/
def new (fromRsaPem : String → Except String Unit) (secret algorithmStr : String)
    (issuer : Option String) (enabled : Bool) : Except JwtInitError (JwtKey × JwtAuth) :=
  newWithAudience fromRsaPem secret algorithmStr issuer none enabled

end JwtAuth

/-- `jsonwebtoken::decode` with the key of the middleware, on the validation that it configures
and the token. -/
abbrev JwtDecode := Algorithm → Option String → Option String → String → Bool

/-- What `normalize_path` builds before it puts the trailing slash back: the segments that remain,
behind the leading slash. -/
def resolvedPath (p : String) : String :=
  (if Text.startsWith p "/" then "/" else "") ++
    String.ofList (Path.join (Path.resolve p.toList))

/-- `normalize_path`. -/
def normalizePath (p : String) : String :=
  let trailingSlash := decide (1 < p.utf8ByteSize) && Text.endsWith p "/"
  let out := resolvedPath p
  if trailingSlash && !Text.endsWith out "/" then out ++ "/" else out

example : normalizePath "/xira/../api//./secret/" = "/api/secret/" := by decide

/-- The exempt paths without a prefix of their own. -/
def exemptNames : List String :=
  ["/metrics", "/health", "/dashboard", "/ws/dashboard", "/ws/metrics"]

/-- `is_exempt_path`. -/
def isExemptPath (path : String) : Bool :=
  decide (path ∈ exemptNames) || Text.startsWith path "/xira/" || path = "/xira" ||
    Text.startsWith path "/auth/" || path = "/auth"

/-- The token in the `Authorization` header. -/
def bearerToken (req : HttpRequest) : Option String :=
  (req.header "Authorization").bind fun s => Text.stripPrefix s "Bearer "

/-- `JwtAuthMiddleware::call`. -/
def JwtAuth.call (decode : JwtDecode) (jwt : JwtAuth) (req : HttpRequest) : MiddlewareResult :=
  if !jwt.enabled then .forward
  -- What is judged here is not what the handler will look up: the path itself goes on unchanged.
  else if isExemptPath (normalizePath req.path) then .forward
  else
    match bearerToken req with
    | none =>
        .respond (.json 401 [("error", .string "Missing or invalid Authorization header"),
          ("hint", .string "Use: Authorization: Bearer <token>")])
    | some token =>
        if decode jwt.algorithm jwt.issuer jwt.audience token then .forward
        else .respond (.json 401 [("error", .string "Invalid or expired token")])

/-- A request without a token that the middleware lets through because of its path is forwarded
only to services with an exempt prefix. -/
def ExemptionAgrees (p : String) : Prop :=
  ∀ (decode : JwtDecode) (jwt : JwtAuth) (env : GatewayEnv) (g : Gateway) (req : HttpRequest)
    (f : Forwarded),
    jwt.enabled = true → (g.waf.enabled = false ∨ g.waf.mode = .detectOnly) →
      req.path = p → bearerToken req = none → jwt.call decode req = .forward →
        (Gateway.gatewayHandler env g req).1 = .forward f →
          isExemptPath f.service.pathPrefix = true

/-- The paths that are under an exempt prefix, or left to the admin API, as received. -/
def isExemptAsReceived (p : String) : Bool :=
  Text.startsWith p "/xira" || decide (p ∈ ["/metrics", "/dashboard", "/health", "/auth"]) ||
    Text.startsWith p "/auth/"

/-- An exempt path starts with a slash and does not end there. -/
theorem exempt_shape {s : String} (h : isExemptPath s = true) :
    s.toList.head? = some '/' ∧ s ≠ "/" := by
  simp only [isExemptPath, exemptNames, List.mem_cons, List.not_mem_nil, or_false,
    Bool.or_eq_true, decide_eq_true_eq, Text.startsWith_iff] at h
  have hshape : ∀ t : String, t.toList <+: s.toList → t.toList.head? = some '/' →
      1 < t.toList.length → s.toList.head? = some '/' ∧ s ≠ "/" := by
    rintro t ⟨u, hu⟩ hhead hlen
    refine ⟨?_, ?_⟩
    · rw [← hu, List.head?_append, hhead]
      rfl
    · rintro rfl
      have := congrArg List.length hu
      simp at this hlen
      omega
  rcases h with (((h | h) | rfl) | h) | rfl
  · rcases h with rfl | rfl | rfl | rfl | rfl <;> decide
  · exact hshape _ h (by decide) (by decide)
  · decide
  · exact hshape _ h (by decide) (by decide)
  · decide

/-- Normalization is resolution, with the slash at the end kept. -/
theorem normalizePath_cases (p : String) :
    normalizePath p = resolvedPath p ∨ normalizePath p = resolvedPath p ++ "/" := by
  unfold normalizePath
  dsimp only
  split
  next => exact .inr rfl
  next => exact .inl rfl

/-- A path whose normalized form is exempt starts with a slash and has a segment left. -/
theorem of_exempt_normalizePath {p : String} (h : isExemptPath (normalizePath p) = true) :
    Text.startsWith p "/" = true ∧ Path.resolve p.toList ≠ [] := by
  obtain ⟨hhead, hne⟩ := exempt_shape h
  have hstack : Path.resolve p.toList ≠ [] := by
    intro hnil
    have hresolved : resolvedPath p = "" ∨ resolvedPath p = "/" := by
      unfold resolvedPath
      rw [hnil]
      split
      · exact .inr (by decide)
      · exact .inl (by decide)
    -- The normalized path is empty, one slash or two.
    rcases normalizePath_cases p with heq | heq <;> rcases hresolved with hr | hr <;>
      rw [heq, hr] at h hne hhead
    · exact absurd h (by decide)
    · exact hne rfl
    · exact hne rfl
    · exact absurd h (by decide)
  refine ⟨?_, hstack⟩
  by_contra hstart
  have hjoin := Path.head_join_ne_slash p.toList
  have hresolved : (resolvedPath p).toList = Path.join (Path.resolve p.toList) := by
    simp [resolvedPath, hstart]
  rcases normalizePath_cases p with heq | heq
  · rw [heq, hresolved] at hhead
    exact hjoin hhead
  · rw [heq, String.toList_append, hresolved, List.head?_append] at hhead
    cases hjoined : (Path.join (Path.resolve p.toList)).head? with
    | none =>
        rw [List.head?_eq_none_iff] at hjoined
        have hempty : resolvedPath p = "" := String.toList_inj.mp (by rw [hresolved, hjoined]; rfl)
        rw [heq, hempty] at hne
        exact hne rfl
    | some c =>
        rw [hjoined] at hhead hjoin
        exact hjoin hhead

/-- An exempt name with slashes behind it is not exempt. -/
theorem not_exempt_of_slashes {q p : String} {k : ℕ} (hq : q ∈ exemptNames)
    (hp : p.toList = q.toList ++ List.replicate (k + 1) '/') :
    isExemptPath (normalizePath p) = false := by
  have hfacts : ∀ q ∈ exemptNames, Text.startsWith q "/" = true ∧ 1 < q.utf8ByteSize ∧
      resolvedPath q = q ∧ Text.endsWith q "/" = false ∧ isExemptPath (q ++ "/") = false := by
    decide
  obtain ⟨hstart, hsize, hresolved, hend, hexempt⟩ := hfacts q hq
  have hpq : p = q ++ String.ofList (List.replicate (k + 1) '/') := by
    apply String.toList_inj.mp
    rw [hp, String.toList_append, String.toList_ofList]
  have hstart' : Text.startsWith p "/" = true := by
    rw [Text.startsWith_iff] at hstart ⊢
    exact hstart.trans ⟨_, hp.symm⟩
  have hsize' : 1 < p.utf8ByteSize := by
    rw [hpq, String.utf8ByteSize_append]
    omega
  have hend' : Text.endsWith p "/" = true := by
    rw [Text.endsWith_iff, hp, List.replicate_succ', ← List.append_assoc]
    exact List.suffix_append _ _
  have hresolved' : resolvedPath p = q := by
    rw [← hresolved, resolvedPath, resolvedPath, hp, Path.resolve_append_slashes, hstart', hstart]
  simp [normalizePath, hresolved', hsize', hend', hend, hexempt]

/-- A prefix that matches a path under an exempt prefix is exempt itself. -/
theorem exempt_of_matchesPath {given p : String} (hne : given ≠ "")
    (hmatch : ServiceRegistry.matchesPath given p = true)
    (hp : p = "/health" ∨ p = "/auth" ∨ Text.startsWith p "/auth/" = true) :
    isExemptPath given = true := by
  have hne' : given.toList ≠ [] := fun h => hne (String.toList_inj.mp h)
  rcases Bool.or_eq_true _ _ |>.mp hmatch with hsame | hbelow
  · rw [← of_decide_eq_true hsame]
    rcases hp with rfl | rfl | hp
    · decide
    · decide
    · simp [isExemptPath, hp]
  · rw [Text.startsWith_iff, String.toList_append] at hbelow
    have hauth : given.toList = "/auth".toList ∨ "/auth/".toList <+: given.toList →
        isExemptPath given = true := by
      rintro (heq | hlong)
      · rw [String.toList_inj.mp heq]
        decide
      · simp [isExemptPath, Text.startsWith_iff.mpr hlong]
    -- The prefix ends before a slash of the path: at its start, or behind its first segment.
    rcases hp with rfl | rfl | hp
    · have hlen := hbelow.length_le
      have hbelow' := hbelow.trans (List.prefix_append "/health".toList ['/'])
      rcases Path.prefix_cases (w := "health".toList) (by decide) hbelow' with h | h | h
      · exact absurd h hne'
      · have heq : given = "/health" := String.toList_inj.mp h
        rw [heq]
        decide
      · have := h.length_le
        simp at this hlen
        omega
    · have hbelow' := hbelow.trans (List.prefix_append "/auth".toList ['/'])
      exact hauth ((Path.prefix_cases (w := "auth".toList) (by decide) hbelow').resolve_left hne')
    · obtain ⟨t, ht⟩ := Text.startsWith_iff.mp hp
      rw [← ht] at hbelow
      exact hauth ((Path.prefix_cases (w := "auth".toList) (t := t) (by decide)
        hbelow).resolve_left hne')

/-- What the gateway forwards under a path that is exempt as received goes to a service with an
exempt prefix. -/
theorem exemptionAgrees_of_received {p : String} (h : isExemptAsReceived p = true) :
    ExemptionAgrees p := by
  rintro decode jwt env g req f - - rfl - - hforward
  have hadmitted := Gateway.runChecks_eq_ok (Gateway.gatewayHandler_forward hforward).1
  obtain ⟨-, hmatch, hne⟩ := ServiceRegistry.lookup_eq_some hadmitted.lookup
  have hexternal := hadmitted.external
  simp only [Gateway.isInternalPath, Bool.or_eq_false_iff, decide_eq_false_iff_not] at hexternal
  obtain ⟨⟨⟨hxira, hmetrics⟩, -⟩, hdashboard⟩ := hexternal
  -- The handler serves no internal path, so only these three kinds are left.
  refine exempt_of_matchesPath hne hmatch ?_
  simp only [isExemptAsReceived, hxira, Bool.false_or, Bool.or_eq_true, decide_eq_true_eq,
    List.mem_cons, List.not_mem_nil, or_false] at h
  rcases h with (h | h | h | h) | h
  · exact absurd h hmetrics
  · exact absurd h hdashboard
  · exact .inl h
  · exact .inr (.inl h)
  · exact .inr (.inr h)

/-- A gateway with one service, registered under a prefix, that nothing protects. -/
def plainGateway (given : String) : Gateway where
  registry := (ServiceRegistry.new.register 0 0 "plain" given "http://10.0.0.2" "/").2
  cbManager := .new 5 30 1
  lb := .new
  waf := ⟨false, [], [], [], [], [], .block⟩
  cacheEnabled := false
  maxRetries := 0

/-- A request without headers. -/
def plainRequest (p : String) : HttpRequest where
  method := "GET"
  path := p
  query := ""
  headers := []
  peerAddr := none
  body := []

/-- The service of the plain gateway is found under every path that its prefix matches. -/
theorem lookup_plainGateway {given p : String} (hne : ServiceEntry.normalizePrefix given ≠ "")
    (hmatch : ServiceRegistry.matchesPath (ServiceEntry.normalizePrefix given) p = true) :
    (plainGateway given).registry.lookup p =
      some (ServiceEntry.new 0 0 "plain" given "http://10.0.0.2" "/") := by
  have hvalues : (plainGateway given).registry.services.values =
      [ServiceEntry.new 0 0 "plain" given "http://10.0.0.2" "/"] := rfl
  have hsize : 0 < (ServiceEntry.normalizePrefix given).utf8ByteSize :=
    Nat.pos_of_ne_zero fun h => hne (String.utf8ByteSize_eq_zero_iff.mp h)
  rw [ServiceRegistry.lookup, hvalues]
  simp [ServiceRegistry.lookupStep, ServiceEntry.new, hmatch, hsize]

/-- The plain gateway forwards what its service matches. -/
theorem gatewayHandler_plain {given p : String} (hexternal : Gateway.isInternalPath p = false)
    (hne : ServiceEntry.normalizePrefix given ≠ "")
    (hmatch : ServiceRegistry.matchesPath (ServiceEntry.normalizePrefix given) p = true) :
    ∃ f, (Gateway.gatewayHandler strictEnv.gateway (plainGateway given) (plainRequest p)).1 =
      .forward f ∧ f.service.pathPrefix = ServiceEntry.normalizePrefix given := by
  have hchecks : Gateway.runChecks strictEnv.gateway (plainGateway given) (plainRequest p) =
      .ok (ServiceEntry.new 0 0 "plain" given "http://10.0.0.2" "/") := by
    have hfound : Gateway.findService (plainGateway given).registry p =
        .ok (ServiceEntry.new 0 0 "plain" given "http://10.0.0.2" "/") :=
      Gateway.findService_eq_ok.mpr (lookup_plainGateway hne hmatch)
    simp only [Gateway.runChecks, plainRequest, hexternal, hfound]
    rfl
  let service := ServiceEntry.new 0 0 "plain" given "http://10.0.0.2" "/"
  refine ⟨⟨service, service.upstream, "GET",
    Gateway.downstreamUrl service service.upstream (plainRequest p)⟩, ?_, rfl⟩
  rw [Gateway.gatewayHandler, hchecks]
  rfl

/-- A registered prefix that matches an exempt path has to be exempt where the two agree. -/
theorem ExemptionAgrees.exempt {p : String} (h : ExemptionAgrees p) (given : String)
    (hexempt : isExemptPath (normalizePath p) = true)
    (hexternal : Gateway.isInternalPath p = false)
    (hne : ServiceEntry.normalizePrefix given ≠ "")
    (hmatch : ServiceRegistry.matchesPath (ServiceEntry.normalizePrefix given) p = true) :
    isExemptPath (ServiceEntry.normalizePrefix given) = true := by
  obtain ⟨f, hforward, hservice⟩ := gatewayHandler_plain hexternal hne hmatch
  rw [← hservice]
  refine h (fun _ _ _ _ => false) ⟨.hs256, none, none, true⟩ strictEnv.gateway (plainGateway given)
    (plainRequest p) f rfl (.inl rfl) rfl rfl ?_ hforward
  simp [JwtAuth.call, plainRequest, hexempt]

/-- A path matches the prefix that is left without the slashes at its end. -/
theorem matchesPath_trimEndMatches (p : String) :
    ServiceRegistry.matchesPath (Text.trimEndMatches p '/') p = true := by
  obtain ⟨k, hk⟩ := Text.exists_trimEndMatches p '/'
  cases k with
  | zero =>
      rw [List.replicate_zero, List.append_nil] at hk
      exact (Bool.or_eq_true _ _).mpr (.inl (decide_eq_true (String.toList_inj.mp hk)))
  | succ k =>
      have hnext : Text.startsWith p (Text.trimEndMatches p '/' ++ "/") = true := by
        rw [Text.startsWith_iff, hk, String.toList_append]
        exact (List.prefix_append_right_inj _).mpr (List.prefix_append ['/'] _)
      simp [ServiceRegistry.matchesPath, hnext]

/-- The exempt names that the gateway forwards are those of the dashboard sockets. -/
theorem socket_of_exemptNames {p : String} (hname : p ∈ exemptNames) (hmetrics : p ≠ "/metrics")
    (hhealth : p ≠ "/health") (hdashboard : p ≠ "/dashboard") :
    p = "/ws/dashboard" ∨ p = "/ws/metrics" := by
  simp only [exemptNames, List.mem_cons, List.not_mem_nil, or_false] at hname
  rcases hname with rfl | rfl | rfl | hname
  · exact absurd rfl hmetrics
  · exact absurd rfl hhealth
  · exact absurd rfl hdashboard
  · exact hname

/-- A path that is exempt only in its normalized form reaches a service that is not. -/
theorem not_agrees_of_exempt {p : String} (hexempt : isExemptPath (normalizePath p) = true)
    (hreceived : isExemptAsReceived p = false) : ¬ExemptionAgrees p := by
  intro h
  obtain ⟨hslash, hstack⟩ := of_exempt_normalizePath hexempt
  simp only [isExemptAsReceived, Bool.or_eq_false_iff, decide_eq_false_iff_not, List.mem_cons,
    List.not_mem_nil, or_false, not_or] at hreceived
  obtain ⟨⟨hxira, hmetrics, hdashboard, hhealth, hauth⟩, hbelow⟩ := hreceived
  have hexternal : Gateway.isInternalPath p = false := by
    have hws : p ≠ "/ws" := by
      rintro rfl
      exact absurd hexempt (by decide)
    simp [Gateway.isInternalPath, hxira, hmetrics, hdashboard, hws]
  -- A service is registered under the path without the slashes at its end.
  obtain ⟨k, hk⟩ := Text.exists_trimEndMatches p '/'
  have hstored : ServiceEntry.normalizePrefix p = Text.trimEndMatches p '/' := by
    rw [ServiceEntry.normalizePrefix, if_pos hslash]
  have hne : Text.trimEndMatches p '/' ≠ "" := by
    intro hempty
    rw [hk, hempty, Path.resolve_append_slashes] at hstack
    exact hstack (by decide)
  have hinitial : (Text.trimEndMatches p '/').toList <+: p.toList := ⟨_, hk.symm⟩
  have hown := h.exempt p hexempt hexternal (hstored ▸ hne)
    (hstored ▸ matchesPath_trimEndMatches p)
  rw [hstored] at hown
  have hstart : ∀ t : String, Text.startsWith (Text.trimEndMatches p '/') t = true →
      Text.startsWith p t = true := by
    intro t ht
    rw [Text.startsWith_iff] at ht ⊢
    exact ht.trans hinitial
  -- The prefix would have to be exempt, but then the path would be so as received.
  simp only [isExemptPath, Bool.or_eq_true, decide_eq_true_eq] at hown
  rcases hown with (((hname | hown) | hown) | hown) | hown
  · cases k with
    | succ k => rw [not_exempt_of_slashes hname hk] at hexempt; cases hexempt
    | zero =>
        rw [List.replicate_zero, List.append_nil, String.toList_inj] at hk
        rw [← hk] at hname
        -- Under the names of the dashboard sockets, the service is registered as `/ws`.
        have hws := socket_of_exemptNames hname hmetrics hhealth hdashboard
        have hsocket := h.exempt "/ws" hexempt hexternal (by decide) (by
          rcases hws with rfl | rfl <;> decide)
        exact absurd hsocket (by decide)
  · exact absurd (hstart "/xira" (Text.startsWith_iff.mpr
      ((by decide : "/xira".toList <+: "/xira/".toList).trans (Text.startsWith_iff.mp hown))))
      (Bool.eq_false_iff.mp hxira)
  · exact absurd (hstart "/xira" (by rw [hown]; decide)) (Bool.eq_false_iff.mp hxira)
  · exact absurd (hstart "/auth/" hown) (Bool.eq_false_iff.mp hbelow)
  · cases k with
    | zero =>
        rw [List.replicate_zero, List.append_nil, String.toList_inj] at hk
        exact hauth (hk.trans hown)
    | succ k =>
        have hnext : Text.startsWith p "/auth/" = true := by
          rw [Text.startsWith_iff, hk, hown]
          exact List.prefix_append "/auth/".toList _
        exact absurd hnext (Bool.eq_false_iff.mp hbelow)

/-- The exemption agrees with the routing of exactly those paths that are not exempt, or exempt as
received. -/
theorem exemptionAgrees_iff (p : String) :
    ExemptionAgrees p ↔ isExemptPath (normalizePath p) = false ∨ isExemptAsReceived p = true := by
  constructor
  · intro h
    by_contra hnot
    obtain ⟨hexempt, hreceived⟩ := not_or.mp hnot
    rw [Bool.not_eq_false] at hexempt
    rw [Bool.not_eq_true] at hreceived
    exact not_agrees_of_exempt hexempt hreceived h
  · rintro (hplain | hreceived)
    · rintro decode jwt env g req f henabled - rfl hnone hcall -
      simp [JwtAuth.call, henabled, hplain, hnone] at hcall
    · exact exemptionAgrees_of_received hreceived

/-- The exemption does not agree with the routing: the traversal out of `/api` into `/auth` is
exempt, and is forwarded to the service under `/api`. -/
theorem exemptionAgrees_fails : ¬ ∀ p, ExemptionAgrees p := by
  intro hall
  have hexempt := (hall "/api/../auth/x").exempt "/api" (by decide) (by decide) (by decide)
    (by decide)
  exact absurd hexempt (by decide)

end XiraNet

import XiraNet.Lib.Toml
import XiraNet.Registry.Models

/-!
# Configuration

`config/mod.rs`: the sections of the configuration, how they are read from a document with their
defaults, and the validation. A section that is missing has the default of its type, which need not
have the defaults of its fields. Fields that neither the validation nor the start nor the runtime
updates of the limits use are left out, as are floats.

* `XiraConfig.validate`: the checks.
* `XiraConfig.ok_validate_iff`: what a configuration without errors satisfies.
-/

namespace XiraNet

/-- `GatewayConfig`. -/
structure GatewayConfig where
  host : String
  port : ℕ
  workers : ℕ
  deriving DecidableEq, Repr

/-- `AdminConfig`. -/
structure AdminConfig where
  apiKey : String
  enabled : Bool
  deriving DecidableEq, Repr

/-- `HealthConfig`. -/
structure HealthConfig where
  intervalSecs : ℕ
  timeoutSecs : ℕ
  deriving DecidableEq, Repr

/-- `TlsConfig`. -/
structure TlsConfig where
  enabled : Bool
  certPath : String
  keyPath : String
  mtlsEnabled : Bool
  clientCaPath : Option String
  deriving DecidableEq, Repr

/-- `AlertingConfig`. -/
structure AlertingConfig where
  enabled : Bool
  webhookUrl : Option String
  onServiceDown : Bool
  onServiceUp : Bool
  deriving DecidableEq, Repr

/-- `RateLimitConfig`. -/
structure RateLimitConfig where
  maxRequests : ℕ
  windowSecs : ℕ
  trustXff : Bool
  trustedProxies : List String
  deriving DecidableEq, Repr

/-- `CacheConfig`. -/
structure CacheConfig where
  enabled : Bool
  ttlSecs : ℕ
  maxEntries : ℕ
  deriving DecidableEq, Repr

/-- `JwtConfig`. -/
structure JwtConfig where
  enabled : Bool
  secret : String
  algorithm : String
  issuer : Option String
  deriving DecidableEq, Repr

/-- `CircuitBreakerConfig`. -/
structure CircuitBreakerConfig where
  failureThreshold : ℕ
  resetTimeoutSecs : ℕ
  halfOpenMaxRequests : ℕ
  deriving DecidableEq, Repr

/-- `RetryConfig`. -/
structure RetryConfig where
  maxRetries : ℕ
  delayMs : ℕ
  deriving DecidableEq, Repr

/-- `PluginConfig`. -/
structure PluginConfig where
  enabled : Bool
  directory : String
  deriving DecidableEq, Repr

/-- `DiscoveryConfig`. -/
structure DiscoveryConfig where
  intervalSecs : ℕ
  dockerEnabled : Bool
  deriving DecidableEq, Repr

/-- `BusConfig`. -/
structure BusConfig where
  backend : String
  redisUrl : String
  deriving DecidableEq, Repr

/-- `XiraConfig`, with the one field that is used of `identity` and of `cors`. -/
structure XiraConfig where
  gateway : GatewayConfig
  admin : AdminConfig
  health : HealthConfig
  tls : Option TlsConfig
  alerting : AlertingConfig
  rateLimit : RateLimitConfig
  cache : CacheConfig
  jwt : JwtConfig
  circuitBreaker : CircuitBreakerConfig
  retry : RetryConfig
  plugins : PluginConfig
  services : List ServiceConfig
  discovery : DiscoveryConfig
  passwordMinLength : ℕ
  allowedOrigins : List String
  bus : BusConfig
  deriving DecidableEq, Repr

section Read

open Toml

/-- Read `[gateway]`. -/
def GatewayConfig.read (t : Toml) : Option GatewayConfig := do
  let host ← t.field "host" asString none
  let port ← t.field "port" (asUnsigned 16) none
  let workers ← t.field "workers" (asUnsigned 64) (some 4)
  return { host, port, workers }

/-- Read `[admin]`. -/
def AdminConfig.read (t : Toml) : Option AdminConfig := do
  let apiKey ← t.field "api_key" asString none
  let enabled ← t.field "enabled" asBool none
  return { apiKey, enabled }

/-- Read `[health]`. -/
def HealthConfig.read (t : Toml) : Option HealthConfig := do
  let intervalSecs ← t.field "interval_secs" (asUnsigned 64) none
  let timeoutSecs ← t.field "timeout_secs" (asUnsigned 64) none
  return { intervalSecs, timeoutSecs }

/-- Read `[tls]`. -/
def TlsConfig.read (t : Toml) : Option TlsConfig := do
  let enabled ← t.field "enabled" asBool none
  let certPath ← t.field "cert_path" asString none
  let keyPath ← t.field "key_path" asString none
  let mtlsEnabled ← t.field "mtls_enabled" asBool (some false)
  let clientCaPath ← t.field "client_ca_path" (asOption asString) (some none)
  return { enabled, certPath, keyPath, mtlsEnabled, clientCaPath }

/-- The derived default. -/
def AlertingConfig.default : AlertingConfig := ⟨false, none, false, false⟩

/-- Read `[alerting]`. -/
def AlertingConfig.read (t : Toml) : Option AlertingConfig := do
  let enabled ← t.field "enabled" asBool (some false)
  let webhookUrl ← t.field "webhook_url" (asOption asString) (some none)
  let onServiceDown ← t.field "on_service_down" asBool (some false)
  let onServiceUp ← t.field "on_service_up" asBool (some false)
  return { enabled, webhookUrl, onServiceDown, onServiceUp }

/-- The default, written out in the source. -/
def RateLimitConfig.default : RateLimitConfig := ⟨100, 60, false, []⟩

/-- Read `[rate_limit]`. -/
def RateLimitConfig.read (t : Toml) : Option RateLimitConfig := do
  let maxRequests ← t.field "max_requests" (asUnsigned 32) (some 100)
  let windowSecs ← t.field "window_secs" (asUnsigned 64) (some 60)
  let trustXff ← t.field "trust_xff" asBool (some false)
  let trustedProxies ← t.field "trusted_proxies" (asList asString) (some [])
  return { maxRequests, windowSecs, trustXff, trustedProxies }

/-- The derived default, which is not that of the fields. -/
def CacheConfig.default : CacheConfig := ⟨false, 0, 0⟩

/-- Read `[cache]`. -/
def CacheConfig.read (t : Toml) : Option CacheConfig := do
  let enabled ← t.field "enabled" asBool (some false)
  let ttlSecs ← t.field "ttl_secs" (asUnsigned 64) (some 300)
  let maxEntries ← t.field "max_entries" (asUnsigned 64) (some 1000)
  return { enabled, ttlSecs, maxEntries }

/-- The derived default: the algorithm is the empty string, not that of the field. -/
def JwtConfig.default : JwtConfig := ⟨false, "", "", none⟩

/-- Read `[jwt]`. -/
def JwtConfig.read (t : Toml) : Option JwtConfig := do
  let enabled ← t.field "enabled" asBool (some false)
  let secret ← t.field "secret" asString (some "")
  let algorithm ← t.field "algorithm" asString (some "HS256")
  let issuer ← t.field "issuer" (asOption asString) (some none)
  return { enabled, secret, algorithm, issuer }

/-- The default, written out in the source. -/
def CircuitBreakerConfig.default : CircuitBreakerConfig := ⟨5, 30, 3⟩

/-- Read `[circuit_breaker]`. -/
def CircuitBreakerConfig.read (t : Toml) : Option CircuitBreakerConfig := do
  let failureThreshold ← t.field "failure_threshold" (asUnsigned 32) (some 5)
  let resetTimeoutSecs ← t.field "reset_timeout_secs" (asUnsigned 64) (some 30)
  let halfOpenMaxRequests ← t.field "half_open_max_requests" (asUnsigned 32) (some 3)
  return { failureThreshold, resetTimeoutSecs, halfOpenMaxRequests }

/-- The default, written out in the source. -/
def RetryConfig.default : RetryConfig := ⟨3, 100⟩

/-- Read `[retry]`. -/
def RetryConfig.read (t : Toml) : Option RetryConfig := do
  let maxRetries ← t.field "max_retries" (asUnsigned 32) (some 3)
  let delayMs ← t.field "delay_ms" (asUnsigned 64) (some 100)
  return { maxRetries, delayMs }

/-- The derived default, which is not that of the fields. -/
def PluginConfig.default : PluginConfig := ⟨false, ""⟩

/-- Read `[plugins]`. -/
def PluginConfig.read (t : Toml) : Option PluginConfig := do
  let enabled ← t.field "enabled" asBool (some false)
  let directory ← t.field "directory" asString (some "plugins")
  return { enabled, directory }

/-- The derived default, which is not that of the fields. -/
def DiscoveryConfig.default : DiscoveryConfig := ⟨0, false⟩

/-- Read `[discovery]`. -/
def DiscoveryConfig.read (t : Toml) : Option DiscoveryConfig := do
  let intervalSecs ← t.field "interval_secs" (asUnsigned 64) (some 30)
  let dockerEnabled ← t.field "docker_enabled" asBool (some false)
  return { intervalSecs, dockerEnabled }

/-- The default, written out in the source. -/
def BusConfig.default : BusConfig := ⟨"noop", ""⟩

/-- Read `[bus]`. -/
def BusConfig.read (t : Toml) : Option BusConfig := do
  let backend ← t.field "backend" asString (some "noop")
  let redisUrl ← t.field "redis_url" asString (some "")
  return { backend, redisUrl }

/-- Read the `transform` of a service. -/
def TransformConfig.read (t : Toml) : Option TransformConfig := do
  let addRequestHeaders ← t.field "add_request_headers" (asMap asString) (some [])
  let removeRequestHeaders ← t.field "remove_request_headers" (asList asString) (some [])
  let addResponseHeaders ← t.field "add_response_headers" (asMap asString) (some [])
  let removeResponseHeaders ← t.field "remove_response_headers" (asList asString) (some [])
  return { addRequestHeaders, removeRequestHeaders, addResponseHeaders, removeResponseHeaders }

/-- Read an entry of `[[services]]`. -/
def ServiceConfig.read (t : Toml) : Option ServiceConfig := do
  let name ← t.field "name" asString none
  let pathPrefix ← t.field "prefix" asString none
  let upstream ← t.field "upstream" asString none
  let healthEndpoint ← t.field "health_endpoint" asString (some "/health")
  let upstreams ← t.field "upstreams" (asList asString) (some [])
  let loadBalance ← t.field "load_balance" (asOption asString) (some none)
  let version ← t.field "version" (asOption asString) (some none)
  let transform ← t.field "transform" (asOption TransformConfig.read) (some none)
  let validationSchema ← t.field "validation_schema" (asOption asString) (some none)
  let ipWhitelist ← t.field "ip_whitelist" (asList asString) (some [])
  let ipBlacklist ← t.field "ip_blacklist" (asList asString) (some [])
  return {
    name, pathPrefix, upstream, healthEndpoint, upstreams, loadBalance, version, transform,
    validationSchema, ipWhitelist, ipBlacklist }

/-- `default_cors_origins`. -/
def defaultCorsOrigins : List String := ["http://localhost", "http://127.0.0.1"]

/-- Read a document. -/
def XiraConfig.read (t : Toml) : Option XiraConfig := do
  let gateway ← t.field "gateway" GatewayConfig.read none
  let admin ← t.field "admin" AdminConfig.read none
  let health ← t.field "health" HealthConfig.read none
  let tls ← t.field "tls" (asOption TlsConfig.read) (some none)
  let alerting ← t.field "alerting" AlertingConfig.read (some .default)
  let rateLimit ← t.field "rate_limit" RateLimitConfig.read (some .default)
  let cache ← t.field "cache" CacheConfig.read (some .default)
  let jwt ← t.field "jwt" JwtConfig.read (some .default)
  let circuitBreaker ← t.field "circuit_breaker" CircuitBreakerConfig.read (some .default)
  let retry ← t.field "retry" RetryConfig.read (some .default)
  let plugins ← t.field "plugins" PluginConfig.read (some .default)
  let services ← t.field "services" (asList ServiceConfig.read) (some [])
  let discovery ← t.field "discovery" DiscoveryConfig.read (some .default)
  let passwordMinLength ←
    t.field "identity" (fun t => t.field "password_min_length" (asUnsigned 64) (some 8)) (some 8)
  let allowedOrigins ←
    t.field "cors"
      (fun t => t.field "allowed_origins" (asList asString) (some defaultCorsOrigins))
      (some defaultCorsOrigins)
  let bus ← t.field "bus" BusConfig.read (some .default)
  return {
    gateway, admin, health, tls, alerting, rateLimit, cache, jwt, circuitBreaker, retry, plugins,
    services, discovery, passwordMinLength, allowedOrigins, bus }

end Read

/-- `ValidationReport`. -/
structure ValidationReport where
  errors : List String
  warnings : List String
  deriving DecidableEq

namespace ValidationReport

/-- One error, if a condition holds. -/
def errorIf (p : Prop) [Decidable p] (e : String) : ValidationReport :=
  ⟨if p then [e] else [], []⟩

/-- One warning, if a condition holds. -/
def warningIf (p : Prop) [Decidable p] (w : String) : ValidationReport :=
  ⟨[], if p then [w] else []⟩

instance : Append ValidationReport :=
  ⟨fun r r' => ⟨r.errors ++ r'.errors, r.warnings ++ r'.warnings⟩⟩

/-- `ok`. -/
def ok (r : ValidationReport) : Bool := r.errors.isEmpty

/-- Checks that follow one another have no errors exactly if none of them has. -/
@[simp]
theorem ok_append (r r' : ValidationReport) : (r ++ r').ok = (r.ok && r'.ok) := by
  obtain ⟨errors, warnings⟩ := r
  cases errors <;> rfl

/-- A check for an error. -/
@[simp]
theorem ok_errorIf (p : Prop) [Decidable p] (e : String) : (errorIf p e).ok = true ↔ ¬ p := by
  by_cases hp : p <;> simp [ok, errorIf, hp]

/-- A check for a warning has no error. -/
@[simp]
theorem ok_warningIf (p : Prop) [Decidable p] (w : String) : (warningIf p w).ok = true := rfl

end ValidationReport

/-- What the validation asks of its surroundings. -/
structure ConfigEnv where
  /-- `Path::exists`. -/
  pathExists : String → Bool
  /-- `DecodingKey::from_rsa_pem`. -/
  fromRsaPem : String → Except String Unit

/-- `is_default_admin_key`. -/
def isDefaultAdminKey (apiKey : String) : Bool :=
  apiKey ∈ ["", "xira-default-key", "xira-secret-key-change-me", "change-me", "changeme", "secret"]

/-- `is_default_jwt_secret`, as `config/mod.rs` has it. -/
def isDefaultJwtSecret (s : String) : Bool :=
  s ∈ ["", "your-jwt-secret-key-here", "change-me", "changeme", "secret", "jwt-secret",
    "xira-secret-key-change-me"]

/-- `binds_externally`. -/
def bindsExternally (host : String) : Bool := host ∉ ["127.0.0.1", "localhost", "::1"]

namespace XiraConfig

open ValidationReport

variable (env : ConfigEnv) (cfg : XiraConfig)

/-- 1) A default key of the admin API. -/
def validateAdminKey : ValidationReport :=
  if isDefaultAdminKey cfg.admin.apiKey then
    if bindsExternally cfg.gateway.host then
      ⟨["admin.api_key is a known default and gateway.host = " ++ cfg.gateway.host ++
        " binds externally — refuse to start"], []⟩
    else ⟨[], ["admin.api_key is a known default; change before deploying externally"]⟩
  else ⟨[], []⟩

/-- 2) The secret for tokens. -/
def validateJwt : ValidationReport :=
  if cfg.jwt.enabled then
    let algo := Text.toUppercase cfg.jwt.algorithm
    errorIf (isDefaultJwtSecret cfg.jwt.secret)
        "jwt.secret is a known default/example value — refuse to start with jwt.enabled=true" ++
      if algo = "HS256" ∨ algo = "HS384" ∨ algo = "HS512" then
        errorIf (cfg.jwt.secret.utf8ByteSize < 32)
          ("jwt.secret too short (" ++ toString cfg.jwt.secret.utf8ByteSize ++
            " bytes), HMAC algorithms require >= 32 bytes")
      else if algo = "RS256" then
        errorIf ((env.fromRsaPem cfg.jwt.secret).isOk = false)
          "jwt.algorithm = RS256 but jwt.secret is not a valid RSA PEM"
      else
        ⟨["jwt.algorithm = " ++ algo ++ " unsupported (HS256/HS384/HS512/RS256)"], []⟩
  else ⟨[], []⟩

/-- 4) The loop over the services, with the prefixes seen so far. -/
def validatePrefixes (seen : List String) : List ServiceConfig → ValidationReport
  | [] => ⟨[], []⟩
  | svc :: svcs =>
      errorIf (svc.pathPrefix ∈ seen)
          ("duplicate [[services]] prefix: " ++ svc.pathPrefix ++
            " (each prefix must be unique)") ++
        validatePrefixes (svc.pathPrefix :: seen) svcs

/-- 5) The files of TLS. -/
def validateTls : ValidationReport :=
  match cfg.tls with
  | none => ⟨[], []⟩
  | some tls =>
      if tls.enabled then
        errorIf (env.pathExists tls.certPath = false)
            ("tls.cert_path not found: " ++ tls.certPath) ++
          errorIf (env.pathExists tls.keyPath = false)
              ("tls.key_path not found: " ++ tls.keyPath) ++
            if tls.mtlsEnabled then
              match tls.clientCaPath with
              | some ca =>
                  errorIf (env.pathExists ca = false) ("tls.client_ca_path not found: " ++ ca)
              | none => ⟨["tls.mtls_enabled = true requires client_ca_path"], []⟩
            else ⟨[], []⟩
      else ⟨[], []⟩

/-- 10) The bus. -/
def validateBus : ValidationReport :=
  if cfg.bus.backend = "noop" then ⟨[], []⟩
  else if cfg.bus.backend = "redis" then
    if cfg.bus.redisUrl = "" then ⟨["bus.backend = \"redis\" requires bus.redis_url"], []⟩
    else
      errorIf (Text.startsWith cfg.bus.redisUrl "redis://" = false ∧
          Text.startsWith cfg.bus.redisUrl "rediss://" = false)
        ("bus.redis_url must start with redis:// or rediss://, got: " ++ cfg.bus.redisUrl)
  else ⟨["bus.backend = " ++ cfg.bus.backend ++ " unsupported (noop|redis)"], []⟩

/-- `validate`. -/
def validate : ValidationReport :=
  cfg.validateAdminKey ++ cfg.validateJwt env ++
    -- 3)
    warningIf (cfg.allowedOrigins = [])
      "cors.allowed_origins is empty — browser requests will be rejected by CORS" ++
    validatePrefixes [] cfg.services ++ cfg.validateTls env ++
    -- 6)
    warningIf (cfg.passwordMinLength < 8)
      ("identity.password_min_length = " ++ toString cfg.passwordMinLength ++
        " is below recommended 8") ++
    -- 7)
    warningIf (cfg.plugins.enabled = true ∧ env.pathExists cfg.plugins.directory = false)
      ("plugins.enabled = true but directory not found: " ++ cfg.plugins.directory) ++
    -- 8)
    errorIf (cfg.rateLimit.maxRequests = 0) "rate_limit.max_requests = 0 blocks all traffic" ++
    -- 9)
    warningIf (cfg.cache.enabled = true ∧ cfg.cache.maxEntries = 0)
      "cache.enabled = true but cache.max_entries = 0 (cache effectively off)" ++
    cfg.validateBus

variable {env cfg}

/-- The checks that can refuse a configuration. -/
theorem ok_validate_iff :
    (cfg.validate env).ok = true ↔
      cfg.validateAdminKey.ok = true ∧ (cfg.validateJwt env).ok = true ∧
        (validatePrefixes [] cfg.services).ok = true ∧ (cfg.validateTls env).ok = true ∧
          cfg.rateLimit.maxRequests ≠ 0 ∧ cfg.validateBus.ok = true := by
  simp [validate, and_assoc]

end XiraConfig

end XiraNet

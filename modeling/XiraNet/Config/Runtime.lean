import XiraNet.Config.XiraConfig
import XiraNet.Gateway.Cache
import XiraNet.Gateway.CircuitBreaker
import XiraNet.Http
import XiraNet.Lib.Runs
import XiraNet.Middleware.ClientIp

/-!
# Configuration at run time

The shared configuration and its three writers and readers: the watcher of the file
(`config/mod.rs`), the handler of updates (`admin/config_api.rs`) and the task that brings the
limits of the running parts in line every second (`bootstrap/state.rs`). Each holds the lock of the
configuration, so each is one step. The patterns of the WAF are left out.

* `get_updateSection`: what an update stores.
* `asAccepted_throughout_iff`: when the configuration stays valid and as it was accepted.
-/

namespace XiraNet

/-- `Value::get`. -/
def Json.get (v : Json) (name : String) : Option Json :=
  match v with
  | .object fields => fields.lookup name
  | _ => none

/-- `Value::as_u64`, of a number without a sign, a point and an exponent. -/
def Json.asU64 : Json → Option ℕ
  | .number literal => Text.parseUnsigned (2 ^ 64 - 1) literal.toList
  | _ => none

/-- `get(name).and_then(|v| v.as_u64())`. -/
def Json.getU64 (v : Json) (name : String) : Option ℕ := (v.get name).bind Json.asU64

/-- `Value::as_bool`. -/
def Json.asBool : Json → Option Bool
  | .bool b => some b
  | _ => none

/-- `Value::as_str`. -/
def Json.asStr : Json → Option String
  | .string s => some s
  | _ => none

/-- The sections that can be updated. -/
inductive ConfigSection
  | rateLimit
  | cache
  | circuitBreaker
  | retry
  | alerting
  deriving DecidableEq, Repr

/-- The section of a request. -/
def ConfigSection.ofName (name : String) : Option ConfigSection :=
  if name = "rate_limit" then some .rateLimit
  else if name = "cache" then some .cache
  else if name = "circuit_breaker" then some .circuitBreaker
  else if name = "retry" then some .retry
  else if name = "alerting" then some .alerting
  else none

/-- The numeric fields of these sections. -/
inductive ConfigField
  | maxRequests
  | windowSecs
  | ttlSecs
  | maxEntries
  | failureThreshold
  | resetTimeoutSecs
  | halfOpenMaxRequests
  | maxRetries
  | delayMs
  deriving DecidableEq, Repr

namespace ConfigField

/-- The section of a field. -/
def «section» : ConfigField → ConfigSection
  | .maxRequests | .windowSecs => .rateLimit
  | .ttlSecs | .maxEntries => .cache
  | .failureThreshold | .resetTimeoutSecs | .halfOpenMaxRequests => .circuitBreaker
  | .maxRetries | .delayMs => .retry

/-- The name of a field. -/
def name : ConfigField → String
  | .maxRequests => "max_requests"
  | .windowSecs => "window_secs"
  | .ttlSecs => "ttl_secs"
  | .maxEntries => "max_entries"
  | .failureThreshold => "failure_threshold"
  | .resetTimeoutSecs => "reset_timeout_secs"
  | .halfOpenMaxRequests => "half_open_max_requests"
  | .maxRetries => "max_retries"
  | .delayMs => "delay_ms"

/-- The field is a `u32`. -/
def isU32 : ConfigField → Bool
  | .maxRequests | .failureThreshold | .halfOpenMaxRequests | .maxRetries => true
  | _ => false

/-- The least value of a field in the running parts. -/
def floor : ConfigField → ℕ
  | .maxRequests | .windowSecs | .failureThreshold | .halfOpenMaxRequests => 1
  | _ => 0

/-- What a number is stored as. -/
def stored (f : ConfigField) (v : ℕ) : ℕ := if f.isU32 then v % 2 ^ 32 else v

end ConfigField

/-- A numeric field of the configuration. -/
def XiraConfig.get (cfg : XiraConfig) : ConfigField → ℕ
  | .maxRequests => cfg.rateLimit.maxRequests
  | .windowSecs => cfg.rateLimit.windowSecs
  | .ttlSecs => cfg.cache.ttlSecs
  | .maxEntries => cfg.cache.maxEntries
  | .failureThreshold => cfg.circuitBreaker.failureThreshold
  | .resetTimeoutSecs => cfg.circuitBreaker.resetTimeoutSecs
  | .halfOpenMaxRequests => cfg.circuitBreaker.halfOpenMaxRequests
  | .maxRetries => cfg.retry.maxRetries
  | .delayMs => cfg.retry.delayMs

/-- The number that a request carries for a field. -/
def carriedNumber (sec : ConfigSection) (values : Json) (f : ConfigField) : Option ℕ :=
  if f.section = sec then values.getU64 f.name else none

/-- The start of `update_config`: the section with the new values. -/
def XiraConfig.updateSection (cfg : XiraConfig) (sec : ConfigSection) (values : Json) :
    XiraConfig :=
  let asU32 (v : ℕ) := v % 2 ^ 32
  let bool (name : String) := (values.get name).bind Json.asBool
  match sec with
  | .rateLimit =>
      { cfg with rateLimit :=
        { cfg.rateLimit with
          maxRequests := ((values.getU64 "max_requests").map asU32).getD cfg.rateLimit.maxRequests
          windowSecs := (values.getU64 "window_secs").getD cfg.rateLimit.windowSecs } }
  | .cache =>
      { cfg with cache :=
        { enabled := (bool "enabled").getD cfg.cache.enabled
          ttlSecs := (values.getU64 "ttl_secs").getD cfg.cache.ttlSecs
          maxEntries := (values.getU64 "max_entries").getD cfg.cache.maxEntries } }
  | .circuitBreaker =>
      { cfg with circuitBreaker :=
        { failureThreshold :=
            ((values.getU64 "failure_threshold").map asU32).getD cfg.circuitBreaker.failureThreshold
          resetTimeoutSecs :=
            (values.getU64 "reset_timeout_secs").getD cfg.circuitBreaker.resetTimeoutSecs
          halfOpenMaxRequests :=
            ((values.getU64 "half_open_max_requests").map asU32).getD
              cfg.circuitBreaker.halfOpenMaxRequests } }
  | .retry =>
      { cfg with retry :=
        { maxRetries := ((values.getU64 "max_retries").map asU32).getD cfg.retry.maxRetries
          delayMs := (values.getU64 "delay_ms").getD cfg.retry.delayMs } }
  | .alerting =>
      { cfg with alerting :=
        { enabled := (bool "enabled").getD cfg.alerting.enabled
          onServiceDown := (bool "on_service_down").getD cfg.alerting.onServiceDown
          onServiceUp := (bool "on_service_up").getD cfg.alerting.onServiceUp
          -- A value that is no string removes the URL.
          webhookUrl :=
            match values.get "webhook_url" with
            | some url => url.asStr
            | none => cfg.alerting.webhookUrl } }

/-- The fields of a request that take effect with a restart. -/
def restartRequiredFields (sec : ConfigSection) (values : Json) : List String :=
  if (carriedNumber sec values .maxEntries).isSome then ["cache.max_entries"] else []

/-- The limits of the rate limiter, with what it trusts. -/
structure LimiterState where
  maxRequests : ℕ
  windowSecs : ℕ
  inner : RateLimit.Inner

/-- `set_limits`. -/
def LimiterState.setLimits (l : LimiterState) (maxRequests windowSecs : ℕ) : LimiterState :=
  { l with maxRequests := max maxRequests 1, windowSecs := max windowSecs 1 }

/-- The running parts that follow the configuration. -/
structure RunningParts where
  limiter : LimiterState
  cache : ResponseCache
  breakers : CircuitBreakerManager
  alerts : AlertingConfig

namespace RunningParts

variable (parts : RunningParts) (cfg : XiraConfig)

/-- `set_limits` of the rate limiter. -/
def setLimits : RunningParts :=
  { parts with
    limiter := parts.limiter.setLimits cfg.rateLimit.maxRequests cfg.rateLimit.windowSecs }

/-- `set_enabled` and `set_ttl_secs` of the cache. -/
def setCache : RunningParts :=
  { parts with cache := (parts.cache.setEnabled cfg.cache.enabled).setTtlSecs cfg.cache.ttlSecs }

/-- `update_config` of the circuit breaker. -/
def setBreakers : RunningParts :=
  { parts with
    breakers := parts.breakers.updateConfig cfg.circuitBreaker.failureThreshold
      cfg.circuitBreaker.resetTimeoutSecs cfg.circuitBreaker.halfOpenMaxRequests }

/-- `update_config` of the alert manager. -/
def setAlerts : RunningParts := { parts with alerts := cfg.alerting }

/-- The end of `update_config`: the part of the section follows at once. -/
def applySection : ConfigSection → RunningParts
  | .rateLimit => parts.setLimits cfg
  | .cache => parts.setCache cfg
  | .circuitBreaker => parts.setBreakers cfg
  | .retry => parts
  | .alerting => parts.setAlerts cfg

/-- A tick of `spawn_config_sync`. -/
def sync : RunningParts :=
  let parts := parts.setLimits cfg
  let parts := { parts with limiter := { parts.limiter with
    inner := ⟨cfg.rateLimit.trustXff, RateLimit.parseProxies cfg.rateLimit.trustedProxies⟩ } }
  ((parts.setCache cfg).setBreakers cfg).setAlerts cfg

/-- The parts at the start, as `AppState::init` makes them. -/
def init : RunningParts where
  limiter :=
    { maxRequests := max cfg.rateLimit.maxRequests 1
      windowSecs := max cfg.rateLimit.windowSecs 1
      inner := ⟨cfg.rateLimit.trustXff, RateLimit.parseProxies cfg.rateLimit.trustedProxies⟩ }
  cache := .new cfg.cache.maxEntries cfg.cache.ttlSecs cfg.cache.enabled
  breakers := .new cfg.circuitBreaker.failureThreshold cfg.circuitBreaker.resetTimeoutSecs
    cfg.circuitBreaker.halfOpenMaxRequests
  alerts := cfg.alerting

/-- A field in the rate limiter or the circuit breaker, if it has a place there. -/
def get : ConfigField → Option ℕ
  | .maxRequests => some parts.limiter.maxRequests
  | .windowSecs => some parts.limiter.windowSecs
  | .failureThreshold => some parts.breakers.config.failureThreshold
  | .resetTimeoutSecs => some parts.breakers.config.resetTimeoutSecs
  | .halfOpenMaxRequests => some parts.breakers.config.halfOpenMaxRequests
  | _ => none

end RunningParts

/-- An accepted number, and whether a tick has come since. -/
structure Accepted where
  value : ℕ
  synced : Bool
  deriving DecidableEq

/-- The configuration and the running parts, with the numbers that the last accepted requests
carried. A new file supersedes them. -/
structure ConfigState where
  config : XiraConfig
  parts : RunningParts
  accepted : ConfigField → Option Accepted

/-- The steps: the watcher reads a file, which may be no document, a request arrives, or the task
ticks. -/
inductive ConfigAction
  | reload (file : Option Toml)
  | updateConfig (sectionName : String) (values : Json)
  | sync

namespace ConfigState

/-- One step. -/
def step (s : ConfigState) : ConfigAction → ConfigState
  | .reload file =>
      match file.bind XiraConfig.read with
      | some config => { s with config, accepted := fun _ => none }
      | none => s
  | .updateConfig sectionName values =>
      match ConfigSection.ofName sectionName with
      | some sec =>
          let config := s.config.updateSection sec values
          { config
            parts := s.parts.applySection config sec
            accepted := fun f =>
              match carriedNumber sec values f with
              | some v => some ⟨v, false⟩
              | none => s.accepted f }
      | none => s
  | .sync =>
      { s with
        parts := s.parts.sync s.config
        accepted := fun f => (s.accepted f).map fun a => { a with synced := true } }

/-- The response of `update_config`. -/
def response (sectionName : String) (values : Json) : HttpResponse :=
  match ConfigSection.ofName sectionName with
  | some sec =>
      let fields := restartRequiredFields sec values
      .json 200 [("status", .string "updated"), ("section", .string sectionName),
        ("applied_runtime", .bool true), ("restart_required", .bool !fields.isEmpty),
        ("restart_required_fields", .array (fields.map .string)),
        ("message", .string ("Config section '" ++ sectionName ++ "' updated successfully"))]
  | none =>
      .json 400 [("error", .string "Unknown config section"), ("section", .string sectionName),
        ("valid_sections", .array <| ["rate_limit", "cache", "circuit_breaker", "retry",
          "alerting"].map .string)]

/-- Every order of steps. -/
def machine : Machine ConfigState ConfigAction := ⟨fun s a => some (s.step a)⟩

/-- The state after the start with a configuration. -/
def initial (cfg : XiraConfig) : ConfigState := ⟨cfg, .init cfg, fun _ => none⟩

variable (env : ConfigEnv)

/-- The configuration is valid, and accepted numbers are in it and, after a tick, in the running
parts. -/
structure AsAccepted (s : ConfigState) : Prop where
  valid : (s.config.validate env).ok = true
  shared : ∀ f a, s.accepted f = some a → s.config.get f = a.value
  running : ∀ f a, s.accepted f = some a → a.synced = true → ∀ v ∈ s.parts.get f, v = a.value

/-- The condition on a step: a file that is read is valid, a request carries no number that a `u32`
field does not hold and no zero for the number of requests, and no zero that was accepted for a
limit with a larger floor awaits the tick. -/
def Meets (s : ConfigState) : ConfigAction → Prop
  | .reload file => ∀ cfg, file.bind XiraConfig.read = some cfg → (cfg.validate env).ok = true
  | .updateConfig sectionName values =>
      ∀ sec, ConfigSection.ofName sectionName = some sec →
        ∀ f v, carriedNumber sec values f = some v →
          (f.isU32 = true → v < 2 ^ 32) ∧ (f = .maxRequests → v ≠ 0)
  | .sync => ∀ f a, s.accepted f = some a → f.floor ≤ a.value

end ConfigState

/-- What an update stores. -/
theorem get_updateSection (cfg : XiraConfig) (sec : ConfigSection) (values : Json)
    (f : ConfigField) :
    (cfg.updateSection sec values).get f =
      match carriedNumber sec values f with
      | some v => f.stored v
      | none => cfg.get f := by
  unfold carriedNumber
  cases hv : values.getU64 f.name <;> cases f <;> cases sec <;>
    simp_all [XiraConfig.get, XiraConfig.updateSection, ConfigField.name, ConfigField.section,
      ConfigField.stored, ConfigField.isU32]

/-- An update keeps a configuration valid unless it leaves no requests. -/
theorem ok_validate_updateSection {env : ConfigEnv} {cfg : XiraConfig} {sec : ConfigSection}
    {values : Json} (hvalid : (cfg.validate env).ok = true) :
    ((cfg.updateSection sec values).validate env).ok = true ↔
      (cfg.updateSection sec values).get .maxRequests ≠ 0 := by
  obtain ⟨hadmin, hjwt, hprefixes, htls, -, hbus⟩ := XiraConfig.ok_validate_iff.mp hvalid
  rw [XiraConfig.ok_validate_iff]
  constructor
  · exact fun h => h.2.2.2.2.1
  · intro hmax
    cases sec <;> exact ⟨hadmin, hjwt, hprefixes, htls, hmax, hbus⟩

namespace RunningParts

variable {parts : RunningParts} {cfg : XiraConfig} {f : ConfigField} {v : ℕ}

/-- The parts start with the values of the configuration, which are raised to their floors. -/
theorem eq_of_mem_get_init (h : v ∈ (init cfg).get f) : v = max (cfg.get f) f.floor := by
  cases f <;> cases h <;> first | rfl | exact (Nat.max_zero _).symm

/-- A tick leaves what the parts would start with. -/
theorem get_sync : (parts.sync cfg).get f = (init cfg).get f := by
  cases f <;> rfl

/-- The part of an updated section has what it would start with. -/
theorem get_applySection {sec : ConfigSection} :
    (parts.applySection cfg sec).get f =
      if f.section = sec then (init cfg).get f else parts.get f := by
  cases sec <;> cases f <;> rfl

/-- A field has a place in all parts or in none. -/
theorem isSome_get {parts' : RunningParts} : (parts.get f).isSome = (parts'.get f).isSome := by
  cases f <;> rfl

end RunningParts

namespace ConfigState

variable {env : ConfigEnv} {s : ConfigState}

/-- What holds while every step meets the condition. -/
structure Inv (env : ConfigEnv) (s : ConfigState) : Prop extends AsAccepted env s where
  floors : ∀ f, ∀ v ∈ s.parts.get f, f.floor ≤ v

/-- The parts at the start respect the floors. -/
theorem floor_le_of_mem_get_init {cfg : XiraConfig} {f : ConfigField} {v : ℕ}
    (h : v ∈ (RunningParts.init cfg).get f) : f.floor ≤ v := by
  rw [RunningParts.eq_of_mem_get_init h]
  exact le_max_right _ _

/-- An update that meets the condition keeps the invariant. -/
theorem inv_update {sec : ConfigSection} {sectionName : String} {values : Json} (hs : s.Inv env)
    (hsec : ConfigSection.ofName sectionName = some sec)
    (hok : s.Meets env (.updateConfig sectionName values)) :
    (s.step (.updateConfig sectionName values)).Inv env := by
  have hmeets := hok sec hsec
  simp only [step, hsec]
  have hget := get_updateSection s.config sec values
  constructor
  case toAsAccepted =>
    constructor
    case valid =>
      rw [ok_validate_updateSection hs.valid, hget]
      cases hcarried : carriedNumber sec values .maxRequests with
      | some v =>
          obtain ⟨hlt, hne⟩ := hmeets .maxRequests v hcarried
          have hstored : ConfigField.stored .maxRequests v = v :=
            (if_pos rfl).trans (Nat.mod_eq_of_lt (hlt rfl))
          show ConfigField.stored .maxRequests v ≠ 0
          rw [hstored]
          exact hne rfl
      | none => exact (XiraConfig.ok_validate_iff.mp hs.valid).2.2.2.2.1
    case shared =>
      intro f a ha
      dsimp only at ha ⊢
      cases hcarried : carriedNumber sec values f with
      | some v =>
          rw [hcarried] at ha
          cases ha
          rw [hget, hcarried]
          dsimp only [ConfigField.stored]
          split
          next hu32 => exact Nat.mod_eq_of_lt ((hmeets f v hcarried).1 hu32)
          next => rfl
      | none =>
          rw [hcarried] at ha
          rw [hget, hcarried]
          exact hs.shared f a ha
    case running =>
      intro f a ha hsynced v hv
      dsimp only at ha hv
      cases hcarried : carriedNumber sec values f with
      | some v' =>
          rw [hcarried] at ha
          cases ha
          cases hsynced
      | none =>
          rw [hcarried] at ha
          rw [RunningParts.get_applySection] at hv
          split at hv
          next =>
            -- The number of an earlier request is set again, and it is not below the floor.
            have hsome : (s.parts.get f).isSome = true :=
              RunningParts.isSome_get.trans (Option.isSome_of_mem hv)
            obtain ⟨w, hw⟩ := Option.isSome_iff_exists.mp hsome
            have hfloor : f.floor ≤ a.value := hs.running f a ha hsynced w hw ▸ hs.floors f w hw
            rw [RunningParts.eq_of_mem_get_init hv, hget, hcarried]
            exact (hs.shared f a ha).symm ▸ max_eq_left hfloor
          next => exact hs.running f a ha hsynced v hv
  case floors =>
    intro f v hv
    dsimp only at hv
    rw [RunningParts.get_applySection] at hv
    split at hv
    next => exact floor_le_of_mem_get_init hv
    next => exact hs.floors f v hv

/-- Every step that meets the condition keeps the invariant. -/
theorem inv_step {a : ConfigAction} (hs : s.Inv env) (hok : s.Meets env a) :
    (s.step a).Inv env := by
  cases a with
  | reload file =>
      cases hread : file.bind XiraConfig.read with
      | none => simpa only [step, hread] using hs
      | some cfg =>
          simp only [step, hread]
          exact ⟨⟨hok cfg hread, fun _ _ h => (nomatch h), fun _ _ h => nomatch h⟩, hs.floors⟩
  | updateConfig sectionName values =>
      cases hsec : ConfigSection.ofName sectionName with
      | none => simpa only [step, hsec] using hs
      | some sec => exact inv_update hs hsec hok
  | sync =>
      -- The parts get what they would start with.
      have hsynced : ∀ f, ((s.step .sync).parts.get f) = (RunningParts.init s.config).get f :=
        fun f => RunningParts.get_sync
      refine ⟨⟨hs.valid, fun f a ha => ?_, fun f a ha _ v hv => ?_⟩, fun f v hv => ?_⟩
      · obtain ⟨a', ha', rfl⟩ := Option.map_eq_some_iff.mp ha
        exact hs.shared f a' ha'
      · obtain ⟨a', ha', rfl⟩ := Option.map_eq_some_iff.mp ha
        rw [hsynced] at hv
        rw [RunningParts.eq_of_mem_get_init hv]
        exact (hs.shared f a' ha').symm ▸ max_eq_left (hok f a' ha')
      · rw [hsynced] at hv
        exact floor_le_of_mem_get_init hv

/-- A floor is above zero only where the running parts have a place. -/
theorem exists_mem_get {parts : RunningParts} {f : ConfigField} (h : 0 < f.floor) :
    ∃ v, v ∈ parts.get f := by
  cases f <;> first | exact ⟨_, rfl⟩ | exact absurd h (Nat.lt_irrefl 0)

/-- A step that does not meet the condition shows at once. -/
theorem not_asAccepted_step {a : ConfigAction} (hok : ¬ s.Meets env a) :
    ¬ AsAccepted env (s.step a) := by
  intro ht
  refine hok ?_
  cases a with
  | reload file =>
      intro cfg hread
      have hvalid := ht.valid
      simp only [step, hread] at hvalid
      exact hvalid
  | updateConfig sectionName values =>
      intro sec hsec f v hcarried
      have hget := get_updateSection s.config sec values f
      have hshared := ht.shared f ⟨v, false⟩
      have hvalid := ht.valid
      simp only [step, hsec, hcarried] at hshared hvalid hget
      -- The number is stored as it is, so it fits.
      have hstored : f.stored v = v := hget.symm.trans (hshared trivial)
      constructor
      · intro hu32
        rw [ConfigField.stored, if_pos hu32] at hstored
        exact hstored ▸ Nat.mod_lt v (by decide)
      · rintro rfl rfl
        exact (XiraConfig.ok_validate_iff.mp hvalid).2.2.2.2.1 (hget.trans hstored)
  | sync =>
      intro f a ha
      by_contra hlt
      rw [not_le] at hlt
      obtain ⟨v, hv⟩ := @exists_mem_get (s.step .sync).parts f (Nat.zero_lt_of_lt hlt)
      have ha' : (s.step .sync).accepted f = some { a with synced := true } := by
        simp only [step, ha, Option.map_some]
      have hrunning : v = a.value := ht.running f _ ha' rfl v hv
      -- The number was raised to the floor.
      have hfloor : f.floor ≤ v :=
        floor_le_of_mem_get_init (@RunningParts.get_sync s.parts s.config f ▸ hv)
      omega

/-- The start from a valid configuration. -/
theorem inv_initial {cfg : XiraConfig} (hvalid : (cfg.validate env).ok = true) :
    (initial cfg).Inv env :=
  ⟨⟨hvalid, fun _ _ h => (nomatch h), fun _ _ h => nomatch h⟩, fun _ _ => floor_le_of_mem_get_init⟩

/-- Throughout a run, the configuration is valid and as it was accepted exactly if every step meets
the condition. -/
theorem asAccepted_throughout_iff (env : ConfigEnv) {cfg : XiraConfig} {as : List ConfigAction}
    {s : ConfigState} (hvalid : (cfg.validate env).ok = true)
    (hrun : machine.Runs Machine.unrestricted (initial cfg) as s) :
    machine.Throughout (AsAccepted env) (initial cfg) as ↔
      machine.Runs (Meets env) (initial cfg) as s := by
  refine hrun.throughout_iff (I := Inv env) (fun _ h => h.toAsAccepted) ?_ ?_ (inv_initial hvalid)
  · rintro s a _ hs hok ⟨⟩
    exact inv_step hs hok
  · rintro s a _ - hok ⟨⟩
    exact not_asAccepted_step hok

/-- A configuration for the local host, with the defaults of the fields. -/
def localConfig : XiraConfig where
  gateway := ⟨"127.0.0.1", 9000, 4⟩
  admin := ⟨"k", true⟩
  health := ⟨30, 5⟩
  tls := none
  alerting := .default
  rateLimit := .default
  cache := .default
  jwt := ⟨false, "", "HS256", none⟩
  circuitBreaker := .default
  retry := .default
  plugins := .default
  services := []
  discovery := .default
  passwordMinLength := 8
  allowedOrigins := defaultCorsOrigins
  bus := .default

/-- Surroundings without files and keys. -/
def bareEnv : ConfigEnv := ⟨fun _ => false, fun _ => .error "invalid key"⟩

/-- A request that carries one number. -/
def putNumber (sectionName name literal : String) : ConfigAction :=
  .updateConfig sectionName (.object [(name, .number literal)])

/-- A number of requests is accepted, and a tick follows. -/
theorem asAccepted_throughout_iff_put :
    machine.Throughout (AsAccepted bareEnv) (initial localConfig)
      [putNumber "rate_limit" "max_requests" "50", .sync] := by
  have hvalid : (localConfig.validate bareEnv).ok = true := by decide +kernel
  have hrun : machine.Runs Machine.unrestricted (initial localConfig)
      [putNumber "rate_limit" "max_requests" "50", .sync] _ := Machine.runs_of_exec rfl
  refine (asAccepted_throughout_iff bareEnv hvalid hrun).mpr (.cons ?_ rfl (.cons ?_ rfl (.nil _)))
  · intro sec hsec f v hv
    obtain rfl : ConfigSection.rateLimit = sec := Option.some.inj hsec
    cases f <;> cases hv
    exact ⟨fun _ => by decide, fun _ => by decide⟩
  · intro f a ha
    cases f <;> cases ha
    decide

/-- A number that is cut to zero, a zero that the breaker raises to one, and a file that is not
valid. -/
theorem asAccepted_fails :
    (localConfig.validate bareEnv).ok = true ∧
      ¬ machine.Throughout (AsAccepted bareEnv) (initial localConfig)
          [putNumber "rate_limit" "max_requests" "4294967296"] ∧
      ¬ machine.Throughout (AsAccepted bareEnv) (initial localConfig)
          [putNumber "circuit_breaker" "failure_threshold" "0", .sync] ∧
      ¬ machine.Throughout (AsAccepted bareEnv) (initial localConfig)
          [.reload (some (.table
            [("gateway", .table [("host", .string "127.0.0.1"), ("port", .integer 9000)]),
              ("admin", .table [("api_key", .string "k"), ("enabled", .boolean true)]),
              ("health", .table [("interval_secs", .integer 30), ("timeout_secs", .integer 5)]),
              ("rate_limit", .table [("max_requests", .integer 0)])]))] := by
  refine ⟨by decide +kernel, fun h => ?_, fun h => ?_, fun h => ?_⟩
  · exact absurd (h.2 _ rfl).valid (by decide +kernel)
  · exact nomatch ((h.2 _ rfl).2 _ rfl).running .failureThreshold ⟨0, true⟩ rfl rfl 1 rfl
  · exact absurd (h.2 _ rfl).valid (by decide +kernel)

end ConfigState

end XiraNet

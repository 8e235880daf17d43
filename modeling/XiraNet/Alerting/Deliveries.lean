import XiraNet.Alerting.Connections

/-!
# Deliveries

The senders of webhooks (`alerting/webhooks.rs`), alerts (`alerting/mod.rs`) and audit entries
(`middleware/audit_sink.rs`). Each asks the guard whether a URL is valid and then has a client that
resolves the host again. What is sent and who reads the log are left out.

* `post_allowed_iff`: when a delivery stays at allowed addresses.
* `deliveries_allowed_iff`: the three senders.
-/

namespace XiraNet

/-- What one delivery meets. -/
structure DeliveryEnv where
  /-- The answers to the guard. -/
  resolve : Resolver
  /-- The answers to the client. -/
  net : Network
  /-- The status of the last response, or the error of the client. -/
  response : Except String ℕ

/-- How a delivery ends. -/
inductive Delivery
  | rejected (e : UrlGuardError)
  | failed (e : String)
  | responded (status : ℕ)
  deriving DecidableEq

/-- `is_success` of the status. -/
def Delivery.isSuccess : Delivery → Bool
  | .responded status => 200 ≤ status && status < 300
  | _ => false

section Post

variable (lib : UrlLib) (client : HttpClient) (env : DeliveryEnv)

/-- What all senders do with a URL: the check of the guard, then `post`, with the addresses to which
the client connects. -/
def post (rawUrl : String) : Delivery × List IpAddr :=
  match validateOutboundUrl lib env.resolve rawUrl with
  | .error e => (.rejected e, [])
  | .ok () =>
      match lib.parse rawUrl with
      | .error e => (.failed e, [])
      | .ok url =>
          (match env.response with
            | .ok status => .responded status
            | .error e => .failed e,
            client.connections env.net url)

/-- Where the host of a URL is a name, the resolver gives the client allowed addresses too. -/
def NameSteady (rawUrl : String) : Prop :=
  ∀ url, lib.parse rawUrl = .ok url → ∀ host ∈ url.hostStr, literalAddr host = none →
    ∀ ip ∈ env.net.resolve 0 host, env.net.tries 0 ip = true → isIpAllowed ip .strict = true

/-- The answers stay with what the guard has seen: the resolver still gives allowed addresses, and
redirects lead to allowed hosts. -/
structure Steady (rawUrl : String) : Prop where
  name : NameSteady lib env rawUrl
  redirects : ∀ r ∈ client.redirects env.net, client.HostAllowed env.net .strict r

end Post

/-- A client that follows no redirects depends on the resolver only. -/
theorem steady_iff {lib : UrlLib} {client : HttpClient} {env : DeliveryEnv} {rawUrl : String}
    (hclient : client.maxRedirects = 0) :
    Steady lib client env rawUrl ↔ NameSteady lib env rawUrl := by
  refine ⟨Steady.name, fun h => ⟨h, ?_⟩⟩
  simp [HttpClient.redirects_eq_nil hclient]

/-- A client without overrides stays at allowed addresses exactly if the guard rejects the URL or
the answers stay with what it has seen. -/
theorem post_allowed_iff {lib : UrlLib} {client : HttpClient} {env : DeliveryEnv} {rawUrl : String}
    (hclient : client.resolveTo = []) :
    (∀ ip ∈ (post lib client env rawUrl).2, isIpAllowed ip .strict = true) ↔
      (validateOutboundUrl lib env.resolve rawUrl = .ok () → Steady lib client env rawUrl) := by
  have hresolveTo : ∀ p ∈ client.resolveTo, isIpAllowed p.2 .strict = true := by simp [hclient]
  unfold post
  cases hvalid : validateOutboundUrl lib env.resolve rawUrl with
  | error e => simp
  | ok _ =>
      obtain ⟨url, host, hparse, hguarded⟩ := validateUrl_iff.mp hvalid
      simp only [hparse, true_imp_iff]
      rw [HttpClient.connections_allowed_iff hresolveTo hguarded.isWeb]
      constructor
      · rintro ⟨hfirst, hredirects⟩
        refine ⟨fun url' hparse' host' hhost' hliteral => ?_, hredirects⟩
        cases hparse.symm.trans hparse'
        exact (hfirst host' hhost').2 hliteral (by simp [hclient])
      · rintro ⟨hname, hredirects⟩
        refine ⟨fun host' hhost' => ⟨fun ip hip _ => ?_, fun hliteral _ => ?_⟩, hredirects⟩
        · -- The guard has checked an address that stands in the URL.
          cases hguarded.hostStr.symm.trans hhost'
          exact hguarded.literalAddr ip hip
        · exact hname url hparse host' hhost' hliteral

/-- `WebhookConfig`. -/
structure WebhookConfig where
  id : String
  url : String
  events : List String
  enabled : Bool
  deliveryCount : ℕ
  failureCount : ℕ

/-- The map of a `WebhookRegistry`. -/
abbrev WebhookRegistry := DashMap String WebhookConfig

namespace WebhookRegistry

/-- The client of `new`. -/
def client : HttpClient := ⟨[], 0⟩

/-- The snapshot of `fire_event`: the webhooks for an event. -/
def targets (webhooks : WebhookRegistry) (eventType : String) : List (String × String) :=
  (DashMap.values webhooks).filterMap fun w =>
    if w.enabled = false then none
    else if w.events.any (fun s => s = eventType || s = "*") = false then none
    else some (w.id, w.url)

/-- `bump_delivery`. -/
def bumpDelivery (webhooks : WebhookRegistry) (id : String) : WebhookRegistry :=
  DashMap.modify webhooks id fun w => { w with deliveryCount := saturatingAddU64 w.deliveryCount 1 }

/-- `bump_failure`. -/
def bumpFailure (webhooks : WebhookRegistry) (id : String) : WebhookRegistry :=
  DashMap.modify webhooks id fun w => { w with failureCount := saturatingAddU64 w.failureCount 1 }

/-- The loop of `fire_event`, of which `i` targets are done. -/
def fireTargets (lib : UrlLib) (envs : ℕ → DeliveryEnv) (i : ℕ) (webhooks : WebhookRegistry) :
    List (String × String) → WebhookRegistry × List IpAddr
  | [] => (webhooks, [])
  | (id, url) :: targets =>
      let (delivery, addrs) := post lib client (envs i) url
      let webhooks :=
        if delivery.isSuccess then bumpDelivery webhooks id else bumpFailure webhooks id
      let (webhooks, rest) := fireTargets lib envs (i + 1) webhooks targets
      (webhooks, addrs ++ rest)

/-- `fire_event`, with the addresses to which the client connects. -/
def fireEvent (lib : UrlLib) (envs : ℕ → DeliveryEnv) (webhooks : WebhookRegistry)
    (eventType : String) : WebhookRegistry × List IpAddr :=
  fireTargets lib envs 0 webhooks (webhooks.targets eventType)

/-- The addresses of the loop are those of the single deliveries. -/
theorem mem_fireTargets {lib : UrlLib} {envs : ℕ → DeliveryEnv} {i : ℕ}
    {webhooks : WebhookRegistry} {targets : List (String × String)} {ip : IpAddr} :
    ip ∈ (fireTargets lib envs i webhooks targets).2 ↔
      ∃ k target, targets[k]? = some target ∧
        ip ∈ (post lib client (envs (i + k)) target.2).2 := by
  induction targets generalizing i webhooks with
  | nil => simp [fireTargets]
  | cons target targets ih =>
      rw [fireTargets, List.mem_append, ih]
      constructor
      · rintro (hip | ⟨k, target', htarget', hip⟩)
        · exact ⟨0, target, rfl, hip⟩
        · exact ⟨k + 1, target', htarget', by rwa [Nat.add_right_comm] at hip⟩
      · rintro ⟨k, target', htarget', hip⟩
        cases k with
        | zero =>
            cases htarget'
            exact .inl hip
        | succ k => exact .inr ⟨k, target', htarget', by rwa [Nat.add_right_comm]⟩

end WebhookRegistry

/-- `AlertManager::new`: its client. -/
def AlertManager.client : HttpClient := ⟨[], 0⟩

/-- `send_webhook`, with the addresses to which the client connects. -/
def AlertManager.sendWebhook (lib : UrlLib) (env : DeliveryEnv) (webhookUrl : Option String) :
    List IpAddr :=
  match webhookUrl with
  | some url => if url = "" then [] else (post lib client env url).2
  | none => []

/-- `HttpSink`. -/
structure HttpSink where
  url : String

namespace HttpSink

/-- The client of `new`, which has no policy for redirects. -/
def client : HttpClient := ⟨[], HttpClient.defaultRedirects⟩

/-- The error of `write`. -/
inductive WriteError
  | urlGuard (e : UrlGuardError)
  | send (e : String)
  | status (status : ℕ)
  deriving DecidableEq

/-- `write`, with the addresses to which the client connects. -/
def write (lib : UrlLib) (env : DeliveryEnv) (sink : HttpSink) :
    Except WriteError Unit × List IpAddr :=
  let (delivery, addrs) := post lib client env sink.url
  (match delivery with
    | .rejected e => .error (.urlGuard e)
    | .failed e => .error (.send e)
    | .responded status => if delivery.isSuccess then .ok () else .error (.status status),
    addrs)

end HttpSink

/-- Webhooks, alerts and audit entries are delivered to allowed addresses only, exactly if for every
URL that the guard accepts the resolver still gives allowed addresses and, for audit entries,
redirects lead to allowed hosts. -/
theorem deliveries_allowed_iff (lib : UrlLib) :
    (∀ (envs : ℕ → DeliveryEnv) (webhooks : WebhookRegistry) (eventType : String),
      (∀ ip ∈ (webhooks.fireEvent lib envs eventType).2, isIpAllowed ip .strict = true) ↔
        ∀ i target, (webhooks.targets eventType)[i]? = some target →
          validateOutboundUrl lib (envs i).resolve target.2 = .ok () →
            NameSteady lib (envs i) target.2) ∧
      (∀ (env : DeliveryEnv) (webhookUrl : Option String),
        (∀ ip ∈ AlertManager.sendWebhook lib env webhookUrl, isIpAllowed ip .strict = true) ↔
          ∀ url ∈ webhookUrl, url ≠ "" → validateOutboundUrl lib env.resolve url = .ok () →
            NameSteady lib env url) ∧
        ∀ (env : DeliveryEnv) (sink : HttpSink),
          (∀ ip ∈ (sink.write lib env).2, isIpAllowed ip .strict = true) ↔
            (validateOutboundUrl lib env.resolve sink.url = .ok () →
              Steady lib HttpSink.client env sink.url) := by
  refine ⟨fun envs webhooks eventType => ?_, fun env webhookUrl => ?_, fun env sink => ?_⟩
  · -- The addresses of an event are those of its deliveries.
    have hpost : ∀ i (target : String × String), _ ↔ _ := fun i target =>
      @post_allowed_iff lib WebhookRegistry.client (envs i) target.2 rfl
    simp only [WebhookRegistry.fireEvent, WebhookRegistry.mem_fireTargets,
      ← @steady_iff lib WebhookRegistry.client _ _ rfl, ← hpost]
    constructor
    · intro h i target htarget ip hip
      refine h ip ⟨i, target, htarget, ?_⟩
      rwa [Nat.zero_add]
    · rintro h ip ⟨i, target, htarget, hip⟩
      rw [Nat.zero_add] at hip
      exact h i target htarget ip hip
  · cases webhookUrl with
    | none => simp [AlertManager.sendWebhook]
    | some url =>
        by_cases hurl : url = ""
        · simp [AlertManager.sendWebhook, hurl]
        · have hpost := @post_allowed_iff lib AlertManager.client env url rfl
          rw [steady_iff rfl] at hpost
          simpa [AlertManager.sendWebhook, hurl] using hpost
  · exact post_allowed_iff rfl

/-- A resolver that has given the guard a public address gives the client the local one. -/
def rebound : DeliveryEnv where
  resolve := publicResolver
  net :=
    { resolve := fun _ _ => [.v4 127 0 0 1]
      tries := fun _ _ => true
      location := fun _ => none }
  response := .ok 200

/-- A server at a public address redirects to the metadata of the host. -/
def redirected : DeliveryEnv where
  resolve := publicResolver
  net :=
    { resolve := fun _ _ => [.v4 93 184 216 34]
      tries := fun _ _ => true
      location := fun _ => some ⟨"http", some "169.254.169.254", none, some 80⟩ }
  response := .ok 200

/-- A registry with one webhook for all events. -/
def oneWebhook : WebhookRegistry :=
  AList.insert "w1" ⟨"w1", "http://hooks.test/", ["*"], true, 0, 0⟩ ∅

/-- A rebound name leads all senders to the local address, and a redirect leads audit entries to the
metadata. -/
theorem deliveries_forbidden :
    ¬ (∀ ip ∈ (oneWebhook.fireEvent .plain (fun _ => rebound) "service.down").2,
        isIpAllowed ip .strict = true) ∧
      ¬ (∀ ip ∈ AlertManager.sendWebhook .plain rebound (some "http://hooks.test/"),
          isIpAllowed ip .strict = true) ∧
        ¬ (∀ ip ∈ (HttpSink.write .plain rebound ⟨"http://hooks.test/"⟩).2,
            isIpAllowed ip .strict = true) ∧
          ¬ ∀ ip ∈ (HttpSink.write .plain redirected ⟨"http://hooks.test/"⟩).2,
              isIpAllowed ip .strict = true := by
  decide +kernel

end XiraNet

import XiraNet.Alerting.UrlGuard

/-!
# Connections

The addresses to which a client of HTTP connects, whatever resolvers and servers answer. A client
connects to the address of a host that is one, else to the address with which the name is
overridden, else to what its resolver gives at that moment. Redirects are followed up to a number.

* `HttpClient.connected_allowed_iff`, `HttpClient.connections_allowed_iff`: which hosts keep a
  client at allowed addresses.
-/

namespace XiraNet

/-- A client of `reqwest`. -/
structure HttpClient where
  /-- `resolve_to_addrs`: names that are not resolved, with their addresses. -/
  resolveTo : List (String × IpAddr)
  /-- How many redirects are followed. -/
  maxRedirects : ℕ
  deriving DecidableEq

/-- A client without a policy follows ten redirects. -/
def HttpClient.defaultRedirects : ℕ := 10

/-- What a client meets in one request after the other. -/
structure Network where
  /-- The addresses that the resolver gives for a name. -/
  resolve : ℕ → String → List IpAddr
  /-- Whether an address is tried. The client stops at the first that answers, and needs none where
  a connection is still open. -/
  tries : ℕ → IpAddr → Bool
  /-- Where the response redirects to, if one comes and it does. -/
  location : ℕ → Option ParsedUrl

/-- The scheme is one of the web. -/
def ParsedUrl.isWeb (url : ParsedUrl) : Bool := url.scheme = "http" || url.scheme = "https"

/-- The address that a host is, unless it is a name. -/
def literalAddr (host : String) : Option IpAddr := (IpAddr.parse host).or (bracketedAddr host)

namespace HttpClient

section Requests

variable (client : HttpClient) (net : Network)

/-- The addresses of a host. -/
def hostAddrs (i : ℕ) (host : String) : List IpAddr :=
  match literalAddr host, client.resolveTo.lookup host with
  | some ip, _ => [ip]
  | none, some ip => [ip]
  | none, none => net.resolve i host

/-- The addresses to which one request connects. -/
def connected (r : ℕ × ParsedUrl) : List IpAddr :=
  match r.2.hostStr with
  | some host => (client.hostAddrs net r.1 host).filter (net.tries r.1)
  | none => []

/-- The requests that follow a redirect, of which `left` are still allowed. -/
def followed (left i : ℕ) : List (ℕ × ParsedUrl) :=
  match left with
  | 0 => []
  | left + 1 =>
      match net.location i with
      | some url => if url.isWeb then (i + 1, url) :: followed left (i + 1) else []
      | none => []

/-- The requests that follow a redirect of this client. -/
def redirects : List (ℕ × ParsedUrl) := followed net client.maxRedirects 0

/-- The addresses to which the client connects for a URL. -/
def connections (url : ParsedUrl) : List IpAddr :=
  if url.isWeb then ((0, url) :: client.redirects net).flatMap (client.connected net) else []

/-- The host of a request is an allowed address, a name that is overridden, or a name that the
resolver gives allowed addresses. Addresses that are not tried do not count. -/
def HostAllowed (level : GuardLevel) (r : ℕ × ParsedUrl) : Prop :=
  ∀ host ∈ r.2.hostStr,
    (∀ ip ∈ literalAddr host, net.tries r.1 ip = true → isIpAllowed ip level = true) ∧
      (literalAddr host = none → client.resolveTo.lookup host = none →
        ∀ ip ∈ net.resolve r.1 host, net.tries r.1 ip = true → isIpAllowed ip level = true)

end Requests

variable {client : HttpClient} {net : Network} {level : GuardLevel}

/-- What is looked up in a list is in it. -/
theorem mem_of_lookup {host : String} {ip : IpAddr} {l : List (String × IpAddr)}
    (h : l.lookup host = some ip) : (host, ip) ∈ l := by
  obtain ⟨l₁, l₂, rfl, -⟩ := List.lookup_eq_some_iff.mp h
  exact List.mem_append_right _ List.mem_cons_self

/-- A request connects to allowed addresses only if its host is allowed, where overrides are. -/
theorem connected_allowed_iff
    (hresolveTo : ∀ p ∈ client.resolveTo, isIpAllowed p.2 level = true) {r : ℕ × ParsedUrl} :
    (∀ ip ∈ client.connected net r, isIpAllowed ip level = true) ↔
      client.HostAllowed net level r := by
  unfold connected HostAllowed
  cases hhost : r.2.hostStr with
  | none => simp
  | some host =>
      simp only [List.mem_filter, and_imp, Option.mem_some_iff, forall_eq']
      unfold hostAddrs
      cases hliteral : literalAddr host with
      | some ip => simp
      | none =>
          cases hlookup : client.resolveTo.lookup host with
          | some ip =>
              have hip : isIpAllowed ip level = true := hresolveTo _ (mem_of_lookup hlookup)
              simp [hip]
          | none => simp

/-- A client connects to allowed addresses only if the hosts of all of its requests are allowed,
where overrides are. -/
theorem connections_allowed_iff
    (hresolveTo : ∀ p ∈ client.resolveTo, isIpAllowed p.2 level = true) {url : ParsedUrl}
    (hweb : url.isWeb = true) :
    (∀ ip ∈ client.connections net url, isIpAllowed ip level = true) ↔
      client.HostAllowed net level (0, url) ∧
        ∀ r ∈ client.redirects net, client.HostAllowed net level r := by
  rw [connections, if_pos hweb, ← List.forall_mem_cons]
  simp only [List.mem_flatMap, forall_exists_index, and_imp,
    ← connected_allowed_iff hresolveTo]
  exact ⟨fun h r hr ip hip => h ip r hr hip, fun h ip r hr hip => h r hr ip hip⟩

/-- A client that follows no redirects makes one request. -/
theorem redirects_eq_nil (h : client.maxRedirects = 0) : client.redirects net = [] := by
  rw [redirects, h, followed]

end HttpClient

/-- What the guard accepts is a URL of the web. -/
theorem Guarded.isWeb {resolve : Resolver} {level : GuardLevel} {url : ParsedUrl} {host : String}
    (h : Guarded resolve level url host) : url.isWeb = true := by
  rw [ParsedUrl.isWeb, Bool.or_eq_true, decide_eq_true_eq, decide_eq_true_eq]
  exact h.scheme

/-- The guard accepts a host that is an address only if the address is allowed. -/
theorem Guarded.literalAddr {resolve : Resolver} {level : GuardLevel} {url : ParsedUrl}
    {host : String} (h : Guarded resolve level url host) :
    ∀ ip ∈ literalAddr host, isIpAllowed ip level = true := by
  intro ip hip
  cases hparse : IpAddr.parse host with
  | some ip' =>
      rw [XiraNet.literalAddr, hparse] at hip
      cases hip
      exact h.literal ip hparse
  | none =>
      -- An address in brackets is the answer of the resolver.
      rw [XiraNet.literalAddr, hparse, Option.none_or] at hip
      obtain ⟨port, -, addrs, haddrs, -, hall⟩ := h.resolved hparse
      rw [lookupHost, Option.mem_def.mp hip] at haddrs
      cases haddrs
      exact hall ip List.mem_cons_self

end XiraNet

import XiraNet.Base
import XiraNet.Lib.DashMap
import XiraNet.Lib.IpParse
import XiraNet.Lib.Runs
import XiraNet.Lib.Text

/-!
# URL guard

`alerting/url_guard.rs`: the check of a URL before a request, which exists once for checking only
and once for connecting to an address that is pinned, and the cache of pinned URLs. The parser of
URLs and the resolver are known by their answers.

* `validateUrl_iff`, `pinUrl_eq_ok_iff`: what both ask of a URL.
* `fresh_of_runs`: what the cache returns was pinned less than its time to live ago.
* `pinning_agrees`: both accept the same URLs, and what is pinned is safe.
-/

namespace XiraNet

/-- A URL that was parsed. -/
structure ParsedUrl where
  scheme : String
  /-- `host_str`. An IPv6 address stands in brackets. -/
  hostStr : Option String
  port : Option ℕ
  portOrKnownDefault : Option ℕ
  deriving DecidableEq, Repr

/-- The parser of URLs. -/
structure UrlLib where
  /-- `Url::parse`. -/
  parse : String → Except String ParsedUrl
  /-- The schemes of the web have a default port. -/
  port_of_web : ∀ raw url, parse raw = .ok url → url.scheme = "http" ∨ url.scheme = "https" →
    url.portOrKnownDefault.isSome

/-- `UrlGuardError`. -/
inductive UrlGuardError
  | invalid (e : String)
  | badScheme (scheme : String)
  | missingHost
  | dnsError (e : String)
  | forbidden (what : String)
  deriving DecidableEq, Repr

/-- `GuardLevel`. -/
inductive GuardLevel
  | strict
  | upstreamOnly
  deriving DecidableEq, Repr

/-- `is_metadata_ip`. -/
def isMetadataIp : IpAddr → Bool
  | .v4 a b c d => [a.val, b.val, c.val, d.val] = [169, 254, 169, 254]
  | .v6 a b .. => a.val = 0xfd00 && b.val = 0xec2

/-- `is_safe_ip`, for the octets of an IPv4 address. -/
def isSafeIpv4 (a b c d : ℕ) : Bool :=
  let isLoopback := a = 127
  let isPrivate := a = 10 || (a = 172 && 16 ≤ b && b ≤ 31) || (a = 192 && b = 168)
  let isLinkLocal := a = 169 && b = 254
  let isBroadcast := [a, b, c, d] = [255, 255, 255, 255]
  let isDocumentation :=
    [a, b, c] = [192, 0, 2] || [a, b, c] = [198, 51, 100] || [a, b, c] = [203, 0, 113]
  let isUnspecified := [a, b, c, d] = [0, 0, 0, 0]
  let isMulticast := 224 ≤ a && a ≤ 239
  if isLoopback || isPrivate || isLinkLocal || isBroadcast || isDocumentation || isUnspecified ||
      isMulticast then false
  else if a = 100 && 64 ≤ b && b ≤ 127 then false
  else a ≠ 0

/-- `is_safe_ip`. -/
def isSafeIp : IpAddr → Bool
  | .v4 a b c d => isSafeIpv4 a b c d
  | .v6 a b c d e f g h =>
      let segs := [a.val, b.val, c.val, d.val, e.val, f.val, g.val, h.val]
      let isLoopback := segs = [0, 0, 0, 0, 0, 0, 0, 1]
      let isUnspecified := segs = [0, 0, 0, 0, 0, 0, 0, 0]
      let isMulticast := a.val &&& 0xff00 = 0xff00
      if isLoopback || isUnspecified || isMulticast then false
      else if a.val &&& 0xfe00 = 0xfc00 then false
      else if a.val &&& 0xffc0 = 0xfe80 then false
      else if segs.take 5 = [0, 0, 0, 0, 0] && f.val = 0xffff then
        isSafeIpv4 (g.val >>> 8) (g.val &&& 0xff) (h.val >>> 8) (h.val &&& 0xff)
      else true

/-- `is_ip_allowed`. -/
def isIpAllowed (ip : IpAddr) (level : GuardLevel) : Bool :=
  if isMetadataIp ip then false
  else if level = .upstreamOnly then true
  else isSafeIp ip

/-- `is_blocked_metadata_hostname`. -/
def isBlockedMetadataHostname (host : String) : Bool :=
  host ∈ ["metadata.google.internal", "metadata.goog", "instance-data", "metadata"]

/-- `is_blocked_hostname_strict`. -/
def isBlockedHostnameStrict (host : String) : Bool := host = "localhost"

/-- `is_allowed_upstream_port`. -/
def isAllowedUpstreamPort (port : ℕ) : Bool :=
  port ∈ [80, 443, 5000, 5001, 7000, 7001, 8443] || (8080 ≤ port && port ≤ 8090) ||
    (3000 ≤ port && port ≤ 3999) || (9000 ≤ port && port ≤ 9999) || (8000 ≤ port && port ≤ 8079)

/-- The address of a host in brackets. -/
def bracketedAddr (host : String) : Option IpAddr :=
  match host.toList with
  | '[' :: rest =>
      if rest.getLast? = some ']' then
        match IpAddr.parseChars rest.dropLast with
        | some (.v6 a b c d e f g h) => some (.v6 a b c d e f g h)
        | _ => none
      else none
  | _ => none

/-- The answer of a resolver to a name: the addresses, or an error. -/
abbrev Resolver := String → Except String (List IpAddr)

/-- `lookup_host` on a host and a port. An address in brackets is not resolved. -/
def lookupHost (resolve : Resolver) (host : String) (port : ℕ) : Except String (List IpAddr) :=
  match bracketedAddr host with
  | some ip => .ok [ip]
  | none => resolve (host ++ ":" ++ String.ofList (Nat.toDigits 10 port))

section Validate

variable (lib : UrlLib) (resolve : Resolver)

/-- The loop of `validate_url` over the addresses. -/
def validateAddrs (level : GuardLevel) (host : String) (any : Bool) :
    List IpAddr → Except UrlGuardError Unit
  | [] => if any then .ok () else .error (.dnsError "no addresses resolved")
  | ip :: addrs =>
      if isIpAllowed ip level = false then .error (.forbidden (host ++ " resolves to " ++ ip.text))
      else validateAddrs level host true addrs

/-- `validate_url`. -/
def validateUrl (level : GuardLevel) (rawUrl : String) : Except UrlGuardError Unit :=
  match lib.parse rawUrl with
  | .error e => .error (.invalid e)
  | .ok url =>
      if url.scheme ≠ "http" ∧ url.scheme ≠ "https" then .error (.badScheme url.scheme)
      else
        match url.hostStr with
        | none => .error .missingHost
        | some host =>
            let hostLower := Text.toAsciiLowercase host
            if isBlockedMetadataHostname hostLower then
              .error (.forbidden ("blocked metadata hostname: " ++ host))
            else if level = .strict ∧ isBlockedHostnameStrict hostLower then
              .error (.forbidden ("blocked hostname: " ++ host))
            else
              match IpAddr.parse host with
              | some ip =>
                  if isIpAllowed ip level = false then .error (.forbidden ip.text) else .ok ()
              | none =>
                  match lookupHost resolve host (url.portOrKnownDefault.getD 443) with
                  | .error e => .error (.dnsError e)
                  | .ok addrs => validateAddrs level host false addrs

/-- `validate_outbound_url`. -/
def validateOutboundUrl (rawUrl : String) : Except UrlGuardError Unit :=
  validateUrl lib resolve .strict rawUrl

/-- A port that is not one for upstreams, if the URL names one. -/
def forbiddenPort (url : ParsedUrl) : Option ℕ :=
  url.port.filter fun port => !isAllowedUpstreamPort port

/-- `validate_upstream_url`. -/
def validateUpstreamUrl (rawUrl : String) : Except UrlGuardError Unit :=
  match lib.parse rawUrl with
  | .error e => .error (.invalid e)
  | .ok url =>
      match forbiddenPort url with
      | some port =>
          .error (.forbidden ("port " ++ String.ofList (Nat.toDigits 10 port) ++
            " not allowed for upstream (text protocols vulnerable to HTTP smuggling)"))
      | none => validateUrl lib resolve .upstreamOnly rawUrl

end Validate

/-- `PinnedUrl`. -/
structure PinnedUrl where
  url : String
  host : String
  ip : IpAddr
  port : ℕ
  deriving DecidableEq

section Pin

variable (lib : UrlLib) (resolve : Resolver)

/-- The loop of `pin_url` over the addresses. -/
def pinAddrs (level : GuardLevel) (host : String) (pinned : Option IpAddr) :
    List IpAddr → Except UrlGuardError IpAddr
  | [] =>
      match pinned with
      | some ip => .ok ip
      | none => .error (.dnsError "no addresses")
  | ip :: addrs =>
      if isIpAllowed ip level = false then .error (.forbidden (host ++ " resolves to " ++ ip.text))
      else pinAddrs level host (if pinned.isNone then some ip else pinned) addrs

/-- `pin_url`. -/
def pinUrl (level : GuardLevel) (rawUrl : String) : Except UrlGuardError PinnedUrl :=
  match lib.parse rawUrl with
  | .error e => .error (.invalid e)
  | .ok url =>
      if url.scheme ≠ "http" ∧ url.scheme ≠ "https" then .error (.badScheme url.scheme)
      else
        match url.hostStr with
        | none => .error .missingHost
        | some host =>
            let hostLower := Text.toAsciiLowercase host
            if isBlockedMetadataHostname hostLower then .error (.forbidden ("metadata: " ++ host))
            else if level = .strict ∧ isBlockedHostnameStrict hostLower then
              .error (.forbidden ("blocked: " ++ host))
            else
              match url.portOrKnownDefault with
              | none => .error .missingHost
              | some port =>
                  match IpAddr.parse host with
                  | some ip =>
                      if isIpAllowed ip level = false then .error (.forbidden ip.text)
                      else .ok ⟨rawUrl, host, ip, port⟩
                  | none =>
                      match lookupHost resolve host port with
                      | .error e => .error (.dnsError e)
                      | .ok addrs =>
                          (pinAddrs level host none addrs).map fun ip => ⟨rawUrl, host, ip, port⟩

/-- `pin_outbound_url`. -/
def pinOutboundUrl (rawUrl : String) : Except UrlGuardError PinnedUrl :=
  pinUrl lib resolve .strict rawUrl

/-- `pin_upstream_url`. -/
def pinUpstreamUrl (rawUrl : String) : Except UrlGuardError PinnedUrl :=
  match lib.parse rawUrl with
  | .error e => .error (.invalid e)
  | .ok url =>
      match forbiddenPort url with
      | some port =>
          .error (.forbidden ("port " ++ String.ofList (Nat.toDigits 10 port) ++
            " not allowed for upstream"))
      | none => pinUrl lib resolve .upstreamOnly rawUrl

end Pin

/-- What the guard asks of a URL and its host: a scheme of the web, a name that is not blocked, and
allowed addresses only. -/
structure Guarded (resolve : Resolver) (level : GuardLevel) (url : ParsedUrl) (host : String) :
    Prop where
  scheme : url.scheme = "http" ∨ url.scheme = "https"
  hostStr : url.hostStr = some host
  metadata : isBlockedMetadataHostname (Text.toAsciiLowercase host) = false
  name : level = .strict → isBlockedHostnameStrict (Text.toAsciiLowercase host) = false
  literal : ∀ ip ∈ IpAddr.parse host, isIpAllowed ip level = true
  resolved : IpAddr.parse host = none → ∃ port ∈ url.portOrKnownDefault,
    ∃ addrs, lookupHost resolve host port = .ok addrs ∧ addrs ≠ [] ∧
      ∀ ip ∈ addrs, isIpAllowed ip level = true

/-- The loop of `validate_url` asks for an address, and for allowed ones only. -/
theorem validateAddrs_iff {level : GuardLevel} {host : String} {any : Bool} {addrs : List IpAddr} :
    validateAddrs level host any addrs = .ok () ↔
      (any = true ∨ addrs ≠ []) ∧ ∀ ip ∈ addrs, isIpAllowed ip level = true := by
  induction addrs generalizing any with
  | nil => cases any <;> simp [validateAddrs]
  | cons ip addrs ih =>
      rw [validateAddrs]
      cases hip : isIpAllowed ip level with
      | false => simp [hip]
      | true => simp [ih, hip]

/-- The loop of `pin_url` gives the first address, and asks for allowed ones only. -/
theorem pinAddrs_eq_ok_iff {level : GuardLevel} {host : String} {pinned : Option IpAddr}
    {addrs : List IpAddr} {ip : IpAddr} :
    pinAddrs level host pinned addrs = .ok ip ↔
      pinned.or addrs.head? = some ip ∧ ∀ ip ∈ addrs, isIpAllowed ip level = true := by
  induction addrs generalizing pinned with
  | nil => cases pinned <;> simp [pinAddrs]
  | cons ip' addrs ih =>
      rw [pinAddrs]
      cases hip : isIpAllowed ip' level with
      | false => simp [hip]
      | true =>
          rw [if_neg (by simp), ih]
          cases pinned <;> simp [hip]

/-- What is pinned of the addresses. -/
theorem map_pinAddrs_eq_ok_iff {level : GuardLevel} {rawUrl host : String} {port : ℕ}
    {addrs : List IpAddr} {p : PinnedUrl} :
    ((pinAddrs level host none addrs).map fun ip => ⟨rawUrl, host, ip, port⟩) = .ok p ↔
      rawUrl = p.url ∧ host = p.host ∧ port = p.port ∧ addrs.head? = some p.ip ∧
        ∀ ip ∈ addrs, isIpAllowed ip level = true := by
  rw [show addrs.head? = (none : Option IpAddr).or addrs.head? from rfl,
    ← @pinAddrs_eq_ok_iff level host]
  cases pinAddrs level host none addrs with
  | error e => simp [Except.map]
  | ok ip =>
      constructor
      · rintro ⟨⟩
        exact ⟨rfl, rfl, rfl, rfl⟩
      · rintro ⟨rfl, rfl, rfl, ⟨⟩⟩
        rfl

section Accepts

variable {lib : UrlLib} {resolve : Resolver} {level : GuardLevel} {rawUrl : String}

/-- The checks of the scheme, the host and its name come first. -/
theorem guarded_of_checks {url : ParsedUrl} {host : String} (hhost : url.hostStr = some host) :
    Guarded resolve level url host ↔
      ¬ (url.scheme ≠ "http" ∧ url.scheme ≠ "https") ∧
        ¬ isBlockedMetadataHostname (Text.toAsciiLowercase host) = true ∧
          ¬ (level = .strict ∧ isBlockedHostnameStrict (Text.toAsciiLowercase host) = true) ∧
            (∀ ip ∈ IpAddr.parse host, isIpAllowed ip level = true) ∧
              (IpAddr.parse host = none → ∃ port ∈ url.portOrKnownDefault,
                ∃ addrs, lookupHost resolve host port = .ok addrs ∧ addrs ≠ [] ∧
                  ∀ ip ∈ addrs, isIpAllowed ip level = true) := by
  rw [not_and_or, not_not, not_not, Bool.not_eq_true, not_and, Bool.not_eq_true]
  constructor
  · exact fun h => ⟨h.scheme, h.metadata, h.name, h.literal, h.resolved⟩
  · exact fun ⟨hscheme, hmetadata, hname, hliteral, hresolved⟩ =>
      ⟨hscheme, hhost, hmetadata, hname, hliteral, hresolved⟩

/-- A scheme that is not refused is one of the web. -/
theorem web_of_scheme {scheme : String} (h : ¬ (scheme ≠ "http" ∧ scheme ≠ "https")) :
    scheme = "http" ∨ scheme = "https" :=
  (not_and_or.mp h).imp not_not.mp not_not.mp

/-- What passes a check that refuses. -/
theorem ite_error_eq_ok_iff {α : Type} {c : Prop} [Decidable c] {e : UrlGuardError}
    {x : Except UrlGuardError α} {a : α} :
    (if c then .error e else x) = .ok a ↔ ¬ c ∧ x = .ok a := by
  split
  next h => simp [h]
  next h => simp [h]

/-- What `validate_url` accepts. -/
theorem validateUrl_iff :
    validateUrl lib resolve level rawUrl = .ok () ↔
      ∃ url host, lib.parse rawUrl = .ok url ∧ Guarded resolve level url host := by
  unfold validateUrl
  cases hparse : lib.parse rawUrl with
  | error e => simp
  | ok url =>
      dsimp only
      cases hhost : url.hostStr with
      | none =>
          refine iff_of_false (by split <;> simp) ?_
          rintro ⟨_, host, ⟨⟩, hguarded⟩
          exact nomatch hhost.symm.trans hguarded.hostStr
      | some host =>
          have hfound : (∃ url' host', Except.ok url = Except.ok (ε := String) url' ∧
              Guarded resolve level url' host') ↔ Guarded resolve level url host := by
            constructor
            · rintro ⟨_, host', ⟨⟩, hguarded⟩
              obtain rfl := Option.some.inj (hhost.symm.trans hguarded.hostStr)
              exact hguarded
            · exact fun hguarded => ⟨url, host, rfl, hguarded⟩
          rw [hfound, guarded_of_checks hhost, ite_error_eq_ok_iff]
          refine and_congr_right fun hscheme => ?_
          rw [ite_error_eq_ok_iff, ite_error_eq_ok_iff]
          refine and_congr_right fun _ => and_congr_right fun _ => ?_
          -- The checks that are left are about addresses.
          cases hliteral : IpAddr.parse host with
          | some ip => cases hip : isIpAllowed ip level <;> simp [hip]
          | none =>
              obtain ⟨port, hport⟩ := Option.isSome_iff_exists.mp
                (lib.port_of_web rawUrl url hparse (web_of_scheme hscheme))
              rw [hport, Option.getD_some]
              cases hlookup : lookupHost resolve host port with
              | error e => simp [hlookup]
              | ok addrs => simp [hlookup, validateAddrs_iff]

/-- What `pin_url` accepts, and what it pins. -/
theorem pinUrl_eq_ok_iff {p : PinnedUrl} :
    pinUrl lib resolve level rawUrl = .ok p ↔
      ∃ url, lib.parse rawUrl = .ok url ∧ Guarded resolve level url p.host ∧ p.url = rawUrl ∧
        url.portOrKnownDefault = some p.port ∧
          (IpAddr.parse p.host = some p.ip ∨ IpAddr.parse p.host = none ∧
            ∃ addrs, lookupHost resolve p.host p.port = .ok addrs ∧ addrs.head? = some p.ip) := by
  obtain ⟨purl, phost, pip, pport⟩ := p
  unfold pinUrl
  cases hparse : lib.parse rawUrl with
  | error e => simp
  | ok url =>
      dsimp only
      cases hhost : url.hostStr with
      | none =>
          refine iff_of_false (by split <;> simp) ?_
          rintro ⟨_, ⟨⟩, hguarded, -⟩
          exact nomatch hhost.symm.trans hguarded.hostStr
      | some host =>
          have hfound : (∃ url', Except.ok url = Except.ok (ε := String) url' ∧
              Guarded resolve level url' phost ∧ purl = rawUrl ∧
                url'.portOrKnownDefault = some pport ∧
                  (IpAddr.parse phost = some pip ∨ IpAddr.parse phost = none ∧
                    ∃ addrs, lookupHost resolve phost pport = .ok addrs ∧
                      addrs.head? = some pip)) ↔
              Guarded resolve level url host ∧ rawUrl = purl ∧ host = phost ∧
                url.portOrKnownDefault = some pport ∧
                  (IpAddr.parse host = some pip ∨ IpAddr.parse host = none ∧
                    ∃ addrs, lookupHost resolve host pport = .ok addrs ∧
                      addrs.head? = some pip) := by
            constructor
            · rintro ⟨_, ⟨⟩, hguarded, rfl, hport, hip⟩
              obtain rfl := Option.some.inj (hhost.symm.trans hguarded.hostStr)
              exact ⟨hguarded, rfl, rfl, hport, hip⟩
            · rintro ⟨hguarded, rfl, rfl, hport, hip⟩
              exact ⟨url, rfl, hguarded, rfl, hport, hip⟩
          rw [hfound, guarded_of_checks hhost, ite_error_eq_ok_iff, and_assoc]
          refine and_congr_right fun hscheme => ?_
          rw [ite_error_eq_ok_iff, ite_error_eq_ok_iff, and_assoc, and_assoc]
          refine and_congr_right fun _ => and_congr_right fun _ => ?_
          -- The checks that are left are about addresses.
          obtain ⟨port, hport⟩ := Option.isSome_iff_exists.mp
            (lib.port_of_web rawUrl url hparse (web_of_scheme hscheme))
          rw [hport]
          dsimp only
          cases hliteral : IpAddr.parse host with
          | some ip =>
              cases hip : isIpAllowed ip level with
              | false => simp [hip]
              | true =>
                  dsimp only
                  rw [if_neg (by simp [hip])]
                  constructor
                  · rintro ⟨⟩
                    refine ⟨⟨?_, fun h => nomatch h⟩, rfl, rfl, rfl, .inl rfl⟩
                    rintro _ ⟨⟩
                    exact hip
                  · rintro ⟨-, rfl, rfl, ⟨⟩, ⟨⟨⟩⟩ | ⟨h, -⟩⟩
                    · rfl
                    · cases h
          | none =>
              cases hlookup : lookupHost resolve host port with
              | error e =>
                  refine iff_of_false (fun h => nomatch h) ?_
                  rintro ⟨⟨-, hresolved⟩, -⟩
                  obtain ⟨_, ⟨⟩, addrs, haddrs, -⟩ := hresolved rfl
                  exact nomatch hlookup.symm.trans haddrs
              | ok addrs =>
                  dsimp only
                  rw [map_pinAddrs_eq_ok_iff]
                  constructor
                  · rintro ⟨rfl, rfl, rfl, hhead, hall⟩
                    refine ⟨⟨fun _ h => (nomatch h), fun _ => ?_⟩, rfl, rfl, rfl,
                      .inr ⟨rfl, addrs, hlookup, hhead⟩⟩
                    refine ⟨port, rfl, addrs, hlookup, ?_, hall⟩
                    rintro rfl
                    cases hhead
                  · rintro ⟨⟨-, hresolved⟩, rfl, rfl, ⟨⟩, h | ⟨-, addrs', haddrs', hhead⟩⟩
                    · cases h
                    · obtain ⟨_, ⟨⟩, addrs'', haddrs'', -, hall⟩ := hresolved rfl
                      cases hlookup.symm.trans haddrs'
                      cases hlookup.symm.trans haddrs''
                      exact ⟨rfl, rfl, rfl, hhead, hall⟩

/-- A port that is not for upstreams is refused by both. -/
theorem upstream_iff :
    (validateUpstreamUrl lib resolve rawUrl = .ok () ↔
        (∃ url, lib.parse rawUrl = .ok url ∧ forbiddenPort url = none) ∧
          validateUrl lib resolve .upstreamOnly rawUrl = .ok ()) ∧
      ∀ p, pinUpstreamUrl lib resolve rawUrl = .ok p ↔
        (∃ url, lib.parse rawUrl = .ok url ∧ forbiddenPort url = none) ∧
          pinUrl lib resolve .upstreamOnly rawUrl = .ok p := by
  unfold validateUpstreamUrl pinUpstreamUrl
  cases hparse : lib.parse rawUrl with
  | error e => simp
  | ok url => cases hport : forbiddenPort url <;> simp [hport]

/-- A URL is pinned exactly if it is valid. -/
theorem exists_pinUrl_iff :
    (∃ p, pinUrl lib resolve level rawUrl = .ok p) ↔
      validateUrl lib resolve level rawUrl = .ok () := by
  rw [validateUrl_iff]
  constructor
  · rintro ⟨p, hp⟩
    obtain ⟨url, hparse, hguarded, -⟩ := pinUrl_eq_ok_iff.mp hp
    exact ⟨url, p.host, hparse, hguarded⟩
  · rintro ⟨url, host, hparse, hguarded⟩
    obtain ⟨port, hport⟩ := Option.isSome_iff_exists.mp
      (lib.port_of_web rawUrl url hparse hguarded.scheme)
    cases hliteral : IpAddr.parse host with
    | some ip =>
        exact ⟨⟨rawUrl, host, ip, port⟩,
          pinUrl_eq_ok_iff.mpr ⟨url, hparse, hguarded, rfl, hport, .inl hliteral⟩⟩
    | none =>
        obtain ⟨port', hport', addrs, haddrs, hne, -⟩ := hguarded.resolved hliteral
        obtain rfl := Option.some.inj (hport.symm.trans hport')
        obtain ⟨ip, rest, rfl⟩ := List.exists_cons_of_ne_nil hne
        exact ⟨⟨rawUrl, host, ip, port⟩,
          pinUrl_eq_ok_iff.mpr ⟨url, hparse, hguarded, rfl, hport,
            .inr ⟨hliteral, ip :: rest, haddrs, rfl⟩⟩⟩

end Accepts

/-- The pinned address is allowed, and it is that of the host of the URL: its literal address or one
of those that the resolver gives. -/
structure SafePin (lib : UrlLib) (resolve : Resolver) (level : GuardLevel) (rawUrl : String)
    (p : PinnedUrl) : Prop where
  url : p.url = rawUrl
  host : ∃ url, lib.parse rawUrl = .ok url ∧ url.hostStr = some p.host
  allowed : isIpAllowed p.ip level = true
  ip : IpAddr.parse p.host = some p.ip ∨
    ∃ addrs, lookupHost resolve p.host p.port = .ok addrs ∧ p.ip ∈ addrs

/-- A pin is safe. -/
theorem safePin_of_pinUrl {lib : UrlLib} {resolve : Resolver} {level : GuardLevel}
    {rawUrl : String} {p : PinnedUrl} (h : pinUrl lib resolve level rawUrl = .ok p) :
    SafePin lib resolve level rawUrl p := by
  obtain ⟨url, hparse, hguarded, hurl, hport, hip⟩ := pinUrl_eq_ok_iff.mp h
  refine ⟨hurl, ⟨url, hparse, hguarded.hostStr⟩, ?_, ?_⟩
  · obtain hliteral | ⟨hliteral, addrs, haddrs, hhead⟩ := hip
    · exact hguarded.literal p.ip hliteral
    · -- The first address is one of those that were checked.
      obtain ⟨port', hport', addrs', haddrs', -, hall⟩ := hguarded.resolved hliteral
      cases hport.symm.trans hport'
      cases haddrs.symm.trans haddrs'
      exact hall p.ip (List.mem_of_mem_head? hhead)
  · obtain hliteral | ⟨-, addrs, haddrs, hhead⟩ := hip
    · exact .inl hliteral
    · exact .inr ⟨addrs, haddrs, List.mem_of_mem_head? hhead⟩

/-- `PinCache`: under a URL what was pinned, and when it expires. -/
structure PinCache where
  inner : DashMap String (PinnedUrl × ℕ)
  ttlSecs : ℕ

namespace PinCache

/-- `new`. -/
def new (ttlSecs : ℕ) : PinCache := ⟨∅, max ttlSecs 1⟩

/-- The start of `pin_upstream`: the entry of a URL, if it has not expired. -/
def cached (cache : PinCache) (now : ℕ) (url : String) : Option PinnedUrl :=
  match cache.inner.lookup url with
  | some (pinned, exp) => if now < exp then some pinned else none
  | none => none

/-- The end of `pin_upstream`: a URL that was pinned is kept. The sum is one of `u64`s. -/
def keep (cache : PinCache) (now : ℕ) (url : String) (pinned : PinnedUrl) : PinCache :=
  { cache with inner := cache.inner.insert url (pinned, wrappingAdd now cache.ttlSecs) }

end PinCache

/-- A pinned URL at a time: one that was just pinned, or one that is returned. -/
structure PinEvent where
  url : String
  pinned : PinnedUrl
  time : ℕ
  deriving DecidableEq

/-- The cache, with the calls that run and what has happened. -/
structure PinState where
  cache : PinCache
  /-- The last reading of the clock. -/
  now : ℕ
  /-- The URLs of the calls that have found no entry and wait for the resolver. -/
  pending : List String
  /-- The successful calls of `pin_upstream_url`. -/
  pins : List PinEvent
  /-- What `pin_upstream` has returned. -/
  returned : List PinEvent

/-- The steps of calls of `pin_upstream`, each with the time that it reads. -/
inductive PinAction
  | check (now : ℕ) (url : String)
  | finish (now : ℕ) (url : String) (resolve : Resolver)

namespace PinState

/-- One step. -/
def step (lib : UrlLib) (s : PinState) : PinAction → Option PinState
  | .check now url =>
      if now < s.now then none
      else
        match s.cache.cached now url with
        | some pinned => some { s with now, returned := ⟨url, pinned, now⟩ :: s.returned }
        | none => some { s with now, pending := url :: s.pending }
  | .finish now url resolve =>
      if now < s.now ∨ url ∉ s.pending then none
      else
        match pinUpstreamUrl lib resolve url with
        | .ok pinned =>
            some { cache := s.cache.keep now url pinned
                   now := now
                   pending := s.pending.erase url
                   pins := ⟨url, pinned, now⟩ :: s.pins
                   returned := ⟨url, pinned, now⟩ :: s.returned }
        | .error _ => some { s with now, pending := s.pending.erase url }

/-- Every interleaving of calls, on a clock that does not run backwards. -/
def machine (lib : UrlLib) : Machine PinState PinAction := ⟨step lib⟩

/-- The cache at the start. -/
def initial (ttlSecs : ℕ) : PinState := ⟨.new ttlSecs, 0, [], [], []⟩

/-- What was returned was pinned for the same URL by a call that succeeded, less than the time to
live ago. -/
def Fresh (lib : UrlLib) (s : PinState) : Prop :=
  ∀ r ∈ s.returned, ∃ pin ∈ s.pins, pin.url = r.url ∧ pin.pinned = r.pinned ∧ pin.time ≤ r.time ∧
    r.time < pin.time + s.cache.ttlSecs ∧
      ∃ resolve, pinUpstreamUrl lib resolve r.url = .ok r.pinned

/-- Pins are those of successful calls, and the entries of the cache are such pins, which expire in
time. -/
structure Inv (lib : UrlLib) (s : PinState) : Prop where
  ttl : 0 < s.cache.ttlSecs
  pins : ∀ pin ∈ s.pins, pin.time ≤ s.now ∧
    ∃ resolve, pinUpstreamUrl lib resolve pin.url = .ok pin.pinned
  entries : ∀ url pinned exp, s.cache.inner.lookup url = some (pinned, exp) →
    ∃ pin ∈ s.pins, pin.url = url ∧ pin.pinned = pinned ∧ exp ≤ pin.time + s.cache.ttlSecs
  fresh : s.Fresh lib

/-- A sum of `u64`s is not larger than the sum. -/
theorem wrappingAdd_le (a b : ℕ) : wrappingAdd a b ≤ a + b := Nat.mod_le _ _

/-- What was pinned before a reading of the clock was pinned before a later one. -/
theorem Inv.pins_le {lib : UrlLib} {s : PinState} (hs : s.Inv lib) {now : ℕ} (hnow : s.now ≤ now) :
    ∀ pin ∈ s.pins, pin.time ≤ now ∧
      ∃ resolve, pinUpstreamUrl lib resolve pin.url = .ok pin.pinned := by
  intro pin hpin
  obtain ⟨htime, hgenuine⟩ := hs.pins pin hpin
  exact ⟨htime.trans hnow, hgenuine⟩

/-- Every step keeps the invariant. -/
theorem inv_step {lib : UrlLib} {s t : PinState} {a : PinAction} (hs : s.Inv lib)
    (h : s.step lib a = some t) : t.Inv lib := by
  cases a with
  | check now url =>
      rw [step, Option.ite_none_left_eq_some, not_lt] at h
      obtain ⟨hnow, h⟩ := h
      cases hcached : s.cache.cached now url with
      | some pinned =>
          rw [hcached] at h
          cases h
          refine { hs with pins := hs.pins_le hnow, fresh := ?_ }
          intro r hr
          obtain rfl | hr := List.mem_cons.mp hr
          · -- The entry has not expired.
            unfold PinCache.cached at hcached
            split at hcached
            next pinned' exp hlookup =>
              obtain ⟨hlt, ⟨⟩⟩ := Option.ite_none_right_eq_some.mp hcached
              obtain ⟨pin, hpin, rfl, rfl, hexp⟩ := hs.entries _ _ _ hlookup
              obtain ⟨htime, hgenuine⟩ := hs.pins_le hnow pin hpin
              exact ⟨pin, hpin, rfl, rfl, htime, hlt.trans_le hexp, hgenuine⟩
            next => cases hcached
          · exact hs.fresh r hr
      | none =>
          rw [hcached] at h
          cases h
          exact { hs with pins := hs.pins_le hnow }
  | finish now url resolve =>
      rw [step, Option.ite_none_left_eq_some, not_or, not_lt] at h
      obtain ⟨⟨hnow, -⟩, h⟩ := h
      have hpins := hs.pins_le hnow
      cases hpin : pinUpstreamUrl lib resolve url with
      | error e =>
          rw [hpin] at h
          cases h
          exact { hs with pins := hpins }
      | ok pinned =>
          rw [hpin] at h
          cases h
          constructor
          case ttl => exact hs.ttl
          case pins =>
            intro pin hmem
            obtain rfl | hmem := List.mem_cons.mp hmem
            · exact ⟨le_rfl, resolve, hpin⟩
            · exact hpins pin hmem
          case entries =>
            intro url' pinned' exp hlookup
            rcases DashMap.lookup_insert_cases hlookup with ⟨hurl, hnew⟩ | ⟨-, hold⟩
            · obtain ⟨rfl, rfl⟩ := Prod.mk.inj hnew
              exact ⟨⟨url, pinned', now⟩, List.mem_cons_self, hurl.symm, rfl, wrappingAdd_le _ _⟩
            · obtain ⟨pin, hmem, hpin⟩ := hs.entries url' pinned' exp hold
              exact ⟨pin, List.mem_cons_of_mem _ hmem, hpin⟩
          case fresh =>
            intro r hr
            obtain rfl | hr := List.mem_cons.mp hr
            · refine ⟨⟨url, pinned, now⟩, List.mem_cons_self, rfl, rfl, le_rfl, ?_, resolve, hpin⟩
              exact Nat.lt_add_of_pos_right hs.ttl
            · obtain ⟨pin, hmem, hpin⟩ := hs.fresh r hr
              exact ⟨pin, List.mem_cons_of_mem _ hmem, hpin⟩

/-- What the cache returns was pinned less than its time to live ago, in every run. -/
theorem fresh_of_runs {lib : UrlLib} {ttlSecs : ℕ} {as : List PinAction} {s : PinState}
    (hrun : (machine lib).Runs Machine.unrestricted (initial ttlSecs) as s) : s.Fresh lib := by
  have hinv : s.Inv lib := by
    refine hrun.invariant (I := Inv lib) (fun _ _ _ hs _ h => inv_step hs h) ?_
    refine ⟨Nat.lt_of_lt_of_le Nat.one_pos (le_max_right _ _), ?_, ?_, ?_⟩
    · exact fun _ h => nomatch h
    · intro url pinned exp hlookup
      simp [initial, PinCache.new] at hlookup
    · exact fun _ h => nomatch h
  exact hinv.fresh

end PinState

/-- Pinning and validating accept the same URLs, pins are safe, and what the cache of pins returns
was pinned less than its time to live ago. -/
theorem pinning_agrees (lib : UrlLib) :
    (∀ (resolve : Resolver) (rawUrl : String),
      ((∃ p, pinOutboundUrl lib resolve rawUrl = .ok p) ↔
          validateOutboundUrl lib resolve rawUrl = .ok ()) ∧
        ((∃ p, pinUpstreamUrl lib resolve rawUrl = .ok p) ↔
          validateUpstreamUrl lib resolve rawUrl = .ok ()) ∧
        (∀ p, pinOutboundUrl lib resolve rawUrl = .ok p → SafePin lib resolve .strict rawUrl p) ∧
        ∀ p, pinUpstreamUrl lib resolve rawUrl = .ok p →
          SafePin lib resolve .upstreamOnly rawUrl p) ∧
      ∀ (ttlSecs : ℕ) (as : List PinAction) (s : PinState),
        (PinState.machine lib).Runs Machine.unrestricted (.initial ttlSecs) as s → s.Fresh lib := by
  refine ⟨fun resolve rawUrl => ⟨exists_pinUrl_iff, ?_, fun p => safePin_of_pinUrl, ?_⟩,
    fun ttlSecs as s => PinState.fresh_of_runs⟩
  · obtain ⟨hvalidate, hpin⟩ := @upstream_iff lib resolve rawUrl
    simp only [hpin, hvalidate, exists_and_left, exists_pinUrl_iff]
  · exact fun p hp => safePin_of_pinUrl ((upstream_iff.2 p).mp hp).2

/-- A parser that reads URLs of the web without a port. -/
def UrlLib.plain : UrlLib where
  parse raw :=
    let host (rest : String) := String.ofList (rest.toList.takeWhile (· ≠ '/'))
    match Text.stripPrefix raw "http://", Text.stripPrefix raw "https://" with
    | some rest, _ => .ok ⟨"http", some (host rest), none, some 80⟩
    | none, some rest => .ok ⟨"https", some (host rest), none, some 443⟩
    | none, none => .error "relative URL without a base"
  port_of_web raw url h _ := by
    dsimp only at h
    split at h <;> cases h <;> rfl

/-- A resolver that knows one public address. -/
def publicResolver : Resolver := fun _ => .ok [.v4 93 184 216 34]

/-- Two calls, the second of which finds the entry of the first. -/
def cachedPin : List PinAction :=
  [.check 10 "http://api.test/", .finish 10 "http://api.test/" publicResolver,
    .check 69 "http://api.test/"]

/-- A public URL is pinned, and its pin is found in the cache. -/
theorem pinning_agrees_api :
    (∃ p, pinOutboundUrl .plain publicResolver "http://api.test/" = .ok p) ∧
      ∃ s, (PinState.machine .plain).exec Machine.unrestricted (.initial 60) cachedPin = some s ∧
        s.returned.length = 2 ∧ s.Fresh .plain := by
  obtain ⟨hagree, hfresh⟩ := pinning_agrees .plain
  refine ⟨(hagree publicResolver "http://api.test/").1.mpr (by decide +kernel), ?_⟩
  refine ⟨_, rfl, rfl, hfresh 60 cachedPin _ (Machine.runs_of_exec rfl)⟩

end XiraNet

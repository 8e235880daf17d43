import XiraNet.Gateway.Dispatch

/-!
# Versioned routing

The choice of a service by `versioned_gateway_handler`, next to the rule of the registry: the
longest prefix that ends on a segment boundary.

* `chosenService_eq_some`, `forwarded_versioned_iff`: the choice, and what is sent.
* `routedInEveryOrder_iff`: when the two rules agree, whatever the order of the services.
* `routedInEveryOrder_fails`: a path that goes to a service whose prefix ends inside a segment.
-/

namespace XiraNet

open Text ServiceRegistry

/-- The service that `versioned_gateway_handler` chooses for a path. -/
def chosenService (r : ServiceRegistry) (path : String) : Option ServiceEntry :=
  match extractVersion path with
  | (some version, path) =>
      r.services.values.find? fun service => servesVersion service version path
  | (none, _) => none

/-- The path `/v{N}/rest`. -/
def versionedPath (version rest : String) : String := "/v" ++ version ++ "/" ++ rest

/-- A version is a number. -/
def IsNumber (version : String) : Prop := version ≠ "" ∧ version.toList.all Char.isDigit

/-- A service is for a version, or for every one. -/
def IsEligible (service : ServiceEntry) (version : String) : Prop :=
  service.version = none ∨ service.version = some version

/-- A service has the longest prefix on a segment boundary among those with a version or without
one. -/
structure IsBestMatch (r : ServiceRegistry) (version path : String) (service : ServiceEntry) :
    Prop where
  mem : service ∈ r.services.values
  eligible : IsEligible service version
  boundary : matchesPath service.pathPrefix path = true
  longest : ∀ other ∈ r.services.values, IsEligible other version →
    matchesPath other.pathPrefix path = true →
      other.pathPrefix.utf8ByteSize ≤ service.pathPrefix.utf8ByteSize

/-- No service for a version has a prefix that ends on a segment boundary of a path. -/
def NoMatch (r : ServiceRegistry) (version path : String) : Prop :=
  ∀ service ∈ r.services.values, IsEligible service version →
    matchesPath service.pathPrefix path = false

/-- A versioned request is routed by the rule of the registry. -/
structure RoutedByPrefix (r : ServiceRegistry) (req : HttpRequest) (version rest : String) :
    Prop where
  best : ∀ service, chosenService r req.path = some service →
    IsBestMatch r version ("/" ++ rest) service
  none : chosenService r req.path = none → NoMatch r version ("/" ++ rest)
  url : ∀ f, (versionedGatewayHandler r req).1.forwarded = some f →
    chosenService r req.path = some f.service ∧
      ∃ below, "/" ++ rest = f.service.pathPrefix ++ below ∧
        f.url = f.service.upstream ++ restUrl below req.query

/-- A versioned request is routed by the rule of the registry, in whatever order an iteration meets
the services. -/
def RoutedInEveryOrder (r : ServiceRegistry) (req : HttpRequest) (version rest : String) : Prop :=
  ∀ r' : ServiceRegistry, r'.services.entries.Perm r.services.entries →
    RoutedByPrefix r' req version rest

/-- The services for a version leave no choice: their prefixes that start the path are the same, and
end on a segment boundary. -/
structure Unambiguous (r : ServiceRegistry) (version path : String) : Prop where
  same : ∀ s ∈ r.services.values, ∀ t ∈ r.services.values, servesVersion s version path →
    servesVersion t version path → s.pathPrefix = t.pathPrefix
  boundary : ∀ s ∈ r.services.values, servesVersion s version path →
    matchesPath s.pathPrefix path = true

/-- A number is split off a versioned path if it fits into a `u32`. -/
theorem extractVersion_versionedPath {version : String} (h : IsNumber version) (rest : String) :
    extractVersion (versionedPath version rest) =
      if (parseUnsigned u32Max version.toList).isSome then (some version, "/" ++ rest)
      else (none, versionedPath version rest) := by
  have hslash : '/' ∉ version.toList := by
    intro hmem
    exact absurd (List.all_eq_true.mp h.2 _ hmem) (by decide)
  have hsplit : splitn 3 '/' (versionedPath version rest).toList =
      [[], 'v' :: version.toList, rest.toList] := by
    have hlist : (versionedPath version rest).toList =
        [] ++ '/' :: (('v' :: version.toList) ++ '/' :: rest.toList) := by
      simp [versionedPath]
    rw [hlist, splitn_append List.not_mem_nil, splitn_append (by simpa using hslash)]
    rfl
  unfold extractVersion
  rw [hsplit]
  cases hparse : parseUnsigned u32Max version.toList with
  | none => simp [hparse]
  | some n => simp [hparse]

/-- What the handler sends goes to the service it has chosen. -/
theorem forwarded_versioned_iff {r : ServiceRegistry} {req : HttpRequest} {f : Forwarded}
    {version path : String} (h : extractVersion req.path = (some version, path)) :
    (versionedGatewayHandler r req).1.forwarded = some f ↔
      ∃ service, chosenService r req.path = some service ∧ req.method ∈ Gateway.forwardedMethods ∧
        f = ⟨service, service.upstream, req.method,
          service.upstream ++ Gateway.downstreamPath service path⟩ := by
  unfold versionedGatewayHandler chosenService
  rw [h]
  dsimp only
  cases r.services.values.find? fun service => servesVersion service version path with
  | none => simp [EntryOutcome.forwarded]
  | some service =>
      dsimp only
      split
      next hmethod => simp [EntryOutcome.forwarded, hmethod, eq_comm]
      next hmethod => simp [EntryOutcome.forwarded, hmethod]

/-- A service serves a version of a path if it is for the version and its prefix starts the path. -/
theorem servesVersion_iff {service : ServiceEntry} {version path : String} :
    servesVersion service version path = true ↔
      IsEligible service version ∧ startsWith path service.pathPrefix = true := by
  unfold servesVersion IsEligible
  cases service.version with
  | none => simp
  | some v => simp [and_comm]

/-- Whether the choice of every order is the best match, in terms of the services. -/
theorem unambiguous_iff {r : ServiceRegistry} {version path : String} :
    Unambiguous r version path ↔ ∀ s ∈ r.services.values, servesVersion s version path = true →
      IsBestMatch r version path s := by
  constructor
  · intro hsame s hs hserves
    refine ⟨hs, (servesVersion_iff.mp hserves).1, hsame.boundary s hs hserves, ?_⟩
    intro other hother heligible hboundary
    have hother' := servesVersion_iff.mpr ⟨heligible, startsWith_of_matchesPath hboundary⟩
    rw [hsame.same s hs other hother hserves hother']
  · intro hbest
    refine ⟨?_, fun s hs hserves => (hbest s hs hserves).boundary⟩
    intro s hs t ht hserves hserves'
    have hs' := hbest s hs hserves
    have ht' := hbest t ht hserves'
    refine eq_of_startsWith (servesVersion_iff.mp hserves).2 (servesVersion_iff.mp hserves').2 ?_
    exact Nat.le_antisymm (ht'.longest s hs hs'.eligible hs'.boundary)
      (hs'.longest t ht ht'.eligible ht'.boundary)

/-- Which match is the best does not depend on the order. -/
theorem isBestMatch_of_perm {r r' : ServiceRegistry}
    (h : r'.services.entries.Perm r.services.entries) {version path : String}
    {service : ServiceEntry} :
    IsBestMatch r' version path service ↔ IsBestMatch r version path service := by
  constructor
  · rintro ⟨hmem, heligible, hboundary, hlongest⟩
    exact ⟨(DashMap.mem_values_of_perm h _).mp hmem, heligible, hboundary, fun other hother =>
      hlongest other ((DashMap.mem_values_of_perm h _).mpr hother)⟩
  · rintro ⟨hmem, heligible, hboundary, hlongest⟩
    exact ⟨(DashMap.mem_values_of_perm h _).mpr hmem, heligible, hboundary, fun other hother =>
      hlongest other ((DashMap.mem_values_of_perm h _).mp hother)⟩

/-- Every service can be the first that an iteration meets. -/
theorem exists_order_first {r : ServiceRegistry} {service : ServiceEntry}
    (h : service ∈ r.services.values) : ∃ r' : ServiceRegistry,
      r'.services.entries.Perm r.services.entries ∧
        ∃ rest, r'.services.values = service :: rest := by
  obtain ⟨entry, hmem, rfl⟩ := List.mem_map.mp h
  have hperm : (entry :: r.services.entries.erase entry).Perm r.services.entries :=
    (List.perm_cons_erase hmem).symm
  refine ⟨{ r with services := ⟨entry :: r.services.entries.erase entry, ?_⟩ }, hperm, _, rfl⟩
  exact (List.perm_nodupKeys hperm).mpr r.services.nodupKeys

/-- The service chosen under a version that fits into a `u32`. -/
theorem chosenService_of_fits {version : String} (hnumber : IsNumber version)
    (hfits : (parseUnsigned u32Max version.toList).isSome) (rest : String) (r : ServiceRegistry) :
    chosenService r (versionedPath version rest) =
      r.services.values.find? fun service => servesVersion service version ("/" ++ rest) := by
  rw [chosenService, extractVersion_versionedPath hnumber, if_pos hfits]

/-- Under a version that does not fit, no service is chosen and nothing is sent. -/
theorem chosenService_of_not_fits {req : HttpRequest} {version rest : String}
    (hnumber : IsNumber version) (hfits : ¬(parseUnsigned u32Max version.toList).isSome)
    (hpath : req.path = versionedPath version rest) (r : ServiceRegistry) :
    chosenService r req.path = none ∧ (versionedGatewayHandler r req).1.forwarded = none := by
  have hversion := extractVersion_versionedPath hnumber rest
  rw [if_neg hfits, ← hpath] at hversion
  constructor
  · rw [chosenService, hversion]
  · unfold versionedGatewayHandler
    rw [hversion]
    rfl

/-- The query of a versioned request does not matter. -/
def QueryUnused (r : ServiceRegistry) (req : HttpRequest) (version path : String) : Prop :=
  req.query = "" ∨ req.method ∉ Gateway.forwardedMethods ∨
    ∀ service ∈ r.services.values, servesVersion service version path = false

/-- A registry that leaves no choice routes by its own rule. -/
theorem routedByPrefix_of_unambiguous {r : ServiceRegistry} {req : HttpRequest}
    {version rest : String} (hnumber : IsNumber version)
    (hfits : (parseUnsigned u32Max version.toList).isSome)
    (hpath : req.path = versionedPath version rest) (hsame : Unambiguous r version ("/" ++ rest))
    (hquery : QueryUnused r req version ("/" ++ rest)) : RoutedByPrefix r req version rest := by
  have hchosen := chosenService_of_fits hnumber hfits rest r
  have hversion := extractVersion_versionedPath hnumber rest
  rw [if_pos hfits] at hversion
  rw [← hpath] at hchosen hversion
  refine ⟨?_, ?_, ?_⟩
  · intro service hservice
    rw [hchosen] at hservice
    exact unambiguous_iff.mp hsame service (List.mem_of_find?_eq_some hservice)
      (List.find?_some (p := fun service => servesVersion service version ("/" ++ rest)) hservice)
  · intro hnone service hmem heligible
    rw [hchosen, List.find?_eq_none] at hnone
    by_contra hboundary
    rw [Bool.not_eq_false] at hboundary
    exact hnone service hmem
      (servesVersion_iff.mpr ⟨heligible, startsWith_of_matchesPath hboundary⟩)
  · intro f hforward
    obtain ⟨service, hservice, hmethod, rfl⟩ := (forwarded_versioned_iff hversion).mp hforward
    refine ⟨hservice, ?_⟩
    rw [hchosen] at hservice
    have hserves : servesVersion service version ("/" ++ rest) = true :=
      List.find?_some (p := fun service => servesVersion service version ("/" ++ rest)) hservice
    obtain ⟨below, hbelow⟩ := exists_rest_of_servesVersion hserves
    refine ⟨below, hbelow, ?_⟩
    rcases hquery with hempty | hother | hnone
    · simp [Gateway.downstreamPath_append hbelow, restUrl, hempty]
    · exact absurd hmethod hother
    · rw [hnone service (List.mem_of_find?_eq_some hservice)] at hserves
      cases hserves

/-- What is sent to the service that an iteration meets first. -/
theorem RoutedByPrefix.query_eq_empty {r : ServiceRegistry} {req : HttpRequest}
    {version rest : String} {service : ServiceEntry} (h : RoutedByPrefix r req version rest)
    (hversion : extractVersion req.path = (some version, "/" ++ rest))
    (hchosen : chosenService r req.path = some service)
    (hmethod : req.method ∈ Gateway.forwardedMethods) : req.query = "" := by
  have hforward := (forwarded_versioned_iff hversion).mpr ⟨service, hchosen, hmethod, rfl⟩
  obtain ⟨-, below, hbelow, hurl⟩ := h.url _ hforward
  dsimp only at hbelow hurl
  rw [Gateway.downstreamPath_append hbelow, restUrl] at hurl
  by_contra hne
  rw [if_neg hne] at hurl
  have hcount := congrArg (fun s : String => s.toList.length) hurl
  simp at hcount

/-- A versioned request is routed by the rule of the registry in every order exactly if the version
fits, the services leave no choice and the query does not matter, or there is nothing to route. -/
theorem routedInEveryOrder_iff {r : ServiceRegistry} {req : HttpRequest} {version rest : String}
    (hnumber : IsNumber version) (hpath : req.path = versionedPath version rest) :
    RoutedInEveryOrder r req version rest ↔
      (parseUnsigned u32Max version.toList).isSome ∧ Unambiguous r version ("/" ++ rest) ∧
          QueryUnused r req version ("/" ++ rest) ∨
        (parseUnsigned u32Max version.toList).isSome = false ∧ NoMatch r version ("/" ++ rest) := by
  by_cases hfits : (parseUnsigned u32Max version.toList).isSome
  · have hversion := extractVersion_versionedPath hnumber rest
    rw [if_pos hfits, ← hpath] at hversion
    simp only [hfits, true_and, Bool.true_eq_false, false_and, or_false]
    constructor
    · intro hrouted
      -- Whatever serves the path is chosen in some order.
      have hfirst : ∀ s ∈ r.services.values, servesVersion s version ("/" ++ rest) = true →
          ∃ r' : ServiceRegistry, r'.services.entries.Perm r.services.entries ∧
            chosenService r' req.path = some s := by
        intro s hs hserves
        obtain ⟨r', hperm, others, hvalues⟩ := exists_order_first hs
        refine ⟨r', hperm, ?_⟩
        rw [hpath, chosenService_of_fits hnumber hfits rest, hvalues]
        exact List.find?_cons_of_pos hserves
      refine ⟨unambiguous_iff.mpr fun s hs hserves => ?_, ?_⟩
      · obtain ⟨r', hperm, hchosen⟩ := hfirst s hs hserves
        exact (isBestMatch_of_perm hperm).mp ((hrouted r' hperm).best s hchosen)
      · by_cases hmethod : req.method ∈ Gateway.forwardedMethods
        · by_cases hnone : ∀ s ∈ r.services.values, servesVersion s version ("/" ++ rest) = false
          · exact .inr (.inr hnone)
          · obtain ⟨s, hs⟩ := not_forall.mp hnone
            obtain ⟨hmem, hserves⟩ := Classical.not_imp.mp hs
            obtain ⟨r', hperm, hchosen⟩ := hfirst s hmem (Bool.not_eq_false _ ▸ hserves)
            exact .inl ((hrouted r' hperm).query_eq_empty hversion hchosen hmethod)
        · exact .inr (.inl hmethod)
    · rintro ⟨hsame, hquery⟩ r' hperm
      have hmem := DashMap.mem_values_of_perm hperm
      refine routedByPrefix_of_unambiguous hnumber hfits hpath ?_ ?_
      · rw [unambiguous_iff] at hsame ⊢
        exact fun s hs hserves =>
          (isBestMatch_of_perm hperm).mpr (hsame s ((hmem s).mp hs) hserves)
      · exact hquery.imp_right (Or.imp_right fun hnone s hs => hnone s ((hmem s).mp hs))
  · have hnothing := chosenService_of_not_fits hnumber hfits hpath
    simp only [hfits, Bool.false_eq_true, false_and, false_or, true_and]
    constructor
    · intro hrouted
      exact (hrouted r (List.Perm.refl _)).none (hnothing r).1
    · intro hnone r' hperm
      refine ⟨?_, fun _ s hs => hnone s ((DashMap.mem_values_of_perm hperm s).mp hs), ?_⟩
      · intro s hs
        cases (hnothing r').1.symm.trans hs
      · intro f hf
        cases (hnothing r').2.symm.trans hf

/-- The service of the plain gateway is routed by the rule of the registry under its own prefix. -/
theorem routedInEveryOrder_api :
    RoutedInEveryOrder (plainGateway "/api").registry (plainRequest "/v1/api/x") "1" "api/x" := by
  have hvalues : (plainGateway "/api").registry.services.values =
      [ServiceEntry.new 0 0 "plain" "/api" "http://10.0.0.2" "/"] := rfl
  refine (routedInEveryOrder_iff ⟨by decide, by decide⟩ (by decide)).mpr
    (.inl ⟨by decide, ⟨?_, ?_⟩, .inl rfl⟩)
  · rw [hvalues]
    rintro s hs t ht - -
    rw [List.mem_singleton.mp hs, List.mem_singleton.mp ht]
  · rw [hvalues]
    rintro s hs -
    rw [List.mem_singleton.mp hs]
    decide

/-- Versioned routing does not agree with prefix routing: the service under `/api` is chosen for
`/apikeys`. -/
theorem routedInEveryOrder_fails :
    ¬ ∀ r req version rest, IsNumber version → req.path = versionedPath version rest →
      RoutedInEveryOrder r req version rest := by
  intro hall
  have hrouted := hall (plainGateway "/api").registry (plainRequest "/v1/apikeys") "1" "apikeys"
    ⟨by decide, by decide⟩ (by decide) _ (List.Perm.refl _)
  have hbest := hrouted.best (ServiceEntry.new 0 0 "plain" "/api" "http://10.0.0.2" "/") rfl
  exact absurd hbest.boundary (by decide)

end XiraNet

import XiraNet.Registry.Durability

/-!
# Service discovery

The rounds of `discovery/mod.rs` against a catalog, and restarts of the gateway in between. A round
registers the services whose prefix is free, with the URL of their first instance, and then hands
the URLs of the other instances to `set_upstreams`, which keeps them in memory only. The answers of
Consul and of the resolver are inputs.

* `ServiceRegistry.Agrees`: memory and database differ in extra upstreams alone, and hold every
  service that was discovered.
* `converged_step_iff`: when a round leaves the upstreams of the catalog.
* `converged_throughout_iff`: when every round of a run does.
* `instances_lost`: after a restart the first instance alone is left.
-/

namespace XiraNet

/-- `ConsulService`. -/
structure ConsulService where
  serviceAddress : String
  servicePort : ℕ
  deriving DecidableEq, Repr

/-- The URL of an instance. -/
def instanceUrl (host : String) (port : ℕ) : String :=
  "http://" ++ host ++ ":" ++ String.ofList (Nat.toDigits 10 port)

/-- A service of a catalog, with the id and the time that its registration would draw. -/
structure Listed where
  id : Uuid
  now : DateTime
  serviceName : String
  /-- The host and port of every instance. -/
  instances : List (String × ℕ)
  deriving DecidableEq, Repr

namespace Listed

/-- The URLs of the instances. -/
def urls (svc : Listed) : List String := svc.instances.map fun i => instanceUrl i.1 i.2

/-- The prefix under which a service is registered. -/
def pathPrefix (svc : Listed) : String := "/" ++ svc.serviceName

end Listed

/-- A service of the Consul catalog, with the answer to the request for its instances. -/
structure ConsulEntry where
  id : Uuid
  now : DateTime
  serviceName : String
  instances : List ConsulService
  deriving DecidableEq, Repr

/-- The service, with the addresses of its instances. -/
def ConsulEntry.listed (svc : ConsulEntry) : Listed :=
  ⟨svc.id, svc.now, svc.serviceName,
    svc.instances.map fun i => (i.serviceAddress, i.servicePort)⟩

/-- The name of the service behind a domain: its first segment, without underscores in front. -/
def dnsServiceName (domain : String) : String :=
  String.ofList ((domain.toList.dropWhile (· = '_')).takeWhile (· ≠ '.'))

/-- An SRV lookup of a domain: the targets and ports of its records, with the id and the time that
the registration would draw. -/
structure SrvLookup where
  id : Uuid
  now : DateTime
  domain : String
  answers : List (String × ℕ)
  deriving DecidableEq, Repr

/-- The service behind the domain. A target is a name with a dot at its end. -/
def SrvLookup.listed (lookup : SrvLookup) : Listed :=
  ⟨lookup.id, lookup.now, dnsServiceName lookup.domain,
    lookup.answers.map fun a => (Text.trimEndMatches a.1 '.', a.2)⟩

namespace ServiceRegistry

/-- What a round does with a service: one without instances is skipped, and one whose prefix is
registered already is left alone. -/
def discoverService (r : ServiceRegistry) (svc : Listed) : ServiceRegistry :=
  match svc.urls with
  | [] => r
  | upstream :: others =>
      if (r.findByPrefix svc.pathPrefix).isNone then
        -- The row that is written has the first instance alone.
        let (registered, r) :=
          r.register svc.id svc.now svc.serviceName svc.pathPrefix upstream "/health"
        if others = [] then r else (r.setUpstreams registered.id others).2
      -- Also when the instances have changed since.
      else r

/-- `discover_consul`, on the answers of Consul in the order of the map. -/
def discoverConsul (r : ServiceRegistry) (catalog : List ConsulEntry) : ServiceRegistry :=
  catalog.foldl
    (fun r svc => if svc.serviceName = "consul" then r else r.discoverService svc.listed) r

/-- `discover_dns`, on the answer of the resolver. -/
def discoverDns (r : ServiceRegistry) (lookup : SrvLookup) : ServiceRegistry :=
  r.discoverService lookup.listed

end ServiceRegistry

/-- The URLs with which a service was discovered, and the number of restarts before. -/
structure Discovered where
  urls : List String
  era : ℕ
  deriving DecidableEq, Repr

/-- The upstreams that are left of a discovered service: all of them until the gateway restarts, and
then the first alone. -/
def Discovered.left (found : Discovered) (era : ℕ) : List String :=
  if found.era = era then found.urls else found.urls.take 1

/-- A registry with storage and the history of its discoveries. -/
structure DiscoveryState where
  registry : ServiceRegistry
  /-- Every service that was discovered, under its name. -/
  seen : DashMap String Discovered
  /-- The number of restarts. -/
  era : ℕ
  /-- The services with instances that the last round has found. -/
  listed : List Listed

/-- A round of a backend, or a restart of the gateway. -/
inductive DiscoveryAction
  | consul (catalog : List ConsulEntry)
  | dns (lookup : SrvLookup)
  | restart
  deriving DecidableEq, Repr

/-- The services with instances that a round finds. -/
def DiscoveryAction.listing : DiscoveryAction → List Listed
  | .consul catalog =>
      ((catalog.filter fun svc => svc.serviceName ≠ "consul").map ConsulEntry.listed).filter
        fun svc => svc.urls ≠ []
  | .dns lookup => [lookup.listed].filter fun svc => svc.urls ≠ []
  | .restart => []

namespace DiscoveryState

/-- A registry with storage, before any round. -/
def initial (db : SqliteStorage) : DiscoveryState := ⟨.withStorage db, ∅, 0, []⟩

/-- The record of the discovered services after one more was found. -/
def note (era : ℕ) (seen : DashMap String Discovered) (svc : Listed) :
    DashMap String Discovered :=
  if (seen.lookup svc.serviceName).isSome then seen
  else seen.insert svc.serviceName ⟨svc.urls, era⟩

/-- What a round may find: the ids that it draws are new, and nothing else registers the prefixes of
its services. -/
structure Admits (s : DiscoveryState) (listing : List Listed) : Prop where
  ids : (listing.map (·.id)).Nodup
  fresh : ∀ svc ∈ listing, s.registry.services.lookup svc.id = none
  prefixes : (listing.map fun svc => ServiceEntry.normalizePrefix svc.pathPrefix).Nodup
  foreign : ∀ svc ∈ listing, (s.registry.findByPrefix svc.pathPrefix).isSome →
    (s.seen.lookup svc.serviceName).isSome

/-- The four conditions. -/
theorem admits_iff (s : DiscoveryState) (listing : List Listed) :
    s.Admits listing ↔ (listing.map (·.id)).Nodup ∧
      (∀ svc ∈ listing, s.registry.services.lookup svc.id = none) ∧
      (listing.map fun svc => ServiceEntry.normalizePrefix svc.pathPrefix).Nodup ∧
      ∀ svc ∈ listing, (s.registry.findByPrefix svc.pathPrefix).isSome →
        (s.seen.lookup svc.serviceName).isSome := by
  constructor
  · intro h
    exact ⟨h.ids, h.fresh, h.prefixes, h.foreign⟩
  · intro h
    exact ⟨h.1, h.2.1, h.2.2.1, h.2.2.2⟩

instance (s : DiscoveryState) (listing : List Listed) : Decidable (s.Admits listing) :=
  decidable_of_iff _ (s.admits_iff listing).symm

/-- The state after a round that has found `listing` and left the registry `registry`. -/
def round (s : DiscoveryState) (listing : List Listed) (registry : ServiceRegistry) :
    Option DiscoveryState :=
  if s.Admits listing then
    some ⟨registry, listing.foldl (note s.era) s.seen, s.era, listing⟩
  else none

/-- One step. -/
def step (s : DiscoveryState) (a : DiscoveryAction) : Option DiscoveryState :=
  match a with
  | .consul catalog => s.round a.listing (s.registry.discoverConsul catalog)
  | .dns lookup => s.round a.listing (s.registry.discoverDns lookup)
  | .restart =>
      some ⟨(s.registry.storage.map .withStorage).getD .new, s.seen, s.era + 1, []⟩

/-- Every sequence of rounds and restarts. -/
def machine : Machine DiscoveryState DiscoveryAction := ⟨step⟩

/-- The first instance of a service is the one with which it was discovered. -/
def SameFirst (s : DiscoveryState) (svc : Listed) : Prop :=
  ∀ found ∈ s.seen.lookup svc.serviceName, found.urls.head? = svc.urls.head?

/-- For every service of the last round that has an instance, and the same first instance as when it
was discovered, the registry has a service with its prefix, and the upstreams of that service are
the URLs of the instances. -/
def Converged (s : DiscoveryState) : Prop :=
  ∀ svc ∈ s.listed, s.SameFirst svc →
    ∃ entry ∈ s.registry.services.values,
      entry.pathPrefix = ServiceEntry.normalizePrefix svc.pathPrefix ∧
        ∀ url, url ∈ entry.allUpstreams ↔ url ∈ svc.urls

/-- A service that was discovered before, and has the same first instance, has exactly the instances
that are left of it. -/
def Steady (s : DiscoveryState) (svc : Listed) : Prop :=
  ∀ found ∈ s.seen.lookup svc.serviceName, found.urls.head? = svc.urls.head? →
    ∀ url, url ∈ found.left s.era ↔ url ∈ svc.urls

instance (s : DiscoveryState) (svc : Listed) : Decidable (s.Steady svc) :=
  decidable_of_iff (∀ found ∈ s.seen.lookup svc.serviceName,
    found.urls.head? = svc.urls.head? →
      found.left s.era ⊆ svc.urls ∧ svc.urls ⊆ found.left s.era) <| by
    unfold Steady
    simp only [List.subset_def, ← forall_and, iff_iff_implies_and_implies]

/-- The steps that find steady services only. -/
def KeepsConverged (s : DiscoveryState) (a : DiscoveryAction) : Prop :=
  ∀ svc ∈ a.listing, s.Steady svc

instance (s : DiscoveryState) (a : DiscoveryAction) : Decidable (s.KeepsConverged a) :=
  inferInstanceAs (Decidable (∀ svc ∈ a.listing, s.Steady svc))

end DiscoveryState

/-- An entry without its extra upstreams. -/
def ServiceEntry.bare (entry : ServiceEntry) : ServiceEntry := { entry with upstreams := [] }

/-- Entries that differ only in their extra upstreams have the same prefix. -/
theorem ServiceEntry.pathPrefix_eq_of_bare {entry entry' : ServiceEntry}
    (h : entry.bare = entry'.bare) : entry.pathPrefix = entry'.pathPrefix := by
  have hpath := congrArg ServiceEntry.pathPrefix h
  exact hpath

namespace Listed

/-- The entry of a service that was discovered. -/
def entry (svc : Listed) : ServiceEntry :=
  { ServiceEntry.new svc.id svc.now svc.serviceName svc.pathPrefix (svc.urls.headD "")
      "/health" with
    upstreams := svc.urls.tail }

/-- The prefix of a listed service is not empty. -/
theorem pathPrefix_ne_empty (svc : Listed) : svc.pathPrefix ≠ "" := by
  intro h
  have htoList := congrArg String.toList h
  simp [pathPrefix, String.toList_append] at htoList

end Listed

/-- The URL of an instance ends with a digit, so that nothing is trimmed from it. -/
theorem trimEndMatches_instanceUrl (host : String) (port : ℕ) :
    Text.trimEndMatches (instanceUrl host port) '/' = instanceUrl host port := by
  have hdigit : ∀ c ∈ Nat.toDigits 10 port, c ≠ '/' := by
    rintro c hc rfl
    exact absurd (Nat.isDigit_of_mem_toDigits (by decide) (by decide) hc) (by decide)
  have hkept : Text.trimEndMatches (String.ofList (Nat.toDigits 10 port)) '/' =
      String.ofList (Nat.toDigits 10 port) := by
    rw [Text.trimEndMatches, String.toList_ofList, List.rdropWhile_eq_self_iff.mpr]
    intro hne hlast
    exact hdigit _ (List.getLast_mem hne) (of_decide_eq_true hlast)
  unfold instanceUrl
  rw [Text.trimEndMatches_append, hkept]
  cases hdigits : Nat.toDigits 10 port with
  | nil => exact absurd hdigits Nat.toDigits_ne_nil
  | cons c cs =>
      refine ⟨c, ?_, hdigit c (by rw [hdigits]; exact List.mem_cons_self)⟩
      rw [String.toList_ofList]
      exact List.mem_cons_self

namespace Listed

/-- The main upstream of a discovered service is the URL of its first instance. -/
theorem head?_urls {svc : Listed} (hurls : svc.urls ≠ []) :
    svc.urls.head? = some svc.entry.upstream := by
  show svc.urls.head? = some (Text.trimEndMatches (svc.urls.headD "") '/')
  unfold urls at hurls ⊢
  cases hinstances : svc.instances with
  | nil => exact absurd (by rw [hinstances]; rfl) hurls
  | cons i is => exact congrArg some (trimEndMatches_instanceUrl i.1 i.2).symm

/-- The upstreams of a discovered service are the URLs of its instances. -/
theorem mem_allUpstreams_entry {svc : Listed} (hurls : svc.urls ≠ []) (url : String) :
    url ∈ svc.entry.allUpstreams ↔ url ∈ svc.urls := by
  have hhead := head?_urls hurls
  rw [ServiceEntry.mem_allUpstreams]
  show url = svc.entry.upstream ∨ url ∈ svc.urls.tail ↔ url ∈ svc.urls
  cases hlist : svc.urls with
  | nil => exact absurd hlist hurls
  | cons first rest =>
      rw [hlist, List.head?_cons] at hhead
      rw [← Option.some.inj hhead, List.tail_cons, List.mem_cons]

end Listed

namespace ServiceRegistry

variable {r r₀ : ServiceRegistry} {svc : Listed}

/-- Whether the prefix of a listed service is registered. -/
theorem isSome_findByPrefix_listed :
    (r.findByPrefix svc.pathPrefix).isSome ↔
      ∃ entry ∈ r.services.values,
        entry.pathPrefix = ServiceEntry.normalizePrefix svc.pathPrefix := by
  rw [findByPrefix_eq svc.pathPrefix_ne_empty, List.find?_isSome]
  simp only [decide_eq_true_eq]

/-- A service whose prefix is registered is left alone. -/
theorem discoverService_of_isSome (hfound : (r.findByPrefix svc.pathPrefix).isSome) :
    r.discoverService svc = r := by
  unfold discoverService
  split
  next => rfl
  next => rw [if_neg (Option.isNone_eq_false_iff.mpr hfound |> ne_true_of_eq_false)]

/-- A service whose prefix is free gets an entry with all its upstreams in memory, and a row with
the first one in the database. -/
theorem discoverService_of_none (hurls : svc.urls ≠ [])
    (hfree : r.findByPrefix svc.pathPrefix = none) :
    (r.discoverService svc).storage = (r.insertEntry svc.entry.bare).storage ∧
      ∀ id, (r.discoverService svc).services.lookup id =
        if id = svc.id then some svc.entry else r.services.lookup id := by
  have hreplace : r.replaceExisting svc.pathPrefix = r := by
    unfold replaceExisting
    rw [hfree]
  have hbare : svc.entry.bare = ServiceEntry.new svc.id svc.now svc.serviceName svc.pathPrefix
      (svc.urls.headD "") "/health" := rfl
  cases hlist : svc.urls with
  | nil => exact absurd hlist hurls
  | cons upstream others =>
      rw [hlist, List.headD_cons] at hbare
      unfold discoverService
      simp only [hlist, hfree, Option.isNone_none, if_true, register, hreplace, ← hbare]
      split
      next hothers =>
        have hentry : svc.entry = svc.entry.bare := by
          unfold Listed.entry ServiceEntry.bare
          rw [hlist, hothers]
          rfl
        refine ⟨rfl, fun id => ?_⟩
        rw [hentry, insertEntry, DashMap.lookup_insert, services_persist]
        rfl
      next =>
        refine ⟨rfl, fun id => ?_⟩
        have hentry : { svc.entry.bare with upstreams := others } = svc.entry := by
          unfold Listed.entry ServiceEntry.bare
          rw [hlist]
          rfl
        simp only [setUpstreams, insertEntry, DashMap.lookup_modify, DashMap.lookup_insert,
          services_persist, if_true, Option.map_some, hentry]
        show (if id = svc.id then _ else if id = svc.id then _ else _) = _
        split
        next => rfl
        next => rfl

/-- The entries of other ids are as before. -/
theorem lookup_discoverService_of_ne {id : Uuid} (hid : id ≠ svc.id) :
    (r.discoverService svc).services.lookup id = r.services.lookup id := by
  cases hfind : r.findByPrefix svc.pathPrefix with
  | some existing => rw [discoverService_of_isSome (by rw [hfind]; rfl)]
  | none =>
      by_cases hurls : svc.urls = []
      · unfold discoverService
        rw [hurls]
      · rw [(discoverService_of_none hurls hfind).2, if_neg hid]

/-- An entry that a service has added has the prefix of the service. -/
theorem mem_values_discoverService {entry : ServiceEntry} (hurls : svc.urls ≠ [])
    (hmem : entry ∈ (r.discoverService svc).services.values) :
    entry ∈ r.services.values ∨
      entry.pathPrefix = ServiceEntry.normalizePrefix svc.pathPrefix := by
  cases hfind : r.findByPrefix svc.pathPrefix with
  | some existing =>
      rw [discoverService_of_isSome (by rw [hfind]; rfl)] at hmem
      exact .inl hmem
  | none =>
      obtain ⟨id, hentry⟩ := (DashMap.mem_values_iff _ _).mp hmem
      rw [(discoverService_of_none hurls hfind).2] at hentry
      split at hentry
      next =>
        cases hentry
        exact .inr rfl
      next => exact .inl ((DashMap.mem_values_iff _ _).mpr ⟨id, hentry⟩)

/-- A service that was discovered is in memory with what is left of its upstreams, and in the
database with the first. -/
def Holds (r r₀ : ServiceRegistry) (era : ℕ) (serviceName : String) (found : Discovered) : Prop :=
  ∃ id entry, r.services.lookup id = some entry ∧ r₀.services.lookup id = some entry.bare ∧
    entry.pathPrefix = ServiceEntry.normalizePrefix ("/" ++ serviceName) ∧
      found.urls.head? = some entry.upstream ∧
        ∀ url, url ∈ entry.allUpstreams ↔ url ∈ found.left era

/-- The registry differs from what is stored only in extra upstreams, and holds every service that
was discovered. `r₀` is the registry that a restart would load. -/
structure Agrees (era : ℕ) (r r₀ : ServiceRegistry) (seen : DashMap String Discovered) :
    Prop where
  mirrored : ∃ db, r₀.Mirrored db
  storage : r.storage = r₀.storage
  alike : ∀ id, (r.services.lookup id).map ServiceEntry.bare =
    (r₀.services.lookup id).map ServiceEntry.bare
  recorded : ∀ serviceName found, seen.lookup serviceName = some found →
    found.era ≤ era ∧ r.Holds r₀ era serviceName found

variable {era : ℕ} {seen : DashMap String Discovered}

/-- The ids in memory are those that are stored. -/
theorem Agrees.lookup_eq_none_iff (h : Agrees era r r₀ seen) {id : Uuid} :
    r₀.services.lookup id = none ↔ r.services.lookup id = none := by
  rw [← Option.map_eq_none_iff, ← h.alike id, Option.map_eq_none_iff]

/-- A stored entry is in memory, up to its extra upstreams. -/
theorem Agrees.exists_lookup (h : Agrees era r r₀ seen) {id : Uuid} {e₀ : ServiceEntry}
    (he₀ : r₀.services.lookup id = some e₀) :
    ∃ e, r.services.lookup id = some e ∧ e.bare = e₀.bare := by
  have halike := h.alike id
  rw [he₀] at halike
  exact Option.map_eq_some_iff.mp halike

/-- An entry in memory is stored, up to its extra upstreams. -/
theorem Agrees.exists_stored (h : Agrees era r r₀ seen) {id : Uuid} {e : ServiceEntry}
    (he : r.services.lookup id = some e) :
    ∃ e₀, r₀.services.lookup id = some e₀ ∧ e₀.bare = e.bare := by
  have halike := h.alike id
  rw [he] at halike
  exact Option.map_eq_some_iff.mp halike.symm

/-- No two entries in memory share a prefix. -/
theorem Agrees.eq_of_pathPrefix (h : Agrees era r r₀ seen) {e e' : ServiceEntry}
    (he : e ∈ r.services.values) (he' : e' ∈ r.services.values)
    (hpath : e.pathPrefix = e'.pathPrefix) : e = e' := by
  obtain ⟨id, hid⟩ := (DashMap.mem_values_iff _ _).mp he
  obtain ⟨id', hid'⟩ := (DashMap.mem_values_iff _ _).mp he'
  obtain ⟨e₀, hid₀, hbare⟩ := h.exists_stored hid
  obtain ⟨e₀', hid₀', hbare'⟩ := h.exists_stored hid'
  obtain ⟨db, hmirrored⟩ := h.mirrored
  have hpath₀ : e₀.pathPrefix = e₀'.pathPrefix :=
    calc e₀.pathPrefix = e.pathPrefix := ServiceEntry.pathPrefix_eq_of_bare hbare
      _ = e'.pathPrefix := hpath
      _ = e₀'.pathPrefix := (ServiceEntry.pathPrefix_eq_of_bare hbare').symm
  have hsame := hmirrored.eq_of_pathPrefix hid₀ hid₀' hpath₀
  subst hsame
  exact Option.some.inj (hid.symm.trans hid')

/-- A service that was discovered is found by its prefix. -/
theorem Agrees.isSome_findByPrefix (h : Agrees era r r₀ seen) {found : Discovered}
    (hfound : seen.lookup svc.serviceName = some found) :
    (r.findByPrefix svc.pathPrefix).isSome := by
  obtain ⟨-, id, entry, hentry, -, hpath, -⟩ := h.recorded _ _ hfound
  exact isSome_findByPrefix_listed.mpr
    ⟨entry, (DashMap.mem_values_iff _ _).mpr ⟨id, hentry⟩, hpath⟩

/-- Nothing changes for a service of another id. -/
theorem Holds.of_lookup {r' r₀' : ServiceRegistry} {serviceName : String} {found : Discovered}
    (h : r.Holds r₀ era serviceName found) {id : Uuid} (hid : r.services.lookup id = none)
    (hr : ∀ id', id' ≠ id → r'.services.lookup id' = r.services.lookup id')
    (hr₀ : ∀ id', id' ≠ id → r₀'.services.lookup id' = r₀.services.lookup id') :
    r'.Holds r₀' era serviceName found := by
  obtain ⟨id', entry, hentry, hentry₀, hrest⟩ := h
  have hne : id' ≠ id := by
    rintro rfl
    rw [hid] at hentry
    cases hentry
  exact ⟨id', entry, (hr id' hne).trans hentry, (hr₀ id' hne).trans hentry₀, hrest⟩

/-- A round keeps the agreement with every service it looks at. -/
theorem Agrees.discoverService (h : Agrees era r r₀ seen) (hurls : svc.urls ≠ [])
    (hnew : r.services.lookup svc.id = none)
    (hforeign : (r.findByPrefix svc.pathPrefix).isSome →
      (seen.lookup svc.serviceName).isSome) :
    ∃ r₀', Agrees era (r.discoverService svc) r₀' (DiscoveryState.note era seen svc) := by
  unfold DiscoveryState.note
  cases hfind : r.findByPrefix svc.pathPrefix with
  | some existing =>
      have hsome : (r.findByPrefix svc.pathPrefix).isSome := by
        rw [hfind]
        rfl
      rw [discoverService_of_isSome hsome, if_pos (hforeign hsome)]
      exact ⟨r₀, h⟩
  | none =>
      -- A service that was discovered would be found by its prefix.
      have hunseen : seen.lookup svc.serviceName = none := by
        by_contra hseen
        obtain ⟨found, hfound⟩ := Option.ne_none_iff_exists'.mp hseen
        have hsome := h.isSome_findByPrefix hfound
        rw [hfind] at hsome
        cases hsome
      obtain ⟨hstorage, hlookup⟩ := discoverService_of_none hurls hfind
      obtain ⟨db, hmirrored⟩ := h.mirrored
      -- The search was in memory, and an entry that is stored has the prefix of the one in memory.
      have hpath : ∀ id e, r₀.services.lookup id = some e →
          e.pathPrefix ≠ svc.entry.bare.pathPrefix := by
        intro id e₀ he₀
        obtain ⟨e, he, hbare⟩ := h.exists_lookup he₀
        have hne := pathPrefix_ne_of_findByPrefix_none
          (fun hempty => absurd hempty svc.pathPrefix_ne_empty) hfind he
        exact fun heq => hne ((ServiceEntry.pathPrefix_eq_of_bare hbare).trans heq)
      have hmirrored' := hmirrored.insertEntry (h.lookup_eq_none_iff.mpr hnew) hpath
      have hlookup₀ : ∀ id, (r₀.insertEntry svc.entry.bare).services.lookup id =
          if id = svc.id then some svc.entry.bare else r₀.services.lookup id :=
        fun id => DashMap.lookup_insert _ _ _ _
      rw [hunseen, Option.isSome_none, if_neg Bool.false_ne_true]
      refine ⟨r₀.insertEntry svc.entry.bare, ⟨_, hmirrored'⟩, ?_, fun id => ?_, ?_⟩
      · rw [hstorage]
        show r.storage.map _ = r₀.storage.map _
        rw [h.storage]
      · rw [hlookup, hlookup₀]
        split
        next => rfl
        next => exact h.alike id
      · intro serviceName found hfound
        rcases DashMap.lookup_insert_cases hfound with ⟨rfl, rfl⟩ | ⟨-, hold⟩
        · refine ⟨le_refl era, svc.id, svc.entry, ?_, ?_, rfl, svc.head?_urls hurls, fun url => ?_⟩
          · rw [hlookup, if_pos rfl]
          · rw [hlookup₀, if_pos rfl]
          · rw [Discovered.left, if_pos rfl]
            exact svc.mem_allUpstreams_entry hurls url
        · obtain ⟨hera, hholds⟩ := h.recorded _ _ hold
          refine ⟨hera, hholds.of_lookup hnew (fun id hid => ?_) fun id hid => ?_⟩
          · rw [hlookup, if_neg hid]
          · rw [hlookup₀, if_neg hid]

/-- What is recorded of a service stays as it is. -/
theorem lookup_note {serviceName : String} {found : Discovered} (svc : Listed)
    (hfound : seen.lookup serviceName = some found) :
    (DiscoveryState.note era seen svc).lookup serviceName = some found := by
  unfold DiscoveryState.note
  split
  next => exact hfound
  next hunseen =>
    rw [DashMap.lookup_insert, if_neg, hfound]
    rintro rfl
    exact hunseen (by rw [hfound]; rfl)

/-- What is recorded after a round: as before, or as the round has found the service. -/
theorem lookup_foldl_note (listing : List Listed) (seen : DashMap String Discovered)
    (hnames : (listing.map (·.serviceName)).Nodup) :
    (∀ serviceName found, seen.lookup serviceName = some found →
      (listing.foldl (DiscoveryState.note era) seen).lookup serviceName = some found) ∧
      ∀ svc ∈ listing, (listing.foldl (DiscoveryState.note era) seen).lookup svc.serviceName =
        some ((seen.lookup svc.serviceName).getD ⟨svc.urls, era⟩) := by
  induction listing generalizing seen with
  | nil => exact ⟨fun _ _ h => h, fun _ h => absurd h List.not_mem_nil⟩
  | cons svc listing ih =>
      rw [List.map_cons, List.nodup_cons] at hnames
      obtain ⟨hkept, hnoted⟩ := ih (DiscoveryState.note era seen svc) hnames.2
      refine ⟨fun name found hfound => hkept name found (lookup_note svc hfound), ?_⟩
      intro svc' hmem
      rw [List.foldl_cons]
      rcases List.mem_cons.mp hmem with rfl | hmem
      -- No later service has its name, so what was noted of it stays.
      · apply hkept
        cases hseen : seen.lookup svc'.serviceName with
        | some found => exact lookup_note svc' hseen
        | none =>
            unfold DiscoveryState.note
            rw [hseen, Option.isSome_none, if_neg Bool.false_ne_true, DashMap.lookup_insert,
              if_pos rfl]
            rfl
      · rw [hnoted svc' hmem]
        have hne : svc'.serviceName ≠ svc.serviceName := fun heq =>
          hnames.1 (heq ▸ List.mem_map_of_mem hmem)
        congr 2
        unfold DiscoveryState.note
        split
        next => rfl
        next => rw [DashMap.lookup_insert, if_neg hne]

/-- A round over a whole listing keeps the agreement. -/
theorem Agrees.foldl_discoverService {listing : List Listed} (h : Agrees era r r₀ seen)
    (hurls : ∀ svc ∈ listing, svc.urls ≠ []) (hids : (listing.map (·.id)).Nodup)
    (hnew : ∀ svc ∈ listing, r.services.lookup svc.id = none)
    (hprefixes :
      (listing.map fun svc => ServiceEntry.normalizePrefix svc.pathPrefix).Nodup)
    (hforeign : ∀ svc ∈ listing, (r.findByPrefix svc.pathPrefix).isSome →
      (seen.lookup svc.serviceName).isSome) :
    ∃ r₀', Agrees era (listing.foldl ServiceRegistry.discoverService r) r₀'
      (listing.foldl (DiscoveryState.note era) seen) := by
  induction listing generalizing r r₀ seen with
  | nil => exact ⟨r₀, h⟩
  | cons svc listing ih =>
      rw [List.map_cons, List.nodup_cons] at hids hprefixes
      rw [List.forall_mem_cons] at hurls hnew hforeign
      obtain ⟨r₁, hagrees⟩ := h.discoverService hurls.1 hnew.1 hforeign.1
      refine ih hagrees hurls.2 hids.2 (fun svc' hmem => ?_) hprefixes.2 fun svc' hmem hfound => ?_
      · rw [lookup_discoverService_of_ne, hnew.2 svc' hmem]
        exact fun heq => hids.1 (heq ▸ List.mem_map_of_mem hmem)
      -- The service before it has another prefix, so who was found was there before.
      · obtain ⟨entry, hentry, hpath⟩ := isSome_findByPrefix_listed.mp hfound
        rcases mem_values_discoverService hurls.1 hentry with hold | hsame
        · obtain ⟨found, hseen⟩ := Option.isSome_iff_exists.mp
            (hforeign.2 svc' hmem (isSome_findByPrefix_listed.mpr ⟨entry, hold, hpath⟩))
          rw [lookup_note svc hseen]
          rfl
        · exact (hprefixes.1 (List.mem_map.mpr ⟨svc', hmem, hpath.symm.trans hsame⟩)).elim

/-- A restart leaves of every service the first upstream. -/
theorem Agrees.restart (h : Agrees era r r₀ seen) :
    ∃ db, r.storage = some db ∧
      Agrees (era + 1) (.withStorage db) (.withStorage db) seen := by
  obtain ⟨db, hmirrored⟩ := h.mirrored
  have hreload := mirrored_withStorage hmirrored.unique
  refine ⟨db, h.storage.trans hmirrored.storage, ⟨db, hreload⟩, rfl, fun _ => rfl, ?_⟩
  intro serviceName found hfound
  obtain ⟨hera, id, entry, -, hentry₀, hpath, hfirst, -⟩ := h.recorded _ _ hfound
  obtain ⟨loaded, hloaded, hrow⟩ :=
    (hreload.rows entry.bare.toRow).mp (hmirrored.toRow_mem hentry₀)
  have hid : entry.bare.toRow.id = id := hmirrored.ids id entry.bare hentry₀
  rw [hid] at hloaded
  injection hrow with _ _ hpath' hupstream _ hextra
  -- A row has no column for the extra upstreams.
  have hextra : loaded.upstreams = [] := hextra
  have hbare : loaded.bare = loaded := by
    unfold ServiceEntry.bare
    rw [← hextra]
  refine ⟨hera.trans (Nat.le_succ era), id, loaded, hloaded, by rw [hbare, hloaded],
    hpath'.trans hpath, hfirst.trans (congrArg some hupstream.symm), fun url => ?_⟩
  have hleft : found.left (era + 1) = [loaded.upstream] := by
    obtain ⟨rest, hurls⟩ := List.head?_eq_some_iff.mp hfirst
    unfold Discovered.left
    rw [if_neg (by omega), hurls, hupstream]
    rfl
  rw [hleft, ServiceEntry.mem_allUpstreams, hextra, List.mem_singleton]
  show url = loaded.upstream ∨ url ∈ [] ↔ url = loaded.upstream
  simp only [List.not_mem_nil, or_false]

end ServiceRegistry

namespace DiscoveryState

/-- Memory and database agree on every service that was discovered. -/
def Inv (s : DiscoveryState) : Prop :=
  ∃ r₀, ServiceRegistry.Agrees s.era s.registry r₀ s.seen

/-- The services that a round lists have instances. -/
theorem urls_ne_nil_of_mem_listing {a : DiscoveryAction} {svc : Listed} (h : svc ∈ a.listing) :
    svc.urls ≠ [] := by
  cases a with
  | consul catalog => exact of_decide_eq_true (List.mem_filter.mp h).2
  | dns lookup => exact of_decide_eq_true (List.mem_filter.mp h).2
  | restart => exact absurd h List.not_mem_nil

/-- A step is a round over its listing, or a restart. -/
theorem step_cases {s s' : DiscoveryState} {a : DiscoveryAction} (h : s.step a = some s') :
    s.Admits a.listing ∧
        s' = ⟨a.listing.foldl ServiceRegistry.discoverService s.registry,
          a.listing.foldl (note s.era) s.seen, s.era, a.listing⟩ ∨
      a = .restart ∧
        s' = ⟨(s.registry.storage.map .withStorage).getD .new, s.seen, s.era + 1, []⟩ := by
  -- A listing has no services without instances, which the code meets and skips.
  have hskip : ∀ (r : ServiceRegistry) (svc : Listed),
      (if decide (svc.urls ≠ []) = true then r.discoverService svc else r) =
        r.discoverService svc := by
    intro r svc
    by_cases hurls : svc.urls = []
    · unfold ServiceRegistry.discoverService
      simp [hurls]
    · simp [hurls]
  have hround : ∀ {listing : List Listed} {registry : ServiceRegistry},
      s.round listing registry = some s' →
        s.Admits listing ∧ s' = ⟨registry, listing.foldl (note s.era) s.seen, s.era, listing⟩ := by
    intro listing registry h
    unfold round at h
    split at h
    next hadmits => exact ⟨hadmits, (Option.some.inj h).symm⟩
    next => cases h
  cases a with
  | consul catalog =>
      obtain ⟨hadmits, hs'⟩ := hround h
      refine .inl ⟨hadmits, hs'.trans ?_⟩
      congr 1
      unfold ServiceRegistry.discoverConsul DiscoveryAction.listing
      rw [List.foldl_filter, List.foldl_map, List.foldl_filter]
      simp only [hskip]
      congr 1
      funext r svc
      by_cases hconsul : svc.serviceName = "consul"
      · simp [hconsul]
      · simp [hconsul]
  | dns lookup =>
      obtain ⟨hadmits, hs'⟩ := hround h
      refine .inl ⟨hadmits, hs'.trans ?_⟩
      congr 1
      unfold ServiceRegistry.discoverDns DiscoveryAction.listing
      rw [List.foldl_filter, List.foldl_cons, hskip, List.foldl_nil]
  | restart => exact .inr ⟨rfl, (Option.some.inj h).symm⟩

/-- A step keeps the invariant. -/
theorem inv_step {s s' : DiscoveryState} {a : DiscoveryAction} (hs : s.Inv)
    (h : s.step a = some s') : s'.Inv := by
  obtain ⟨r₀, hagrees⟩ := hs
  rcases step_cases h with ⟨hadmits, rfl⟩ | ⟨-, rfl⟩
  · exact hagrees.foldl_discoverService (fun _ hmem => urls_ne_nil_of_mem_listing hmem)
      hadmits.ids hadmits.fresh hadmits.prefixes hadmits.foreign
  · obtain ⟨db, hstorage, hreload⟩ := hagrees.restart
    rw [hstorage]
    exact ⟨.withStorage db, hreload⟩

/-- After a round the registry is that of the catalog exactly if the round has found steady services
only. -/
theorem converged_step_iff {s s' : DiscoveryState} {a : DiscoveryAction} (hs : s.Inv)
    (h : s.step a = some s') : s'.Converged ↔ s.KeepsConverged a := by
  obtain ⟨r₀, hagrees⟩ := inv_step hs h
  rcases step_cases h with ⟨hadmits, rfl⟩ | ⟨rfl, rfl⟩
  · have hnames : (a.listing.map (·.serviceName)).Nodup := by
      have hprefixes := hadmits.prefixes
      rw [show (fun svc : Listed => ServiceEntry.normalizePrefix svc.pathPrefix) =
        (fun name => ServiceEntry.normalizePrefix ("/" ++ name)) ∘ (·.serviceName) from rfl,
        ← List.map_map] at hprefixes
      exact hprefixes.of_map _
    obtain ⟨hkept, hnoted⟩ :=
      @ServiceRegistry.lookup_foldl_note s.era a.listing s.seen hnames
    -- What the registry has for a listed service.
    have hentry : ∀ svc ∈ a.listing, ∀ found,
        (a.listing.foldl (note s.era) s.seen).lookup svc.serviceName = some found →
          ∃ entry ∈ (a.listing.foldl ServiceRegistry.discoverService s.registry).services.values,
            entry.pathPrefix = ServiceEntry.normalizePrefix svc.pathPrefix ∧
              ∀ url, url ∈ entry.allUpstreams ↔ url ∈ found.left s.era := by
      intro svc _ found hfound
      obtain ⟨-, id, entry, hentry, -, hpath, -, hmem⟩ := hagrees.recorded _ _ hfound
      exact ⟨entry, (DashMap.mem_values_iff _ _).mpr ⟨id, hentry⟩, hpath, hmem⟩
    constructor
    · intro hconverged svc hmem found hfound hfirst
      have hfound' := hkept _ _ (Option.mem_def.mp hfound)
      obtain ⟨entry, hmemEntry, hpath, hleft⟩ := hentry svc hmem found hfound'
      have hsame : SameFirst ⟨a.listing.foldl ServiceRegistry.discoverService s.registry,
          a.listing.foldl (note s.era) s.seen, s.era, a.listing⟩ svc := by
        intro found' hfound''
        cases hfound'.symm.trans hfound''
        exact hfirst
      obtain ⟨entry', hmemEntry', hpath', hurls⟩ := hconverged svc hmem hsame
      cases hagrees.eq_of_pathPrefix hmemEntry hmemEntry' (hpath.trans hpath'.symm)
      intro url
      rw [← hleft, hurls]
    · intro hsteady svc hmem hsame
      have hfound := hnoted svc hmem
      obtain ⟨entry, hmemEntry, hpath, hleft⟩ := hentry svc hmem _ hfound
      refine ⟨entry, hmemEntry, hpath, fun url => ?_⟩
      rw [hleft]
      -- A new service is noted as it is listed; an old one is steady.
      cases hseen : s.seen.lookup svc.serviceName with
      | none =>
          rw [Option.getD_none, Discovered.left, if_pos rfl]
      | some found =>
          rw [hseen] at hfound
          exact hsteady svc hmem found hseen (hsame found hfound) url
  -- A restart lists nothing.
  · exact ⟨fun _ svc hmem => absurd hmem List.not_mem_nil,
      fun _ svc hmem => absurd hmem List.not_mem_nil⟩

/-- Throughout a run of rounds and restarts the registry has after every round the upstreams that
the catalog lists, exactly if every service that is found again is listed with the same instances,
or after a restart with the first of them alone. -/
theorem converged_throughout_iff {db : SqliteStorage} (hunique : db.Unique)
    {as : List DiscoveryAction} {s : DiscoveryState}
    (hrun : machine.Runs Machine.unrestricted (initial db) as s) :
    machine.Throughout Converged (initial db) as ↔
      machine.Runs KeepsConverged (initial db) as s := by
  have hinitial : (initial db).Inv := ⟨.withStorage db,
    ⟨db, ServiceRegistry.mirrored_withStorage hunique⟩, rfl, fun _ => rfl,
    fun _ _ hfound => nomatch hfound⟩
  refine hrun.throughout_iff (I := fun s => s.Inv ∧ s.Converged) (fun _ hs => hs.2) ?_ ?_
    ⟨hinitial, fun svc hmem => absurd hmem List.not_mem_nil⟩
  · intro s a t hs hok h
    exact ⟨inv_step hs.1 h, (converged_step_iff hs.1 h).mpr hok⟩
  · intro s a t hs hbad h hconverged
    exact hbad ((converged_step_iff hs.1 h).mp hconverged)

/-- A round that finds a service with two instances. -/
def twoInstances (id : Uuid) : DiscoveryAction :=
  .consul [⟨id, 0, "api", [⟨"10.0.0.1", 80⟩, ⟨"10.0.0.2", 80⟩]⟩]

/-- A round that finds a service with one. -/
def oneInstance (id : Uuid) : DiscoveryAction :=
  .dns ⟨id, 0, "_web._tcp.example.com", [("a.example.com.", 80)]⟩

/-- Before a restart both services stay as they are listed, and after it the one with a single
instance does. -/
theorem converged_throughout_instances :
    machine.Throughout Converged (initial .empty)
      [twoInstances 1, oneInstance 2, twoInstances 3, .restart, oneInstance 4] := by
  obtain ⟨s, hs⟩ : ∃ s, machine.exec KeepsConverged (initial .empty)
      [twoInstances 1, oneInstance 2, twoInstances 3, .restart, oneInstance 4] = some s :=
    Option.isSome_iff_exists.mp (by decide)
  have hrun := Machine.runs_of_exec hs
  have hunique : SqliteStorage.empty.Unique := ⟨List.nodup_nil, List.nodup_nil⟩
  exact (converged_throughout_iff hunique (hrun.mono fun _ _ _ => trivial)).mpr hrun

/-- After a restart, the service with two instances has the first of them alone. -/
theorem instances_lost :
    ¬ ∀ (db : SqliteStorage) (as : List DiscoveryAction) (s : DiscoveryState), db.Unique →
      machine.Runs Machine.unrestricted (initial db) as s → s.Converged := by
  intro hall
  have hend : ∃ s, machine.exec Machine.unrestricted (initial .empty)
      [twoInstances 1, .restart, twoInstances 2] = some s ∧
        ∃ svc ∈ s.listed, s.SameFirst svc ∧ "http://10.0.0.2:80" ∈ svc.urls ∧
          ∀ entry ∈ s.registry.services.values, "http://10.0.0.2:80" ∉ entry.allUpstreams := by
    refine ⟨_, rfl, ⟨2, 0, "api", [("10.0.0.1", 80), ("10.0.0.2", 80)]⟩, ?_, ?_, ?_, ?_⟩
    · decide
    · intro found hfound
      cases hfound
      rfl
    · decide
    · decide
  obtain ⟨s, hs, svc, hmem, hsame, hurl, hlost⟩ := hend
  have hconverged := hall .empty _ s ⟨List.nodup_nil, List.nodup_nil⟩ (Machine.runs_of_exec hs)
  obtain ⟨entry, hentry, -, hurls⟩ := hconverged svc hmem hsame
  exact hlost entry hentry ((hurls _).mpr hurl)

end DiscoveryState

end XiraNet

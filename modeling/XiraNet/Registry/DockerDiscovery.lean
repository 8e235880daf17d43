import XiraNet.Config.Runtime
import XiraNet.Registry.Discovery
import XiraNet.Registry.Prefixes

/-!
# Docker discovery

The rounds of `spawn_docker_discovery` (`bootstrap/state.rs`) over the containers that
`DockerDiscovery::discover` (`discovery/mesh.rs`) reads, among the other calls of the registry. A
container whose prefix is registered is left alone, and one whose prefix is free is registered; the
search for the prefix and the registration are one step here. The answer of Docker is an input.

`ServiceDirectory` says what the registry is for: it has one service for a prefix, and an
announcement gets a prefix only if it is free.

* `DockerState.refines_throughout_iff`: when the registry answers as the directory does.
* `DockerState.firstAnnouncement_of_runs`: whatever the containers announce later, the first
  announcement of a prefix counts.
-/

namespace XiraNet

/-- `DiscoveredService`. -/
structure DiscoveredService where
  name : String
  pathPrefix : String
  upstream : String
  healthEndpoint : String
  deriving DecidableEq, Repr

/-- `Value::as_object`. -/
def Json.asObject : Json → Option (List (String × Json))
  | .object fields => some fields
  | _ => none

namespace DiscoveredService

/-- What a container announces with its labels. Its networks stand in the order of their names, and
the address in the first one counts. -/
def ofContainer (c : Json) : Option DiscoveredService := do
  let labels ← (← c.get "Labels").asObject
  let name ← (← labels.lookup "xiranet.service.name").asStr
  let pathPrefix ← (← labels.lookup "xiranet.service.prefix").asStr
  let port ← (← labels.lookup "xiranet.service.port").asStr
  let port ← Text.parseUnsigned (2 ^ 16 - 1) port.toList
  let networks ← (← (← c.get "NetworkSettings").get "Networks").asObject
  let ip ← (← (← networks.head?).2.get "IPAddress").asStr
  return {
    name
    pathPrefix
    upstream := instanceUrl ip port
    healthEndpoint := ((labels.lookup "xiranet.service.health").bind Json.asStr).getD "/health" }

/-- `discover`, on the containers of the answer, if there was one. -/
def discover (answer : Option (List Json)) : List DiscoveredService :=
  (answer.getD []).filterMap ofContainer

/-- A service with nothing but what a container announces. -/
def config (svc : DiscoveredService) : ServiceConfig where
  name := svc.name
  pathPrefix := svc.pathPrefix
  upstream := svc.upstream
  healthEndpoint := svc.healthEndpoint
  upstreams := []
  loadBalance := none
  version := none
  transform := none
  validationSchema := none
  ipWhitelist := []
  ipBlacklist := []

end DiscoveredService

/-- An iteration of a round, with the id and the time that the registration would draw. -/
def ServiceRegistry.discoverContainer (r : ServiceRegistry) (id : Uuid) (now : DateTime)
    (svc : DiscoveredService) : ServiceRegistry :=
  if (r.findByPrefix svc.pathPrefix).isNone then
    (r.register id now svc.name svc.pathPrefix svc.upstream svc.healthEndpoint).2
  else r

/-- The iteration does what `load_from_config` does with such a service. -/
theorem ServiceRegistry.discoverContainer_eq (r : ServiceRegistry) (id : Uuid) (now : DateTime)
    (svc : DiscoveredService) :
    r.discoverContainer id now svc = r.loadEntry id now svc.config := by
  unfold discoverContainer loadEntry
  cases hfind : r.findByPrefix svc.pathPrefix with
  | some entry => simp [DiscoveredService.config, hfind]
  | none =>
      -- `register` looks for a service to replace once more, and finds none.
      simp only [DiscoveredService.config, hfind, register, replaceExisting]
      rfl

/-- What a directory tells of a service. -/
structure DirectoryEntry where
  id : Uuid
  name : String
  upstream : String
  healthEndpoint : String
  deriving DecidableEq, Repr

/-- The entry of a service that is registered with these data. -/
def DirectoryEntry.new (id : Uuid) (name upstream healthEndpoint : String) : DirectoryEntry :=
  ⟨id, name, Text.trimEndMatches upstream '/', healthEndpoint⟩

/-- What the registry stores of the entry. -/
def ServiceEntry.listing (entry : ServiceEntry) : DirectoryEntry :=
  ⟨entry.id, entry.name, entry.upstream, entry.healthEndpoint⟩

/-- The service of every prefix. -/
abbrev ServiceDirectory := DashMap String DirectoryEntry

namespace ServiceDirectory

/-- A service takes a prefix if no other has it. -/
def announce (d : ServiceDirectory) (given : String) (e : DirectoryEntry) : ServiceDirectory :=
  if (d.lookup (ServiceEntry.normalizePrefix given)).isSome then d
  else d.insert (ServiceEntry.normalizePrefix given) e

/-- A service takes a prefix from whichever has it. -/
def register (d : ServiceDirectory) (given : String) (e : DirectoryEntry) : ServiceDirectory :=
  d.insert (ServiceEntry.normalizePrefix given) e

/-- The directory without a service. -/
def remove (d : ServiceDirectory) (id : Uuid) : ServiceDirectory := d.retain fun _ e => e.id ≠ id

/-- What a call of the registry is for. -/
def call (d : ServiceDirectory) : RegistryCall → ServiceDirectory
  | .register id _ name pathPrefix upstream healthEndpoint =>
      d.register pathPrefix (.new id name upstream healthEndpoint)
  | .registerAdvanced id _ req =>
      d.register req.pathPrefix (.new id req.name req.upstream req.healthEndpoint)
  | .loadEntry id _ svc =>
      d.announce svc.pathPrefix (.new id svc.name svc.upstream svc.healthEndpoint)
  | .unregister id => d.remove id

/-- A number of announcements, one after the other. -/
def announceAll (d : ServiceDirectory) (announced : List (Uuid × DiscoveredService)) :
    ServiceDirectory :=
  announced.foldl (fun d a =>
    d.announce a.2.pathPrefix (.new a.1 a.2.name a.2.upstream a.2.healthEndpoint)) d

/-- The first of some announcements that names a prefix. -/
def first (announced : List (Uuid × DiscoveredService)) (path : String) : Option DirectoryEntry :=
  (announced.find? fun a => ServiceEntry.normalizePrefix a.2.pathPrefix = path).map fun a =>
    .new a.1 a.2.name a.2.upstream a.2.healthEndpoint

variable {d : ServiceDirectory} {given path : String} {e : DirectoryEntry}

/-- Who has a prefix after an announcement. -/
theorem lookup_announce :
    (d.announce given e).lookup path =
      (d.lookup path).or (if ServiceEntry.normalizePrefix given = path then some e else none) := by
  unfold announce
  split
  next htaken =>
    -- The prefix is taken, so whoever has it stays, and no other prefix is touched.
    split
    next heq =>
      rw [heq] at htaken
      rw [Option.or_of_isSome htaken]
    next => rw [Option.or_none]
  next hfree =>
    rw [DashMap.lookup_insert]
    by_cases heq : path = ServiceEntry.normalizePrefix given
    · subst heq
      rw [if_pos rfl, if_pos rfl, Option.not_isSome_iff_eq_none.mp hfree, Option.none_or]
    · rw [if_neg heq, if_neg (Ne.symm heq), Option.or_none]

/-- Who has a prefix after a number of announcements. -/
theorem lookup_announceAll (announced : List (Uuid × DiscoveredService)) :
    (d.announceAll announced).lookup path = (d.lookup path).or (first announced path) := by
  induction announced generalizing d with
  | nil => exact (Option.or_none).symm
  | cons a announced ih =>
      show ((d.announce _ _).announceAll announced).lookup path = _
      rw [ih, lookup_announce, Option.or_assoc]
      -- What is left is the first element against the rest of the list.
      refine congrArg (Option.or (d.lookup path)) ?_
      unfold first
      by_cases heq : ServiceEntry.normalizePrefix a.2.pathPrefix = path
      · rw [if_pos heq, List.find?_cons_of_pos (by simpa using heq), Option.some_or]
        rfl
      · rw [if_neg heq, List.find?_cons_of_neg (by simpa using heq), Option.none_or]

end ServiceDirectory

/-- A registry, and the directory of what it was told. -/
structure DockerState where
  registry : ServiceRegistry
  directory : ServiceDirectory

/-- A container in a round, with what its registration would draw, or another call. -/
inductive DockerAction
  | container (id : Uuid) (now : DateTime) (c : Json)
  | call (call : RegistryCall)
  | updateStatus (id : Uuid) (status : ServiceStatus) (now : DateTime)
  | setUpstreams (id : Uuid) (upstreams : List String)
  | incrementRequestCount (id : Uuid)

namespace DockerAction

/-- The call that an action comes to, if it can change which services are registered. -/
def registryCall : DockerAction → Option RegistryCall
  | .container id now c =>
      (DiscoveredService.ofContainer c).map fun svc => .loadEntry id now svc.config
  | .call made => some made
  | .updateStatus .. | .setUpstreams .. | .incrementRequestCount _ => none

/-- Not a call by which someone else registers or removes a service. -/
def isDiscovery : DockerAction → Bool
  | .call _ => false
  | .container .. | .updateStatus .. | .setUpstreams .. | .incrementRequestCount _ => true

/-- What a container announces, with the id that its registration would draw. -/
def announcement : DockerAction → Option (Uuid × DiscoveredService)
  | .container id _ c => (DiscoveredService.ofContainer c).map fun svc => (id, svc)
  | .call _ | .updateStatus .. | .setUpstreams .. | .incrementRequestCount _ => none

/-- What the containers announce. -/
def announced (as : List DockerAction) : List (Uuid × DiscoveredService) :=
  as.filterMap announcement

/-- The containers of a round announce what `discover` returns. -/
theorem announced_round (containers : List (Uuid × DateTime × Json)) :
    (announced (containers.map fun c => .container c.1 c.2.1 c.2.2)).map Prod.snd =
      DiscoveredService.discover (some (containers.map fun c => c.2.2)) := by
  rw [announced, DiscoveredService.discover, Option.getD_some, List.filterMap_map,
    List.filterMap_map, List.map_filterMap]
  refine List.filterMap_congr fun c _ => ?_
  show (Option.map _ (DiscoveredService.ofContainer c.2.2)).map Prod.snd = _
  rw [Option.map_map]
  exact Option.map_id'

end DockerAction

/-- The services of both registries have the same ids, prefixes and listings. -/
def ServiceRegistry.Alike (r r' : ServiceRegistry) : Prop :=
  ∀ id, (r'.services.lookup id).map (fun entry => (entry.pathPrefix, entry.listing)) =
    (r.services.lookup id).map fun entry => (entry.pathPrefix, entry.listing)

/-- The entries of a directory are those of the registered services. -/
def ServiceDirectory.Lists (d : ServiceDirectory) (r : ServiceRegistry) : Prop :=
  ∀ path e, d.lookup path = some e ↔ ∃ entry, r.services.lookup e.id = some entry ∧
    entry.pathPrefix = path ∧ entry.listing = e

namespace DockerState

/-- No service is registered. -/
def initial (storage : Option SqliteStorage) : DockerState := ⟨.initial storage, ∅⟩

/-- One step. The ids that are drawn are not in use. -/
def step (s : DockerState) : DockerAction → Option DockerState
  | .container id now c =>
      if (s.registry.services.lookup id).isSome then none
      else
        match DiscoveredService.ofContainer c with
        | some svc => some {
            registry := s.registry.discoverContainer id now svc
            directory := s.directory.announce svc.pathPrefix
              (.new id svc.name svc.upstream svc.healthEndpoint) }
        | none => some s
  | .call call =>
      (s.registry.step call).map fun registry => ⟨registry, s.directory.call call⟩
  | .updateStatus id status now =>
      some { s with registry := s.registry.updateStatus id status now }
  | .setUpstreams id upstreams =>
      some { s with registry := (s.registry.setUpstreams id upstreams).2 }
  | .incrementRequestCount id =>
      some { s with registry := s.registry.incrementRequestCount id }

/-- Every sequence of containers and calls. -/
def machine : Machine DockerState DockerAction := ⟨step⟩

/-- `find_by_prefix` answers as the directory does, however the prefix is spelled. -/
def Refines (s : DockerState) : Prop :=
  ∀ given, (s.registry.findByPrefix given).map ServiceEntry.listing =
    s.directory.lookup (ServiceEntry.normalizePrefix given)

/-- The steps that do not name the root: a prefix that is announced or given has a character other
than slashes. -/
def NamesNoRoot (s : DockerState) (a : DockerAction) : Prop :=
  ∀ call ∈ a.registryCall, s.registry.RegistersNoRoot call

instance (s : DockerState) (a : DockerAction) : Decidable (s.NamesNoRoot a) :=
  inferInstanceAs (Decidable (∀ call ∈ a.registryCall, _))

/-- The steps of rounds, and of calls that only change a service in place. -/
def Discovers (s : DockerState) (a : DockerAction) : Prop :=
  s.NamesNoRoot a ∧ a.isDiscovery = true

instance (s : DockerState) (a : DockerAction) : Decidable (s.Discovers a) :=
  inferInstanceAs (Decidable (_ ∧ _))

/-- The invariant. -/
structure Inv (s : DockerState) : Prop where
  rootless : s.registry.Rootless
  lists : s.directory.Lists s.registry

end DockerState

namespace ServiceRegistry

variable {r r' : ServiceRegistry} {d : ServiceDirectory} {given : String} {entry : ServiceEntry}

/-- A service that is changed in place. -/
theorem alike_modify {id : Uuid} {f : ServiceEntry → ServiceEntry}
    (hf : ∀ entry, (f entry).pathPrefix = entry.pathPrefix ∧
      (f entry).listing = entry.listing) :
    r.Alike { r with services := r.services.modify id f } := by
  intro id'
  show ((r.services.modify id f).lookup id').map _ = _
  rw [DashMap.lookup_modify]
  split
  next heq =>
    subst heq
    rw [Option.map_map]
    refine congrArg (fun g => (r.services.lookup id').map g) (funext fun entry => ?_)
    show ((f entry).pathPrefix, (f entry).listing) = _
    rw [(hf entry).1, (hf entry).2]
  next => rfl

/-- A request changes a service in place. -/
theorem alike_incrementRequestCount (r : ServiceRegistry) (id : Uuid) :
    r.Alike (r.incrementRequestCount id) := by
  intro id'
  unfold incrementRequestCount
  cases hentry : r.services.lookup id with
  | none => rfl
  | some entry =>
      have hservices : ∀ (r' : ServiceRegistry) (call : SqliteStorage → Option SqliteStorage)
          (c : Prop) [Decidable c], (if c then r'.persist call else r').services = r'.services := by
        intro r' call c _
        split <;> rfl
      -- Only every hundredth count goes on to the database, and the services are the same then.
      dsimp only
      rw [hservices, DashMap.lookup_insert]
      split
      next heq =>
        rw [heq, hentry]
        rfl
      next => rfl

/-- A directory lists the services of alike registries. -/
theorem Alike.lists (hsame : r.Alike r') (hd : d.Lists r) : d.Lists r' := by
  -- The relation is symmetric, so that one direction is enough.
  have hone : ∀ {r r' : ServiceRegistry}, r.Alike r' → ∀ {path : String} {e : DirectoryEntry},
      (∃ entry, r.services.lookup e.id = some entry ∧ entry.pathPrefix = path ∧
        entry.listing = e) →
      ∃ entry, r'.services.lookup e.id = some entry ∧ entry.pathPrefix = path ∧
        entry.listing = e := by
    rintro r r' hsame path e ⟨entry, hentry, rfl, hlisting⟩
    have hlookup := hsame e.id
    rw [hentry, Option.map_some] at hlookup
    obtain ⟨entry', hentry', heq⟩ := Option.map_eq_some_iff.mp hlookup
    obtain ⟨hpath, hlisting'⟩ := Prod.mk.inj heq
    exact ⟨entry', hentry', hpath, hlisting'.trans hlisting⟩
  intro path e
  exact (hd path e).trans ⟨hone hsame, hone fun id => (hsame id).symm⟩

/-- Alike registries are without the root together. -/
theorem Alike.rootless (hsame : r.Alike r') (hr : r.Rootless) : r'.Rootless := by
  have hback : ∀ id entry', r'.services.lookup id = some entry' →
      ∃ entry, r.services.lookup id = some entry ∧ entry.pathPrefix = entry'.pathPrefix ∧
        entry.id = entry'.id := by
    intro id entry' hentry'
    have hlookup := hsame id
    rw [hentry', Option.map_some] at hlookup
    obtain ⟨entry, hentry, heq⟩ := Option.map_eq_some_iff.mp hlookup.symm
    obtain ⟨hpath, hlisting⟩ := Prod.mk.inj heq
    exact ⟨entry, hentry, hpath, congrArg DirectoryEntry.id hlisting⟩
  refine ⟨⟨⟨?_, ?_⟩, ?_⟩, ?_⟩
  · intro id entry' h
    obtain ⟨entry, hentry, -, hid⟩ := hback id entry' h
    exact hid.symm.trans (hr.keyed id entry hentry)
  · intro id entry' h
    obtain ⟨entry, hentry, hpath, -⟩ := hback id entry' h
    exact hpath ▸ hr.normal id entry hentry
  · intro id₁ id₂ entry₁ entry₂ h₁ h₂ hpath
    obtain ⟨old₁, hold₁, hpath₁, -⟩ := hback id₁ entry₁ h₁
    obtain ⟨old₂, hold₂, hpath₂, -⟩ := hback id₂ entry₂ h₂
    have hold : old₁.pathPrefix = old₂.pathPrefix := (hpath₁.trans hpath).trans hpath₂.symm
    exact hr.distinct id₁ id₂ old₁ old₂ hold₁ hold₂ hold
  · intro id entry' h
    obtain ⟨entry, hentry, hpath, -⟩ := hback id entry' h
    exact hpath ▸ hr.nonempty id entry hentry

/-- The registry finds by a prefix what the directory lists under it. -/
theorem Rootless.refines (hr : r.Rootless) (hd : d.Lists r) (given : String) :
    (r.findByPrefix given).map ServiceEntry.listing =
      d.lookup (ServiceEntry.normalizePrefix given) := by
  ext e
  rw [Option.map_eq_some_iff, hd]
  constructor
  · rintro ⟨entry, hfind, rfl⟩
    obtain ⟨-, hpath⟩ := (hr.findsStored given entry).mp hfind
    exact ⟨entry, hr.lookup_of_findByPrefix hfind, hpath, rfl⟩
  · rintro ⟨entry, hentry, hpath, hlisting⟩
    have hmem : entry ∈ r.services.values := (DashMap.mem_values_iff _ _).mpr ⟨e.id, hentry⟩
    exact ⟨entry, (hr.findsStored given entry).mpr ⟨hmem, hpath⟩, hlisting⟩

variable (entry) in
/-- A registration that replaces what has the prefix. -/
theorem Rootless.lists_register (hr : r.Rootless) (hd : d.Lists r)
    (hentry : entry.pathPrefix = ServiceEntry.normalizePrefix given)
    (hnew : r.services.lookup entry.id = none) :
    (d.register given entry.listing).Lists ((r.replaceExisting given).insertEntry entry) := by
  intro path e
  rw [ServiceDirectory.register, DashMap.lookup_insert]
  split
  next hpath =>
    subst hpath
    constructor
    · intro h
      cases h
      exact ⟨entry, lookup_insertEntry_self entry, hentry, rfl⟩
    · rintro ⟨found, hfound, hpath, rfl⟩
      rcases lookup_registered hfound with ⟨-, rfl⟩ | ⟨-, hold, hkept⟩
      · rfl
      · -- What had the prefix was removed.
        have hmem : found ∈ r.services.values := (DashMap.mem_values_iff _ _).mpr ⟨_, hold⟩
        exact absurd rfl (hkept found ((hr.findsStored given found).mpr ⟨hmem, hpath⟩))
  next hpath =>
    rw [hd]
    constructor
    · rintro ⟨old, hold, rfl, hlisting⟩
      refine ⟨old, ?_, rfl, hlisting⟩
      -- The new service has a new id, and the one that was removed had another prefix.
      have hne : e.id ≠ entry.id := by
        intro heq
        rw [heq, hnew] at hold
        cases hold
      rw [insertEntry, DashMap.lookup_insert, if_neg hne, services_persist, lookup_replaceExisting,
        if_neg, hold]
      rintro ⟨existing, hfind, hid⟩
      have hexisting := hr.lookup_of_findByPrefix hfind
      rw [hid, hold] at hexisting
      cases hexisting
      exact hpath ((hr.findsStored given old).mp hfind).2
    · rintro ⟨found, hfound, rfl, hlisting⟩
      rcases lookup_registered hfound with ⟨-, rfl⟩ | ⟨-, hold, -⟩
      · exact absurd hentry hpath
      · exact ⟨found, hold, rfl, hlisting⟩

/-- An announcement, which a taken prefix turns into nothing. -/
theorem Rootless.lists_loadEntry (hr : r.Rootless) (hd : d.Lists r) {id : Uuid} {now : DateTime}
    {svc : ServiceConfig} (hnew : r.services.lookup id = none) :
    (d.announce svc.pathPrefix (entryOfConfig id now svc).listing).Lists
      (r.loadEntry id now svc) := by
  have hrefines := hr.refines hd svc.pathPrefix
  unfold loadEntry ServiceDirectory.announce
  cases hfind : r.findByPrefix svc.pathPrefix with
  | some existing =>
      -- The directory knows of the service that was found.
      rw [hfind, Option.map_some] at hrefines
      rw [← hrefines]
      exact hd
  | none =>
      rw [hfind, Option.map_none] at hrefines
      rw [← hrefines]
      have hlists := hr.lists_register (entryOfConfig id now svc) hd rfl hnew
      rwa [replaceExisting, hfind] at hlists

/-- A service that is removed. -/
theorem lists_unregister (hd : d.Lists r) {id : Uuid}
    (hlookup : ∀ id', r'.services.lookup id' = if id' = id then none else r.services.lookup id') :
    (d.remove id).Lists r' := by
  intro path e
  rw [ServiceDirectory.remove, DashMap.lookup_retain, Option.filter_eq_some_iff, hd, hlookup]
  by_cases heq : e.id = id
  · simp [heq]
  · simp [heq]

end ServiceRegistry

namespace DockerState

variable {s s' t : DockerState} {a : DockerAction} {as bs : List DockerAction}
  {storage : Option SqliteStorage}

/-- A step is a call of the registry, or changes a service in place at most. -/
theorem step_cases (h : s.step a = some s') :
    (∃ call, a.registryCall = some call ∧ s.registry.step call = some s'.registry ∧
        s'.directory = s.directory.call call) ∨
      a.registryCall = none ∧ s.registry.Alike s'.registry ∧ s'.directory = s.directory := by
  cases a with
  | container id now c =>
      simp only [step] at h
      split at h
      next => cases h
      next hnew =>
        cases hread : DiscoveredService.ofContainer c with
        | none =>
            rw [hread] at h
            cases h
            exact .inr ⟨by rw [DockerAction.registryCall, hread]; rfl, fun _ => rfl, rfl⟩
        | some svc =>
            rw [hread] at h
            cases h
            refine .inl ⟨.loadEntry id now svc.config, ?_, ?_, rfl⟩
            · rw [DockerAction.registryCall, hread, Option.map_some]
            · rw [ServiceRegistry.step, if_neg hnew, ServiceRegistry.discoverContainer_eq]
  | call made =>
      obtain ⟨registry, hstep, rfl⟩ := Option.map_eq_some_iff.mp h
      exact .inl ⟨made, rfl, hstep, rfl⟩
  | updateStatus id status now =>
      cases h
      exact .inr ⟨rfl, ServiceRegistry.alike_modify fun _ => ⟨rfl, rfl⟩, rfl⟩
  | setUpstreams id upstreams =>
      cases h
      exact .inr ⟨rfl, ServiceRegistry.alike_modify fun _ => ⟨rfl, rfl⟩, rfl⟩
  | incrementRequestCount id =>
      cases h
      exact .inr ⟨rfl, ServiceRegistry.alike_incrementRequestCount s.registry id, rfl⟩

/-- A call leaves the directory with the services that it leaves registered. -/
theorem lists_call {r r' : ServiceRegistry} {d : ServiceDirectory} {call : RegistryCall}
    (hr : r.Rootless) (hd : d.Lists r) (h : r.step call = some r') : (d.call call).Lists r' := by
  cases call with
  | register id now name pathPrefix upstream healthEndpoint =>
      obtain ⟨hnew, rfl⟩ := Option.ite_none_left_eq_some.mp h |>.imp_right Option.some.inj
      exact hr.lists_register (.new id now name pathPrefix upstream healthEndpoint) hd rfl
        (Option.not_isSome_iff_eq_none.mp hnew)
  | registerAdvanced id now req =>
      obtain ⟨hnew, rfl⟩ := Option.ite_none_left_eq_some.mp h |>.imp_right Option.some.inj
      exact hr.lists_register (ServiceRegistry.entryOfRequest id now req) hd rfl
        (Option.not_isSome_iff_eq_none.mp hnew)
  | loadEntry id now svc =>
      obtain ⟨hnew, rfl⟩ := Option.ite_none_left_eq_some.mp h |>.imp_right Option.some.inj
      exact hr.lists_loadEntry hd (Option.not_isSome_iff_eq_none.mp hnew)
  | unregister id =>
      cases h
      refine ServiceRegistry.lists_unregister hd fun id' => ?_
      unfold ServiceRegistry.unregister
      cases hentry : r.services.lookup id with
      | some entry => exact DashMap.lookup_erase r.services id id'
      | none =>
          dsimp only
          split
          next heq => rw [heq, hentry]
          next => rfl

/-- A step that does not name the root keeps the invariant. -/
theorem inv_step (s : DockerState) (a : DockerAction) (s' : DockerState) (hs : s.Inv)
    (hok : s.NamesNoRoot a) (h : s.step a = some s') : s'.Inv := by
  rcases step_cases h with ⟨call, hcall, hstep, hdirectory⟩ | ⟨-, hsame, hdirectory⟩
  · refine ⟨ServiceRegistry.rootless_step hs.rootless (hok call hcall) hstep, ?_⟩
    rw [hdirectory]
    exact lists_call hs.rootless hs.lists hstep
  · refine ⟨hsame.rootless hs.rootless, ?_⟩
    rw [hdirectory]
    exact hsame.lists hs.lists

/-- A registry whose directory lists its services refines it. -/
theorem Inv.refines (hs : s.Inv) : s.Refines := hs.rootless.refines hs.lists

/-- A step that names the root leaves the directory with a service under the empty prefix, which
`find_by_prefix` does not find under the empty string. -/
theorem not_refines_step (hs : s.Inv) (hbad : ¬ s.NamesNoRoot a) (h : s.step a = some s') :
    ¬ s'.Refines := by
  unfold NamesNoRoot ServiceRegistry.RegistersNoRoot at hbad
  push Not at hbad
  obtain ⟨call, hcall, given, hgiven, hslashes⟩ := hbad
  have hempty := (ServiceEntry.normalizePrefix_eq_empty_iff given).mpr hslashes
  intro hrefines
  rcases step_cases h with ⟨call', hcall', hstep, hdirectory⟩ | ⟨hcall', -, -⟩
  · cases hcall.symm.trans hcall'
    have hnone := (ServiceRegistry.stored_step hs.rootless.toStored hstep).findByPrefix_empty
    have htaken : (s'.directory.lookup "").isSome := by
      rw [hdirectory, ← hempty]
      cases call with
      | register id now name pathPrefix upstream healthEndpoint =>
          cases hgiven
          exact Option.isSome_iff_exists.mpr ⟨_, AList.lookup_insert _⟩
      | registerAdvanced id now req =>
          cases hgiven
          exact Option.isSome_iff_exists.mpr ⟨_, AList.lookup_insert _⟩
      | loadEntry id now svc =>
          cases hgiven
          rw [ServiceDirectory.call, ServiceDirectory.lookup_announce, if_pos rfl]
          simp
      | unregister id => cases hgiven
    -- A stored prefix is never `/`, which the empty string is looked up as.
    have hfound := hrefines ""
    rw [hnone, show ServiceEntry.normalizePrefix "" = "" by decide] at hfound
    rw [← hfound] at htaken
    cases htaken
  · rw [hcall'] at hcall
    cases hcall

/-- At the start there are no services. -/
theorem inv_initial (storage : Option SqliteStorage) : (initial storage).Inv where
  rootless := ServiceRegistry.rootless_initial storage
  lists := by
    intro path e
    constructor
    · intro h
      cases h
    · rintro ⟨_, h, -⟩
      cases h

/-- In every sequence of rounds and other calls the registry answers as the directory does
throughout, for every spelling of a prefix, exactly if no step names the root. -/
theorem refines_throughout_iff
    (hrun : machine.Runs Machine.unrestricted (initial storage) as s) :
    machine.Throughout Refines (initial storage) as ↔
      machine.Runs NamesNoRoot (initial storage) as s :=
  hrun.throughout_iff (fun _ hs => hs.refines) inv_step
    (fun _ _ _ hs hbad h => not_refines_step hs hbad h) (inv_initial storage)

/-- A container that announces the empty prefix is registered anew in the next round. -/
example :
    let svc : DiscoveredService := ⟨"web", "", "http://10.0.0.2:80", "/health"⟩
    let r := (ServiceRegistry.new.discoverContainer 1 0 svc).discoverContainer 2 10 svc
    r.services.values.map ServiceEntry.pathPrefix = ["", ""] := by decide

/-- A step of a round makes the announcement of its container, if there is one. -/
theorem directory_step (hdiscovery : a.isDiscovery = true) (h : s.step a = some s') :
    s'.directory = s.directory.announceAll a.announcement.toList := by
  cases a with
  | container id now c =>
      simp only [step] at h
      split at h
      next => cases h
      next =>
        cases hread : DiscoveredService.ofContainer c with
        | none =>
            rw [hread] at h
            cases h
            rw [DockerAction.announcement, hread]
            rfl
        | some svc =>
            rw [hread] at h
            cases h
            rw [DockerAction.announcement, hread]
            rfl
  | call made => cases hdiscovery
  | updateStatus id status now =>
      cases h
      rfl
  | setUpstreams id upstreams =>
      cases h
      rfl
  | incrementRequestCount id =>
      cases h
      rfl

/-- Rounds make the announcements of their containers. -/
theorem directory_of_runs (hrun : machine.Runs Discovers s as t) :
    t.directory = s.directory.announceAll (DockerAction.announced as) := by
  induction hrun with
  | nil => rfl
  | @cons s t u a as hok hst _ ih =>
      rw [ih, directory_step hok.2 hst, DockerAction.announced, DockerAction.announced]
      cases hannouncement : a.announcement with
      | none =>
          rw [List.filterMap_cons_none hannouncement]
          rfl
      | some announced =>
          rw [List.filterMap_cons_some hannouncement]
          rfl

/-- The answer of Docker about a container. -/
def containerOf (name pathPrefix port ip : String) : Json :=
  .object [("Labels", .object [("xiranet.service.name", .string name),
      ("xiranet.service.port", .string port), ("xiranet.service.prefix", .string pathPrefix)]),
    ("NetworkSettings", .object [("Networks", .object [("bridge",
      .object [("IPAddress", .string ip)])])])]

/-- A service is registered by hand, and a request goes to it. -/
def ordersByHand : List DockerAction :=
  [.call (.register 1 0 "orders" "/orders/" "http://a/" "/health"), .incrementRequestCount 1]

/-- The state after it. -/
def ordered : DockerState :=
  (machine.exec NamesNoRoot (initial none) ordersByHand).getD (initial none)

/-- Two rounds, in the second of which the container of `/users` has a new address. -/
def twoRounds : List DockerAction :=
  [.container 2 5 (containerOf "orders" "orders" "80" "10.0.0.2"),
    .container 3 5 (containerOf "users" "users" "8080" "10.0.0.3"),
    .container 4 15 (containerOf "users" "/users" "8080" "10.0.0.4")]

/-- The registry answers as the directory does throughout. -/
theorem refines_throughout_twoRounds :
    machine.Throughout Refines (initial none) (ordersByHand ++ twoRounds) := by
  obtain ⟨s, hs⟩ : ∃ s, machine.exec NamesNoRoot (initial none) (ordersByHand ++ twoRounds) =
      some s := Option.isSome_iff_exists.mp (by decide)
  have hrun := Machine.runs_of_exec hs
  exact (refines_throughout_iff (hrun.mono fun _ _ _ => trivial)).mpr hrun

end DockerState

end XiraNet

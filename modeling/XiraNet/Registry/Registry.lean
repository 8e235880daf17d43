import XiraNet.Lib.DashMap
import XiraNet.Registry.Storage

/-!
# Service registry

`registry/mod.rs`: the services in memory and, when the registry has a storage, their rows in
the database. An error of a database call is logged and otherwise ignored, so the two can
drift apart. The `events` rows that the functions write are read by none of them and left out.

`lookup_eq_some`: `lookup` finds a registered service whose prefix matches the path on a segment
boundary.
-/

namespace XiraNet

/-- The registry, with the database it persists to. -/
structure ServiceRegistry where
  services : DashMap Uuid ServiceEntry
  storage : Option SqliteStorage

namespace ServiceRegistry

/-- A registry without storage. -/
def new : ServiceRegistry := ⟨∅, none⟩

/-- Load every stored service. -/
def withStorage (db : SqliteStorage) : ServiceRegistry where
  services := db.loadAllServices.foldl (fun m entry => m.insert entry.id entry) ∅
  storage := some db

/-- Run a database call whose error is ignored. -/
def persist (r : ServiceRegistry) (call : SqliteStorage → Option SqliteStorage) :
    ServiceRegistry :=
  { r with storage := r.storage.map fun db => (call db).getD db }

/-- A database call does not touch the services in memory. -/
@[simp]
theorem services_persist (r : ServiceRegistry) (call : SqliteStorage → Option SqliteStorage) :
    (r.persist call).services = r.services := rfl

/-- `find_by_prefix`. An empty argument is looked up as `/`, which no stored prefix is. -/
def findByPrefix (r : ServiceRegistry) (pathPrefix : String) : Option ServiceEntry :=
  let normalized :=
    if Text.startsWith pathPrefix "/" then Text.trimEndMatches pathPrefix '/'
    else "/" ++ Text.trimEndMatches pathPrefix '/'
  r.services.values.find? fun entry => entry.pathPrefix = normalized

/-- Remove the service registered under a prefix, if there is one, from memory and database. -/
def replaceExisting (r : ServiceRegistry) (pathPrefix : String) : ServiceRegistry :=
  match r.findByPrefix pathPrefix with
  | some existing =>
      { r with services := r.services.erase existing.id }.persist (·.removeService existing.id)
  | none => r

/-- Store a new entry in the database and in memory. -/
def insertEntry (r : ServiceRegistry) (entry : ServiceEntry) : ServiceRegistry :=
  let r := r.persist (·.saveService entry)
  { r with services := r.services.insert entry.id entry }

/-- The entry that `load_from_config` builds from a configured service. -/
def entryOfConfig (id : Uuid) (now : DateTime) (svc : ServiceConfig) : ServiceEntry :=
  { ServiceEntry.new id now svc.name svc.pathPrefix svc.upstream svc.healthEndpoint with
    upstreams := svc.upstreams
    loadBalance := svc.loadBalance
    version := svc.version
    validationSchema := svc.validationSchema
    ipWhitelist := svc.ipWhitelist
    ipBlacklist := svc.ipBlacklist
    transform := svc.transform }

/-- One iteration of `load_from_config`: a prefix that is registered already is skipped. -/
def loadEntry (r : ServiceRegistry) (id : Uuid) (now : DateTime) (svc : ServiceConfig) :
    ServiceRegistry :=
  if (r.findByPrefix svc.pathPrefix).isSome then r
  else r.insertEntry (entryOfConfig id now svc)

/-- `load_from_config`, with the id and the time each iteration would draw. -/
def loadFromConfig (r : ServiceRegistry) (svcs : List (Uuid × DateTime × ServiceConfig)) :
    ServiceRegistry :=
  svcs.foldl (fun r svc => r.loadEntry svc.1 svc.2.1 svc.2.2) r

/-- `register`, with the id and the time it draws. -/
def register (r : ServiceRegistry) (id : Uuid) (now : DateTime)
    (name pathPrefix upstream healthEndpoint : String) : ServiceEntry × ServiceRegistry :=
  let entry := ServiceEntry.new id now name pathPrefix upstream healthEndpoint
  (entry, (r.replaceExisting pathPrefix).insertEntry entry)

/-- The entry that `register_advanced` builds from a request. -/
def entryOfRequest (id : Uuid) (now : DateTime) (req : RegisterServiceRequest) : ServiceEntry :=
  { ServiceEntry.new id now req.name req.pathPrefix req.upstream req.healthEndpoint with
    upstreams := req.upstreams
    loadBalance := req.loadBalance
    version := req.version
    validationSchema := req.validationSchema
    ipWhitelist := req.ipWhitelist
    ipBlacklist := req.ipBlacklist
    transform := req.transform }

/-- `register_advanced`, with the id and the time it draws. -/
def registerAdvanced (r : ServiceRegistry) (id : Uuid) (now : DateTime)
    (req : RegisterServiceRequest) : ServiceEntry × ServiceRegistry :=
  let entry := entryOfRequest id now req
  (entry, (r.replaceExisting req.pathPrefix).insertEntry entry)

/-- `unregister`. -/
def unregister (r : ServiceRegistry) (id : Uuid) : Option ServiceEntry × ServiceRegistry :=
  match r.services.lookup id with
  -- The result does not tell whether the row could be deleted.
  | some entry =>
      (some entry,
        { r with services := r.services.erase id }.persist (·.removeService entry.id))
  | none => (none, r)

/-- Whether a service with this prefix serves a path: the prefix ends at the end of the path or
before a slash. -/
def matchesPath (pathPrefix path : String) : Bool :=
  path = pathPrefix || Text.startsWith path (pathPrefix ++ "/")

/-- One iteration of `lookup`, on the best match so far and the length of its prefix. -/
def lookupStep (path : String) (best : Option ServiceEntry × ℕ) (entry : ServiceEntry) :
    Option ServiceEntry × ℕ :=
  if matchesPath entry.pathPrefix path ∧ best.2 < entry.pathPrefix.utf8ByteSize then
    (some entry, entry.pathPrefix.utf8ByteSize)
  else best

/-- `lookup`: the service with the longest matching prefix. -/
def lookup (r : ServiceRegistry) (path : String) : Option ServiceEntry :=
  (r.services.values.foldl (lookupStep path) (none, 0)).1

/-- `update_status`, which does nothing for a service that is not registered. -/
def updateStatus (r : ServiceRegistry) (id : Uuid) (status : ServiceStatus) (now : DateTime) :
    ServiceRegistry :=
  { r with
    services := r.services.modify id fun entry =>
      { entry with status, lastHealthCheck := some now } }

/-- `set_upstreams`. -/
def setUpstreams (r : ServiceRegistry) (id : Uuid) (upstreams : List String) :
    Bool × ServiceRegistry :=
  ((r.services.lookup id).isSome,
    { r with services := r.services.modify id fun entry => { entry with upstreams } })

/-- `increment_request_count`, which writes every hundredth count to the database. -/
def incrementRequestCount (r : ServiceRegistry) (id : Uuid) : ServiceRegistry :=
  match r.services.lookup id with
  | some entry =>
      let entry := { entry with requestCount := wrappingAdd entry.requestCount 1 }
      let r := { r with services := r.services.insert id entry }
      -- The counts in between are lost with a restart.
      if entry.requestCount % 100 = 0 then
        r.persist (·.updateRequestCount entry.id entry.requestCount)
      else r
  | none => r

/-- The invariant of the `lookup` loop: the best match matches, and the length goes with it. -/
theorem foldl_lookupStep_spec (path : String) (entries : List ServiceEntry)
    (best : Option ServiceEntry × ℕ) {entry : ServiceEntry}
    (h : (entries.foldl (lookupStep path) best).1 = some entry) :
    best.1 = some entry ∨
      (entry ∈ entries ∧ matchesPath entry.pathPrefix path = true ∧ entry.pathPrefix ≠ "") := by
  induction entries generalizing best with
  | nil => exact .inl h
  | cons e entries ih =>
      rcases ih (lookupStep path best e) h with hstep | ⟨hmem, hrest⟩
      · unfold lookupStep at hstep
        split at hstep
        next hmatch =>
          cases hstep
          -- The empty prefix is never longer than the best match so far.
          refine .inr ⟨List.mem_cons_self, hmatch.1, fun hempty => ?_⟩
          simp [hempty] at hmatch
        next => exact .inl hstep
      · exact .inr ⟨List.mem_cons_of_mem _ hmem, hrest⟩

/-- What `lookup` finds is registered, has a non-empty prefix and matches the path. -/
theorem lookup_eq_some {r : ServiceRegistry} {path : String} {entry : ServiceEntry}
    (h : r.lookup path = some entry) :
    entry ∈ r.services.values ∧ matchesPath entry.pathPrefix path = true ∧
      entry.pathPrefix ≠ "" := by
  rcases foldl_lookupStep_spec path r.services.values (none, 0) h with hnone | hspec
  · cases hnone
  · exact hspec

/-- The length that the `lookup` loop keeps is that of the best match. -/
theorem foldl_lookupStep_snd (path : String) (entries : List ServiceEntry)
    (best : Option ServiceEntry × ℕ)
    (h : best.2 = (best.1.map (·.pathPrefix.utf8ByteSize)).getD 0) :
    (entries.foldl (lookupStep path) best).2 =
      ((entries.foldl (lookupStep path) best).1.map (·.pathPrefix.utf8ByteSize)).getD 0 := by
  induction entries generalizing best with
  | nil => exact h
  | cons e entries ih =>
      refine ih (lookupStep path best e) ?_
      unfold lookupStep
      split
      next => rfl
      next => exact h

/-- No prefix that matches is longer than the one the `lookup` loop keeps. -/
theorem le_foldl_lookupStep (path : String) (entries : List ServiceEntry)
    (best : Option ServiceEntry × ℕ) :
    best.2 ≤ (entries.foldl (lookupStep path) best).2 ∧
      ∀ entry ∈ entries, matchesPath entry.pathPrefix path = true →
        entry.pathPrefix.utf8ByteSize ≤ (entries.foldl (lookupStep path) best).2 := by
  induction entries generalizing best with
  | nil => exact ⟨Nat.le_refl _, fun entry h => absurd h List.not_mem_nil⟩
  | cons e entries ih =>
      obtain ⟨hbest, hrest⟩ := ih (lookupStep path best e)
      have hstep : best.2 ≤ (lookupStep path best e).2 ∧ (matchesPath e.pathPrefix path = true →
          e.pathPrefix.utf8ByteSize ≤ (lookupStep path best e).2) := by
        unfold lookupStep
        split
        next hmatch => exact ⟨Nat.le_of_lt hmatch.2, fun _ => Nat.le_refl _⟩
        next hmatch =>
          exact ⟨Nat.le_refl _, fun h => Nat.le_of_not_lt fun hlt => hmatch ⟨h, hlt⟩⟩
      refine ⟨hstep.1.trans hbest, fun entry hmem hmatch => ?_⟩
      rcases List.mem_cons.mp hmem with rfl | hmem
      · exact (hstep.2 hmatch).trans hbest
      · exact hrest entry hmem hmatch

/-- No service with a longer prefix matches than the one that `lookup` finds, and none but those
with the empty prefix if it finds nothing. -/
theorem le_of_lookup {r : ServiceRegistry} {path : String} {entry : ServiceEntry}
    (hmem : entry ∈ r.services.values) (hmatch : matchesPath entry.pathPrefix path = true) :
    entry.pathPrefix.utf8ByteSize ≤
      ((r.lookup path).map (·.pathPrefix.utf8ByteSize)).getD 0 := by
  have hlength := foldl_lookupStep_snd path r.services.values (none, 0) rfl
  have hle := (le_foldl_lookupStep path r.services.values (none, 0)).2 entry hmem hmatch
  exact hle.trans_eq hlength

/-- A prefix that matches a path starts the path. -/
theorem startsWith_of_matchesPath {pathPrefix path : String}
    (h : matchesPath pathPrefix path = true) : Text.startsWith path pathPrefix = true := by
  rw [Text.startsWith_iff]
  rcases Bool.or_eq_true _ _ |>.mp h with hsame | hbelow
  · rw [of_decide_eq_true hsame]
  · rw [Text.startsWith_iff, String.toList_append] at hbelow
    exact (List.prefix_append _ _).trans hbelow

end ServiceRegistry

end XiraNet

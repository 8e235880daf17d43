import Mathlib.Data.List.Nodup
import XiraNet.Lib.Runs
import XiraNet.Registry.Registry

/-!
# Durability of the registry

Histories of a registry with storage: registrations, removals, request log rows and restarts,
which rebuild the registry from the database. The history variables `gone` and `replacements`
record which services were unregistered or replaced, and by which.

* `ServiceRegistry.Mirrored`: memory and database hold the same services. Removing a service that
  no request log row references and adding one with a new id and prefix keep it.
* `runs_loadFromConfig`: the start from the configuration file is a run of its iterations.
* `durable_of_runs`: in a run of such steps no removed service comes back and every replacement
  stays, whatever restarts happen.
* `durable_fails`: a request log row keeps the row of an unregistered service in the database,
  and the next restart loads it again.
-/

namespace XiraNet

namespace ServiceRegistry

/-- Memory and database agree: the rows are those of the entries, under their own ids. -/
structure Mirrored (r : ServiceRegistry) (db : SqliteStorage) : Prop where
  storage : r.storage = some db
  unique : db.Unique
  ids : ∀ id entry, r.services.lookup id = some entry → entry.id = id
  rows : ∀ row, row ∈ db.services ↔ ∃ entry, r.services.lookup row.id = some entry ∧
    entry.toRow = row

/-- The row of an entry in memory is stored. -/
theorem Mirrored.toRow_mem {r : ServiceRegistry} {db : SqliteStorage} (h : r.Mirrored db)
    {id : Uuid} {entry : ServiceEntry} (hentry : r.services.lookup id = some entry) :
    entry.toRow ∈ db.services := by
  refine (h.rows _).mpr ⟨entry, ?_, rfl⟩
  have hid : entry.toRow.id = id := h.ids id entry hentry
  rw [hid]
  exact hentry

/-- The entries and rows of a mirrored registry have the same ids. -/
theorem Mirrored.lookup_isSome {r : ServiceRegistry} {db : SqliteStorage} (h : r.Mirrored db)
    (id : Uuid) : (r.services.lookup id).isSome ↔ ∃ row ∈ db.services, row.id = id := by
  constructor
  · intro hsome
    obtain ⟨entry, hentry⟩ := Option.isSome_iff_exists.mp hsome
    exact ⟨entry.toRow, h.toRow_mem hentry, h.ids id entry hentry⟩
  · rintro ⟨row, hrow, rfl⟩
    obtain ⟨entry, hentry, _⟩ := (h.rows row).mp hrow
    simp [hentry]

/-- No two entries of a mirrored registry share a prefix. -/
theorem Mirrored.eq_of_pathPrefix {r : ServiceRegistry} {db : SqliteStorage} (h : r.Mirrored db)
    {id id' : Uuid} {entry entry' : ServiceEntry} (hentry : r.services.lookup id = some entry)
    (hentry' : r.services.lookup id' = some entry')
    (hpath : entry.pathPrefix = entry'.pathPrefix) : id = id' := by
  have hrow : entry.toRow = entry'.toRow :=
    List.inj_on_of_nodup_map h.unique.prefixes (h.toRow_mem hentry) (h.toRow_mem hentry') hpath
  calc id = entry.toRow.id := (h.ids id entry hentry).symm
    _ = entry'.toRow.id := congrArg ServiceRow.id hrow
    _ = id' := h.ids id' entry' hentry'

/-- What a start loads under an id. -/
theorem lookup_withStorage {db : SqliteStorage} (hunique : db.Unique) (id : Uuid) :
    (withStorage db).services.lookup id =
      (db.services.find? fun row => row.id = id).map ServiceRow.toEntry := by
  have hkeys : db.loadAllServices.Pairwise fun e e' => e.id ≠ e'.id :=
    List.pairwise_map.mpr (List.pairwise_map.mp hunique.ids)
  unfold withStorage
  rw [DashMap.lookup_foldl_insert (fun e : ServiceEntry => e.id) _ _ _ hkeys]
  simp only [AList.lookup_empty, Option.or_none]
  exact List.find?_map

/-- A start loads exactly what is stored. -/
theorem mirrored_withStorage {db : SqliteStorage} (hunique : db.Unique) :
    (withStorage db).Mirrored db where
  storage := rfl
  unique := hunique
  ids := by
    intro id entry hentry
    rw [lookup_withStorage hunique] at hentry
    obtain ⟨row, hrow, rfl⟩ := Option.map_eq_some_iff.mp hentry
    have hid := List.find?_some hrow
    exact of_decide_eq_true hid
  rows := by
    intro row
    simp only [lookup_withStorage hunique, Option.map_eq_some_iff]
    constructor
    · intro hmem
      have hsome : (db.services.find? fun row' => row'.id = row.id).isSome := by
        simp only [List.find?_isSome]
        exact ⟨row, hmem, by simp⟩
      obtain ⟨row', hrow'⟩ := Option.isSome_iff_exists.mp hsome
      have hid : row'.id = row.id := by simpa using List.find?_some hrow'
      have heq : row' = row :=
        List.inj_on_of_nodup_map hunique.ids (List.mem_of_find?_eq_some hrow') hmem hid
      subst heq
      exact ⟨row'.toEntry, ⟨row', hrow', rfl⟩, rfl⟩
    · rintro ⟨entry, ⟨row', hrow', rfl⟩, rfl⟩
      exact List.mem_of_find?_eq_some hrow'

/-- Whether the database holds a request log row that references a service. -/
def referenced (r : ServiceRegistry) (id : Uuid) : Bool := r.storage.any (·.referenced id)

/-- Removing a service that nothing references, from memory and then from the database. -/
theorem Mirrored.erase {r : ServiceRegistry} {db : SqliteStorage} (h : r.Mirrored db)
    {id : Uuid} (hfree : r.referenced id = false) :
    ({ r with services := r.services.erase id }.persist (·.removeService id)).Mirrored
      { db with services := db.services.delete fun row => row.id = id } where
  storage := by
    have hdb : db.referenced id = false := by simpa [referenced, h.storage] using hfree
    simp [persist, h.storage, SqliteStorage.removeService_of_unreferenced hdb]
  unique := {
    ids := h.unique.ids.sublist (List.filter_sublist.map _)
    prefixes := h.unique.prefixes.sublist (List.filter_sublist.map _) }
  ids := by
    intro id' entry hentry
    exact h.ids id' entry (DashMap.lookup_erase_cases hentry).2
  rows := by
    intro row
    rw [Table.mem_delete, h.rows, services_persist, DashMap.lookup_erase]
    by_cases hid : row.id = id
    · simp [hid]
    · simp [hid]

/-- Adding a service with a new id and a new prefix, to the database and then to memory. -/
theorem Mirrored.insertEntry {r : ServiceRegistry} {db : SqliteStorage} (h : r.Mirrored db)
    {entry : ServiceEntry} (hid : r.services.lookup entry.id = none)
    (hpath : ∀ id e, r.services.lookup id = some e → e.pathPrefix ≠ entry.pathPrefix) :
    (r.insertEntry entry).Mirrored { db with services := db.services ++ [entry.toRow] } := by
  have hnew : ∀ row ∈ db.services, row.id ≠ entry.id ∧ row.pathPrefix ≠ entry.pathPrefix := by
    intro row hrow
    obtain ⟨e, he, rfl⟩ := (h.rows row).mp hrow
    refine ⟨fun heq => ?_, hpath _ e he⟩
    rw [heq, hid] at he
    cases he
  refine ⟨?_, ⟨?_, ?_⟩, ?_, ?_⟩
  · simp [ServiceRegistry.insertEntry, persist, h.storage, SqliteStorage.saveService_of_new hnew]
  · rw [List.map_append, List.nodup_append]
    refine ⟨h.unique.ids, by simp, ?_⟩
    rintro _ ha _ hb rfl
    obtain ⟨row, hrow, rfl⟩ := List.mem_map.mp ha
    simp only [List.map_cons, List.map_nil, List.mem_singleton] at hb
    exact (hnew row hrow).1 hb
  · rw [List.map_append, List.nodup_append]
    refine ⟨h.unique.prefixes, by simp, ?_⟩
    rintro _ ha _ hb rfl
    obtain ⟨row, hrow, rfl⟩ := List.mem_map.mp ha
    simp only [List.map_cons, List.map_nil, List.mem_singleton] at hb
    exact (hnew row hrow).2 hb
  · exact DashMap.keyed_insert h.ids entry
  · intro row
    rw [List.mem_append, List.mem_singleton, ServiceRegistry.insertEntry, DashMap.lookup_insert,
      h.rows, services_persist]
    split
    next heq =>
      constructor
      · rintro (⟨e, he, rfl⟩ | rfl)
        · rw [heq, hid] at he
          cases he
        · exact ⟨entry, rfl, rfl⟩
      · rintro ⟨e, he, rfl⟩
        cases he
        exact .inr rfl
    next hne =>
      constructor
      · rintro (hold | rfl)
        · exact hold
        · exact absurd rfl hne
      · exact .inl

/-- A request log row changes neither the services nor their rows. -/
theorem Mirrored.logRequest {r : ServiceRegistry} {db : SqliteStorage} (h : r.Mirrored db)
    (log : RequestLogRow) : ∃ db', (r.persist (·.logRequest log)).Mirrored db' := by
  have hservices : ((db.logRequest log).getD db).services = db.services := by
    unfold SqliteStorage.logRequest
    split
    next => rfl
    next => rfl
  refine ⟨(db.logRequest log).getD db, ?_, ⟨?_, ?_⟩, h.ids, ?_⟩
  · simp [persist, h.storage]
  · rw [hservices]
    exact h.unique.ids
  · rw [hservices]
    exact h.unique.prefixes
  · rw [hservices]
    exact h.rows

/-- For every prefix but the empty string, `find_by_prefix` looks for the form that a
registration stores. -/
theorem findByPrefix_eq {r : ServiceRegistry} {pathPrefix : String} (h : pathPrefix ≠ "") :
    r.findByPrefix pathPrefix =
      r.services.values.find? fun entry =>
        entry.pathPrefix = ServiceEntry.normalizePrefix pathPrefix := by
  unfold findByPrefix ServiceEntry.normalizePrefix
  by_cases hslash : Text.startsWith pathPrefix "/" = true
  · simp [hslash]
  -- Without a leading slash the two forms differ only in the order of their two steps.
  · have hchar : ∃ x ∈ pathPrefix.toList, x ≠ '/' := by
      cases hl : pathPrefix.toList with
      | nil => exact absurd (String.toList_eq_nil_iff.mp hl) h
      | cons c cs =>
          refine ⟨c, List.mem_cons_self, fun hc => hslash ?_⟩
          simp [Text.startsWith, hl, hc]
    simp [hslash, Text.trimEndMatches_append "/" hchar]

/-- What `find_by_prefix` finds is in memory. -/
theorem Mirrored.lookup_of_findByPrefix {r : ServiceRegistry} {db : SqliteStorage}
    (h : r.Mirrored db) {pathPrefix : String} {existing : ServiceEntry}
    (hfind : r.findByPrefix pathPrefix = some existing) :
    r.services.lookup existing.id = some existing := by
  have hmem : existing ∈ r.services.values := List.mem_of_find?_eq_some hfind
  obtain ⟨id, hid⟩ := (DashMap.mem_values_iff _ _).mp hmem
  rwa [h.ids id existing hid]

/-- The prefix `""` is looked up as `/` but stored as `""`: registering it next to a service with
the prefix `""` makes two services of one prefix. -/
def NoEmptyClash (r : ServiceRegistry) (pathPrefix : String) : Prop :=
  pathPrefix = "" → ∀ entry ∈ r.services.values, entry.pathPrefix ≠ ""

instance (r : ServiceRegistry) (pathPrefix : String) : Decidable (r.NoEmptyClash pathPrefix) := by
  unfold NoEmptyClash
  infer_instance

/-- When `find_by_prefix` finds nothing, no service has the prefix that will be stored. -/
theorem pathPrefix_ne_of_findByPrefix_none {r : ServiceRegistry} {pathPrefix : String}
    (hclash : r.NoEmptyClash pathPrefix) (hfind : r.findByPrefix pathPrefix = none) {id : Uuid}
    {entry : ServiceEntry} (hentry : r.services.lookup id = some entry) :
    entry.pathPrefix ≠ ServiceEntry.normalizePrefix pathPrefix := by
  have hmem : entry ∈ r.services.values := (DashMap.mem_values_iff _ _).mpr ⟨id, hentry⟩
  by_cases hempty : pathPrefix = ""
  · subst hempty
    exact hclash rfl entry hmem
  · rw [findByPrefix_eq hempty, List.find?_eq_none] at hfind
    simpa using hfind entry hmem

/-- What `register` and `register_advanced` do before they insert: if no request log row
references the service they replace, it is gone from memory and database, and the prefix is
free. -/
theorem Mirrored.replaceExisting {r : ServiceRegistry} {db : SqliteStorage} (h : r.Mirrored db)
    {pathPrefix : String} (hclash : r.NoEmptyClash pathPrefix)
    (hfree : ∀ existing ∈ r.findByPrefix pathPrefix, r.referenced existing.id = false) :
    ∃ db', (r.replaceExisting pathPrefix).Mirrored db' ∧
      (∀ id, (r.replaceExisting pathPrefix).services.lookup id =
        if ∃ existing ∈ r.findByPrefix pathPrefix, existing.id = id then none
        else r.services.lookup id) ∧
      ∀ id entry, (r.replaceExisting pathPrefix).services.lookup id = some entry →
        entry.pathPrefix ≠ ServiceEntry.normalizePrefix pathPrefix := by
  unfold ServiceRegistry.replaceExisting
  cases hfind : r.findByPrefix pathPrefix with
  | none =>
      exact ⟨db, h, by simp, fun id entry => pathPrefix_ne_of_findByPrefix_none hclash hfind⟩
  | some existing =>
      have hold := h.lookup_of_findByPrefix hfind
      refine ⟨_, h.erase (hfree existing hfind), fun id => ?_, fun id entry hentry => ?_⟩
      -- Memory and database keep prefixes apart, so only the service found had this one.
      · rw [services_persist, DashMap.lookup_erase]
        simp [eq_comm]
      · obtain ⟨hne, hkept⟩ := DashMap.lookup_erase_cases hentry
        intro heq
        by_cases hempty : pathPrefix = ""
        · subst hempty
          exact hclash rfl entry ((DashMap.mem_values_iff _ _).mpr ⟨id, hkept⟩) heq
        · rw [findByPrefix_eq hempty] at hfind
          have hexisting : existing.pathPrefix = ServiceEntry.normalizePrefix pathPrefix := by
            simpa using List.find?_some hfind
          exact hne (h.eq_of_pathPrefix hkept hold (heq.trans hexisting.symm))

end ServiceRegistry

/-- A registry with storage and its history. -/
structure RegistryHistory where
  registry : ServiceRegistry
  /-- The ids drawn so far. -/
  issued : List Uuid
  /-- The services that were unregistered or replaced. -/
  gone : List Uuid
  /-- The services that were registered in the place of another one. -/
  replacements : List Uuid

/-- One operation of a history. -/
inductive RegistryAction
  | register (id : Uuid) (now : DateTime) (name pathPrefix upstream healthEndpoint : String)
  | registerAdvanced (id : Uuid) (now : DateTime) (req : RegisterServiceRequest)
  /-- One iteration of `load_from_config`. -/
  | loadEntry (id : Uuid) (now : DateTime) (svc : ServiceConfig)
  | unregister (id : Uuid)
  /-- A row of the request logger, for no service or for one that exists now. -/
  | logRequest (log : RequestLogRow)
  /-- A new registry on the same database. -/
  | restart
  deriving DecidableEq, Repr

namespace RegistryHistory

/-- A registry on a database, before any operation. -/
def initial (db : SqliteStorage) : RegistryHistory where
  registry := .withStorage db
  issued := db.services.map (·.id)
  gone := []
  replacements := []

/-- A registration under a prefix, which replaces the service `find_by_prefix` finds. -/
def replace (s : RegistryHistory) (id : Uuid) (pathPrefix : String)
    (registry : ServiceRegistry) : Option RegistryHistory :=
  if id ∈ s.issued then none
  else some {
    registry
    issued := id :: s.issued
    gone := ((s.registry.findByPrefix pathPrefix).map (·.id)).toList ++ s.gone
    replacements :=
      if (s.registry.findByPrefix pathPrefix).isSome then id :: s.replacements
      else s.replacements }

/-- One operation. A drawn id is never drawn again. -/
def step (s : RegistryHistory) : RegistryAction → Option RegistryHistory
  | .register id now name pathPrefix upstream healthEndpoint =>
      s.replace id pathPrefix (s.registry.register id now name pathPrefix upstream healthEndpoint).2
  | .registerAdvanced id now req =>
      s.replace id req.pathPrefix (s.registry.registerAdvanced id now req).2
  | .loadEntry id now svc =>
      if id ∈ s.issued then none
      else some { s with registry := s.registry.loadEntry id now svc, issued := id :: s.issued }
  | .unregister id =>
      some { s with
        registry := (s.registry.unregister id).2
        gone := ((s.registry.unregister id).1.map fun _ => id).toList ++ s.gone }
  | .logRequest log =>
      if ∀ id ∈ log.serviceId, (s.registry.services.lookup id).isSome then
        some { s with registry := s.registry.persist (·.logRequest log) }
      else none
  | .restart => some { s with registry := (s.registry.storage.map .withStorage).getD .new }

/-- Every history of operations, request logs and restarts. -/
def machine : Machine RegistryHistory RegistryAction := ⟨step⟩

/-- No unregistered or replaced service is in the registry, and every replacement that was not
itself unregistered or replaced is. -/
def Durable (s : RegistryHistory) : Prop :=
  (∀ id ∈ s.gone, s.registry.services.lookup id = none) ∧
    ∀ id ∈ s.replacements, id ∉ s.gone → (s.registry.services.lookup id).isSome

/-- The steps that are durable: no request log row references the service that is removed, and
the prefix `""` is not registered next to a service with the prefix `""`. -/
def KeepsDurable (s : RegistryHistory) : RegistryAction → Prop
  | .register _ _ _ pathPrefix _ _ =>
      s.registry.NoEmptyClash pathPrefix ∧
        ∀ existing ∈ s.registry.findByPrefix pathPrefix,
          s.registry.referenced existing.id = false
  | .registerAdvanced _ _ req =>
      s.registry.NoEmptyClash req.pathPrefix ∧
        ∀ existing ∈ s.registry.findByPrefix req.pathPrefix,
          s.registry.referenced existing.id = false
  | .loadEntry _ _ svc => s.registry.NoEmptyClash svc.pathPrefix
  | .unregister id =>
      (s.registry.services.lookup id).isSome → s.registry.referenced id = false
  | .logRequest _ => True
  | .restart => True

instance (s : RegistryHistory) (a : RegistryAction) : Decidable (s.KeepsDurable a) := by
  cases a <;> unfold KeepsDurable <;> infer_instance

/-- The invariant: memory and database agree, ids are fresh and nothing removed is left. -/
structure Inv (s : RegistryHistory) : Prop where
  mirrored : ∃ db, s.registry.Mirrored db
  fresh : ∀ id, (s.registry.services.lookup id).isSome → id ∈ s.issued
  goneIssued : ∀ id ∈ s.gone, id ∈ s.issued
  durable : s.Durable

/-- The invariant holds on every database that meets its own constraints. -/
theorem inv_initial {db : SqliteStorage} (hunique : db.Unique) : (initial db).Inv where
  mirrored := ⟨db, ServiceRegistry.mirrored_withStorage hunique⟩
  fresh := by
    intro id hsome
    obtain ⟨row, hrow, rfl⟩ :=
      ((ServiceRegistry.mirrored_withStorage hunique).lookup_isSome id).mp hsome
    exact List.mem_map_of_mem hrow
  goneIssued := by simp [initial]
  durable := by simp [Durable, initial]

/-- Making room for a new service and storing it: the registry stays mirrored, the replaced
service is gone, the new one is there and the others are as before. -/
theorem replaceExisting_insertEntry {r : ServiceRegistry} {db : SqliteStorage}
    (h : r.Mirrored db) {pathPrefix : String} {entry : ServiceEntry}
    (hentry : entry.pathPrefix = ServiceEntry.normalizePrefix pathPrefix)
    (hnew : r.services.lookup entry.id = none) (hclash : r.NoEmptyClash pathPrefix)
    (hfree : ∀ existing ∈ r.findByPrefix pathPrefix, r.referenced existing.id = false) :
    ∃ db', ((r.replaceExisting pathPrefix).insertEntry entry).Mirrored db' ∧
      ∀ id, ((r.replaceExisting pathPrefix).insertEntry entry).services.lookup id =
        if id = entry.id then some entry
        else if ∃ existing ∈ r.findByPrefix pathPrefix, existing.id = id then none
        else r.services.lookup id := by
  obtain ⟨db', hmirrored, hlookup, hpath⟩ := h.replaceExisting hclash hfree
  have hnew' : (r.replaceExisting pathPrefix).services.lookup entry.id = none := by
    rw [hlookup]
    split
    next => rfl
    next => exact hnew
  refine ⟨_, hmirrored.insertEntry hnew' fun id e he => ?_, fun id => ?_⟩
  · rw [hentry]
    exact hpath id e he
  · rw [ServiceRegistry.insertEntry, DashMap.lookup_insert, ServiceRegistry.services_persist,
      hlookup]

/-- A registration keeps the invariant. -/
theorem inv_replace {s s' : RegistryHistory} (hs : s.Inv) {id : Uuid} {pathPrefix : String}
    (entry : ServiceEntry) (hid : entry.id = id)
    (hentry : entry.pathPrefix = ServiceEntry.normalizePrefix pathPrefix)
    (hclash : s.registry.NoEmptyClash pathPrefix)
    (hfree : ∀ existing ∈ s.registry.findByPrefix pathPrefix,
      s.registry.referenced existing.id = false)
    (h : s.replace id pathPrefix ((s.registry.replaceExisting pathPrefix).insertEntry entry) =
      some s') : s'.Inv := by
  subst hid
  obtain ⟨db, hmirrored⟩ := hs.mirrored
  unfold replace at h
  split at h
  next => cases h
  next hfresh =>
    cases h
    have hnew : s.registry.services.lookup entry.id = none :=
      Option.not_isSome_iff_eq_none.mp fun hsome => hfresh (hs.fresh _ hsome)
    obtain ⟨db', hmirrored', hlookup⟩ :=
      replaceExisting_insertEntry hmirrored hentry hnew hclash hfree
    -- What is gone now was issued before, so it is not the new service.
    have hgone : ∀ id ∈ ((s.registry.findByPrefix pathPrefix).map (·.id)).toList ++ s.gone,
        id ∈ s.issued ∧ ((∃ existing ∈ s.registry.findByPrefix pathPrefix, existing.id = id) ∨
          id ∈ s.gone) := by
      intro id hid
      rcases List.mem_append.mp hid with hnow | hbefore
      · obtain ⟨existing, hfind, rfl⟩ : ∃ existing,
            s.registry.findByPrefix pathPrefix = some existing ∧ existing.id = id := by
          simpa [Option.map_eq_some_iff] using hnow
        have hlook := hmirrored.lookup_of_findByPrefix hfind
        exact ⟨hs.fresh _ (by simp [hlook]), .inl ⟨existing, hfind, rfl⟩⟩
      · exact ⟨hs.goneIssued id hbefore, .inr hbefore⟩
    refine ⟨⟨db', hmirrored'⟩, fun id hsome => ?_, fun id hid => ?_, fun id hid => ?_,
      fun id hrepl hkept => ?_⟩
    · rw [hlookup] at hsome
      split at hsome
      next heq => exact List.mem_cons.mpr (.inl heq)
      next =>
        split at hsome
        next => cases hsome
        next => exact List.mem_cons_of_mem _ (hs.fresh id hsome)
    · exact List.mem_cons_of_mem _ (hgone id hid).1
    · obtain ⟨hissued, hwhy⟩ := hgone id hid
      have hne : id ≠ entry.id := by
        rintro rfl
        exact hfresh hissued
      rw [hlookup, if_neg hne]
      split
      next => rfl
      next hother => exact hs.durable.1 id (hwhy.resolve_left hother)
    · rw [hlookup]
      split
      next => rfl
      next hne =>
        have hold : id ∈ s.replacements := by
          dsimp only at hrepl
          split at hrepl
          next => exact (List.mem_cons.mp hrepl).resolve_left hne
          next => exact hrepl
        split
        next hreplaced =>
          obtain ⟨existing, hfind, hid⟩ := hreplaced
          refine absurd (List.mem_append_left _ ?_) hkept
          rw [Option.mem_def.mp hfind]
          simp [hid]
        next =>
          exact hs.durable.2 id hold fun hgone' => hkept (List.mem_append_right _ hgone')

/-- A step that changes neither the services in memory nor the history keeps the invariant if
memory and database still agree. -/
theorem Inv.of_services_eq {s s' : RegistryHistory} (hs : s.Inv)
    (hlookup : ∀ id, (s'.registry.services.lookup id).isSome ↔
      (s.registry.services.lookup id).isSome)
    (hissued : s'.issued = s.issued) (hgone : s'.gone = s.gone)
    (hreplacements : s'.replacements = s.replacements)
    (hmirrored : ∃ db, s'.registry.Mirrored db) : s'.Inv where
  mirrored := hmirrored
  fresh id hsome := hissued ▸ hs.fresh id ((hlookup id).mp hsome)
  goneIssued id hid := hissued ▸ hs.goneIssued id (hgone ▸ hid)
  durable := by
    refine ⟨fun id hid => ?_, fun id hid hkept => ?_⟩
    · have hnone := hs.durable.1 id (hgone ▸ hid)
      have := (hlookup id).not
      simpa [hnone] using this
    · rw [hlookup]
      exact hs.durable.2 id (hreplacements ▸ hid) (hgone ▸ hkept)

/-- A removal keeps the invariant: the removed service is gone and the others are as before. -/
theorem inv_unregister {s s' : RegistryHistory} (hs : s.Inv) {id : Uuid}
    (hok : s.KeepsDurable (.unregister id)) (h : s.step (.unregister id) = some s') : s'.Inv := by
  obtain ⟨db, hmirrored⟩ := hs.mirrored
  cases h
  cases hlook : s.registry.services.lookup id with
  | none => simpa [ServiceRegistry.unregister, hlook] using hs
  | some entry =>
      have hid : entry.id = id := hmirrored.ids id entry hlook
      subst hid
      have hfree := hok (by simp [hlook])
      simp only [ServiceRegistry.unregister, hlook]
      refine ⟨⟨_, hmirrored.erase hfree⟩, fun id hsome => ?_, fun id hid => ?_,
        fun id hid => ?_, fun id hrepl hkept => ?_⟩
      · rw [ServiceRegistry.services_persist, DashMap.lookup_erase] at hsome
        split at hsome
        next => cases hsome
        next => exact hs.fresh id hsome
      · rcases List.mem_cons.mp hid with rfl | hbefore
        · exact hs.fresh _ (by simp [hlook])
        · exact hs.goneIssued id hbefore
      · rw [ServiceRegistry.services_persist, DashMap.lookup_erase]
        rcases List.mem_cons.mp hid with rfl | hbefore
        · simp
        · simp [hs.durable.1 id hbefore]
      · rw [ServiceRegistry.services_persist, DashMap.lookup_erase, if_neg]
        · exact hs.durable.2 id hrepl fun hbefore => hkept (List.mem_cons_of_mem _ hbefore)
        · rintro rfl
          exact hkept List.mem_cons_self

/-- Every durable step keeps the invariant. -/
theorem inv_step (s : RegistryHistory) (a : RegistryAction) (s' : RegistryHistory) (hs : s.Inv)
    (hok : s.KeepsDurable a) (h : s.step a = some s') : s'.Inv := by
  obtain ⟨db, hmirrored⟩ := hs.mirrored
  cases a with
  | register id now name pathPrefix upstream healthEndpoint =>
      exact inv_replace hs (.new id now name pathPrefix upstream healthEndpoint) rfl rfl
        hok.1 hok.2 h
  | registerAdvanced id now req =>
      exact inv_replace hs (ServiceRegistry.entryOfRequest id now req) rfl rfl hok.1 hok.2 h
  | loadEntry id now svc =>
      cases hfind : s.registry.findByPrefix svc.pathPrefix with
      | some existing =>
          simp only [step, ServiceRegistry.loadEntry, hfind, Option.isSome_some, if_true] at h
          split at h
          next => cases h
          next =>
            cases h
            exact {
              mirrored := hs.mirrored
              fresh := fun id hsome => List.mem_cons_of_mem _ (hs.fresh id hsome)
              goneIssued := fun id hid => List.mem_cons_of_mem _ (hs.goneIssued id hid)
              durable := hs.durable }
      | none =>
          -- Nothing is replaced, so this is a registration that found the prefix free.
          have hreplace : s.replace id svc.pathPrefix
              ((s.registry.replaceExisting svc.pathPrefix).insertEntry
                (ServiceRegistry.entryOfConfig id now svc)) = some s' := by
            simpa [step, replace, ServiceRegistry.loadEntry, ServiceRegistry.replaceExisting,
              hfind] using h
          exact inv_replace hs (ServiceRegistry.entryOfConfig id now svc) rfl rfl hok
            (by simp [hfind]) hreplace
  | unregister id => exact inv_unregister hs hok h
  | logRequest log =>
      simp only [step] at h
      split at h
      next =>
        cases h
        obtain ⟨db', hmirrored'⟩ := hmirrored.logRequest log
        exact hs.of_services_eq (fun _ => Iff.rfl) rfl rfl rfl ⟨db', hmirrored'⟩
      next => cases h
  | restart =>
      cases h
      have hreload := ServiceRegistry.mirrored_withStorage hmirrored.unique
      have hregistry : (s.registry.storage.map ServiceRegistry.withStorage).getD .new =
          .withStorage db := by simp [hmirrored.storage]
      rw [hregistry]
      refine hs.of_services_eq (fun id => ?_) rfl rfl rfl ⟨db, hreload⟩
      rw [hreload.lookup_isSome, hmirrored.lookup_isSome]

/-- `load_from_config` is a run of its iterations, if it draws new ids. -/
theorem runs_loadFromConfig (svcs : List (Uuid × DateTime × ServiceConfig)) (s : RegistryHistory)
    (hdistinct : (svcs.map (·.1)).Nodup) (hfresh : ∀ svc ∈ svcs, svc.1 ∉ s.issued) :
    ∃ s', machine.Runs Machine.unrestricted s
        (svcs.map fun svc => .loadEntry svc.1 svc.2.1 svc.2.2) s' ∧
      s'.registry = s.registry.loadFromConfig svcs ∧ s'.gone = s.gone := by
  induction svcs generalizing s with
  | nil => exact ⟨s, .nil s, rfl, rfl⟩
  | cons svc svcs ih =>
      obtain ⟨hnew, hrest⟩ := List.nodup_cons.mp hdistinct
      let mid : RegistryHistory :=
        { s with
          registry := s.registry.loadEntry svc.1 svc.2.1 svc.2.2
          issued := svc.1 :: s.issued }
      have hstep : machine.step s (.loadEntry svc.1 svc.2.1 svc.2.2) = some mid :=
        if_neg (hfresh svc List.mem_cons_self)
      have hmid : ∀ svc' ∈ svcs, svc'.1 ∉ mid.issued := by
        intro svc' hmem hissued
        rcases List.mem_cons.mp hissued with heq | hold
        · exact hnew (List.mem_map.mpr ⟨svc', hmem, heq⟩)
        · exact hfresh svc' (List.mem_cons_of_mem _ hmem) hold
      obtain ⟨s', hrun, hregistry, hgone⟩ := ih mid hrest hmid
      exact ⟨s', .cons trivial hstep hrun, hregistry, hgone⟩

/-- In every run whose steps remove only services that no request log row references, and never
register the prefix `""` next to a service with the prefix `""`, no unregistered or replaced
service is in the registry and every replacement is. -/
theorem durable_of_runs (db : SqliteStorage) (hunique : db.Unique) (as : List RegistryAction)
    (s : RegistryHistory) (hrun : machine.Runs KeepsDurable (initial db) as s) : s.Durable :=
  (hrun.invariant inv_step (inv_initial hunique)).durable

/-- A logged request for one service, the replacement of another one and a restart. -/
def replacingRun : List RegistryAction :=
  [.register 1 0 "a" "/a" "http://10.0.0.1" "/health",
    .register 2 0 "b" "b/" "http://10.0.0.2" "/health",
    .logRequest ⟨some 1, "GET", "/a/x", 200, 3, "10.1.1.1", 5⟩,
    .register 3 9 "b" "/b" "http://10.0.0.3/" "/health",
    .restart]

/-- The durability of a run with a replacement, a request log row and a restart. -/
theorem durable_replacingRun :
    ∃ s, machine.Runs KeepsDurable (initial .empty) replacingRun s ∧ s.Durable := by
  obtain ⟨s, hs⟩ : ∃ s, machine.exec KeepsDurable (initial .empty) replacingRun = some s :=
    Option.isSome_iff_exists.mp (by decide)
  have hrun := Machine.runs_of_exec hs
  have hunique : SqliteStorage.empty.Unique := ⟨List.nodup_nil, List.nodup_nil⟩
  exact ⟨s, hrun, durable_of_runs .empty hunique replacingRun s hrun⟩

/-- A service is used once, unregistered, and the gateway restarts. -/
def resurrectingRun : List RegistryAction :=
  [.register 1 0 "a" "/a" "http://10.0.0.1" "/health",
    .logRequest ⟨some 1, "GET", "/a/x", 200, 3, "10.1.1.1", 5⟩,
    .unregister 1,
    .restart]

/-- Without the condition on the request logs the unregistered service is back after a
restart. -/
theorem durable_fails :
    ¬ ∀ (db : SqliteStorage) (as : List RegistryAction) (s : RegistryHistory), db.Unique →
      machine.Runs Machine.unrestricted (initial db) as s → s.Durable := by
  intro hall
  have hend : ∃ s, machine.exec Machine.unrestricted (initial .empty) resurrectingRun = some s ∧
      1 ∈ s.gone ∧ (s.registry.services.lookup 1).isSome := by
    refine ⟨_, rfl, ?_, ?_⟩ <;> decide
  obtain ⟨s, hs, hgone, hback⟩ := hend
  have hdurable := hall .empty resurrectingRun s ⟨List.nodup_nil, List.nodup_nil⟩
    (Machine.runs_of_exec hs)
  rw [hdurable.1 1 hgone] at hback
  cases hback

end RegistryHistory

end XiraNet

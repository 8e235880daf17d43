import XiraNet.Registry.Durability

/-!
# Restarts of the registry

While no request log row holds a service in the database, and every registered prefix is more than
slashes, a restart cannot be told from the outside: memory and database hold the same services at
every moment, and a registry started on the database answers every `lookup` as the one before it.

* `lookup_eq_of_mirrored`: two registries that mirror one database answer every `lookup` alike,
  whatever the order of their services.
* `transparent_of_runs`: restart transparency of every run.
-/

namespace XiraNet

/-- A service and a row with the same content. -/
structure SameService (entry : ServiceEntry) (row : ServiceRow) : Prop where
  id : entry.id = row.id
  name : entry.name = row.name
  pathPrefix : entry.pathPrefix = row.pathPrefix
  upstream : entry.upstream = row.upstream
  healthEndpoint : entry.healthEndpoint = row.healthEndpoint
  upstreams : entry.upstreams = row.upstreams
  loadBalance : entry.loadBalance = row.loadBalance
  version : entry.version = row.version
  validationSchema : entry.validationSchema = row.validationSchema
  ipWhitelist : entry.ipWhitelist = row.ipWhitelist
  ipBlacklist : entry.ipBlacklist = row.ipBlacklist
  transform : entry.transform = row.transform

/-- The services in memory and the rows of the table are the same, and a registry started on the
database answers every `lookup` with the same service, in whatever order it holds the services. -/
structure Transparent (r : ServiceRegistry) (db : SqliteStorage) : Prop where
  storage : r.storage = some db
  stored : ∀ id entry, r.services.lookup id = some entry →
    ∃ row ∈ db.services, row.id = id ∧ SameService entry row
  loaded : ∀ row ∈ db.services, ∃ entry, r.services.lookup row.id = some entry ∧
    SameService entry row
  unique : (db.services.map (·.id)).Nodup
  restart : ∀ services, services.entries.Perm (ServiceRegistry.withStorage db).services.entries →
    ∀ path, ((ServiceRegistry.mk services (some db)).lookup path).map ServiceEntry.toRow =
      (r.lookup path).map ServiceEntry.toRow

/-- An entry has the content of its row. -/
theorem sameService_toRow (entry : ServiceEntry) : SameService entry entry.toRow := by
  constructor <;> rfl

namespace ServiceRegistry

/-- An entry that one mirror of a database finds is matched by an entry of every other. -/
theorem Mirrored.exists_of_mem {r r' : ServiceRegistry} {db : SqliteStorage} (h : r.Mirrored db)
    (h' : r'.Mirrored db) {entry : ServiceEntry} (hmem : entry ∈ r.services.values) :
    ∃ entry' ∈ r'.services.values, entry'.toRow = entry.toRow := by
  obtain ⟨id, hid⟩ := (DashMap.mem_values_iff _ _).mp hmem
  obtain ⟨entry', hentry', hrow⟩ := (h'.rows _).mp (h.toRow_mem hid)
  exact ⟨entry', (DashMap.mem_values_iff _ _).mpr ⟨_, hentry'⟩, hrow⟩

/-- What one mirror of a database answers, the other one answers with a prefix at least as long. -/
theorem Mirrored.size_lookup_le {r r' : ServiceRegistry} {db : SqliteStorage} (h : r.Mirrored db)
    (h' : r'.Mirrored db) (path : String) :
    ((r.lookup path).map (·.pathPrefix.utf8ByteSize)).getD 0 ≤
      ((r'.lookup path).map (·.pathPrefix.utf8ByteSize)).getD 0 := by
  cases hfound : r.lookup path with
  | none => exact Nat.zero_le _
  | some entry =>
      obtain ⟨hmem, hmatch, -⟩ := lookup_eq_some hfound
      obtain ⟨entry', hmem', hrow⟩ := h.exists_of_mem h' hmem
      have hpath : entry'.pathPrefix = entry.pathPrefix := congrArg ServiceRow.pathPrefix hrow
      rw [← hpath] at hmatch
      have hle := le_of_lookup hmem' hmatch
      rwa [hpath] at hle

/-- Two registries that mirror one database answer every `lookup` alike. -/
theorem lookup_eq_of_mirrored {r r' : ServiceRegistry} {db : SqliteStorage} (h : r.Mirrored db)
    (h' : r'.Mirrored db) (path : String) :
    (r.lookup path).map ServiceEntry.toRow = (r'.lookup path).map ServiceEntry.toRow := by
  have hsize := Nat.le_antisymm (h.size_lookup_le h' path) (h'.size_lookup_le h path)
  have hpositive : ∀ {r : ServiceRegistry} {entry : ServiceEntry}, r.lookup path = some entry →
      entry.pathPrefix.utf8ByteSize ≠ 0 := fun hfound hzero =>
    (lookup_eq_some hfound).2.2 (String.utf8ByteSize_eq_zero_iff.mp hzero)
  cases hfound : r.lookup path with
  | none =>
      cases hfound' : r'.lookup path with
      | none => rfl
      | some entry' =>
          rw [hfound, hfound'] at hsize
          exact absurd hsize.symm (hpositive hfound')
  | some entry =>
      cases hfound' : r'.lookup path with
      | none =>
          rw [hfound, hfound'] at hsize
          exact absurd hsize (hpositive hfound)
      | some entry' =>
          rw [hfound, hfound'] at hsize
          obtain ⟨hmem, hmatch, -⟩ := lookup_eq_some hfound
          obtain ⟨hmem', hmatch', -⟩ := lookup_eq_some hfound'
          -- Two prefixes of one path with the same size are the same prefix.
          have hpath : entry.pathPrefix = entry'.pathPrefix :=
            Text.eq_of_startsWith (startsWith_of_matchesPath hmatch)
              (startsWith_of_matchesPath hmatch') hsize
          obtain ⟨twin, htwin, hrow⟩ := h'.exists_of_mem h hmem'
          obtain ⟨id, hid⟩ := (DashMap.mem_values_iff _ _).mp hmem
          obtain ⟨id', hid'⟩ := (DashMap.mem_values_iff _ _).mp htwin
          have heq : id = id' := h.eq_of_pathPrefix hid hid'
            (hpath.trans (congrArg ServiceRow.pathPrefix hrow).symm)
          subst heq
          obtain rfl : entry = twin := Option.some.inj (hid.symm.trans hid')
          exact congrArg some hrow

/-- The order of the services does not matter to a mirror. -/
theorem Mirrored.of_perm {r : ServiceRegistry} {db : SqliteStorage} (h : r.Mirrored db)
    {services : DashMap Uuid ServiceEntry} (hperm : services.entries.Perm r.services.entries) :
    (ServiceRegistry.mk services (some db)).Mirrored db := by
  have hlookup : ∀ id, services.lookup id = r.services.lookup id :=
    fun id => AList.perm_lookup hperm
  refine ⟨rfl, h.unique, fun id entry hentry => h.ids id entry (hlookup id ▸ hentry), fun row => ?_⟩
  rw [h.rows, ← hlookup]

/-- A registry that mirrors its database is not changed by a restart. -/
theorem Mirrored.transparent {r : ServiceRegistry} {db : SqliteStorage} (h : r.Mirrored db) :
    Transparent r db where
  storage := h.storage
  stored id entry hentry := ⟨entry.toRow, h.toRow_mem hentry, h.ids id entry hentry,
    sameService_toRow entry⟩
  loaded row hrow := by
    obtain ⟨entry, hentry, rfl⟩ := (h.rows row).mp hrow
    exact ⟨entry, hentry, sameService_toRow entry⟩
  unique := h.unique.ids
  restart services hperm path :=
    lookup_eq_of_mirrored ((mirrored_withStorage h.unique).of_perm hperm) h path

/-- The database of a registry, if it has one, holds no request log rows. -/
def LogFree (r : ServiceRegistry) : Prop := ∀ db ∈ r.storage, db.requestLogs = []

/-- A database call that leaves the request log rows alone. -/
theorem LogFree.persist {r : ServiceRegistry} {call : SqliteStorage → Option SqliteStorage}
    (h : r.LogFree) (hcall : ∀ db, ((call db).getD db).requestLogs = db.requestLogs) :
    (r.persist call).LogFree := by
  intro db hdb
  obtain ⟨db', hdb', rfl⟩ := Option.map_eq_some_iff.mp hdb
  rw [hcall, h db' hdb']

/-- Storing a service leaves the request log rows alone. -/
theorem LogFree.insertEntry {r : ServiceRegistry} (h : r.LogFree) (entry : ServiceEntry) :
    (r.insertEntry entry).LogFree := by
  refine h.persist fun db => ?_
  unfold SqliteStorage.saveService
  cases db.services.insertOrReplaceRestrict (fun r => db.referenced r.id) ServiceRow.conflict
    entry.toRow <;> rfl

/-- Removing a service leaves the request log rows alone. -/
theorem LogFree.removeService {r : ServiceRegistry} (h : r.LogFree) (id : Uuid) :
    (r.persist (·.removeService id)).LogFree := by
  refine h.persist fun db => ?_
  unfold SqliteStorage.removeService
  cases db.services.deleteRestrict (fun r => db.referenced r.id) fun r => r.id = id <;> rfl

/-- Without request log rows nothing references a service. -/
theorem LogFree.referenced {r : ServiceRegistry} (h : r.LogFree) (id : Uuid) :
    r.referenced id = false := by
  unfold ServiceRegistry.referenced
  cases hstorage : r.storage with
  | none => rfl
  | some db => simp [SqliteStorage.referenced, h db hstorage]

end ServiceRegistry

namespace RegistryHistory

/-- A prefix that is more than slashes. -/
def NamesSegment (pathPrefix : String) : Prop := ∃ c ∈ pathPrefix.toList, c ≠ '/'

instance (pathPrefix : String) : Decidable (NamesSegment pathPrefix) :=
  List.decidableBEx (· ≠ '/') pathPrefix.toList

/-- The operations of the registry, under prefixes that are more than slashes, and restarts. -/
def WithoutLogs (_ : RegistryHistory) : RegistryAction → Prop
  | .register _ _ _ pathPrefix _ _ => NamesSegment pathPrefix
  | .registerAdvanced _ _ req => NamesSegment req.pathPrefix
  | .loadEntry _ _ svc => NamesSegment svc.pathPrefix
  | .unregister _ => True
  | .logRequest _ => False
  | .restart => True

instance (s : RegistryHistory) (a : RegistryAction) : Decidable (s.WithoutLogs a) :=
  match a with
  | .register _ _ _ pathPrefix _ _ => inferInstanceAs (Decidable (NamesSegment pathPrefix))
  | .registerAdvanced _ _ req => inferInstanceAs (Decidable (NamesSegment req.pathPrefix))
  | .loadEntry _ _ svc => inferInstanceAs (Decidable (NamesSegment svc.pathPrefix))
  | .unregister _ | .restart => inferInstanceAs (Decidable True)
  | .logRequest _ => inferInstanceAs (Decidable False)

/-- Such a prefix is not the empty string, so it is found in the form in which it is stored. -/
theorem noEmptyClash_of_namesSegment {r : ServiceRegistry} {pathPrefix : String}
    (h : NamesSegment pathPrefix) : r.NoEmptyClash pathPrefix := by
  rintro rfl
  obtain ⟨c, hc, -⟩ := h
  exact absurd hc List.not_mem_nil

/-- Without request log rows every such operation is durable. -/
theorem keepsDurable_of_withoutLogs {s : RegistryHistory} (hlogs : s.registry.LogFree)
    {a : RegistryAction} (h : s.WithoutLogs a) : s.KeepsDurable a := by
  cases a with
  | register => exact ⟨noEmptyClash_of_namesSegment h, fun existing _ => hlogs.referenced _⟩
  | registerAdvanced => exact ⟨noEmptyClash_of_namesSegment h, fun existing _ => hlogs.referenced _⟩
  | loadEntry => exact noEmptyClash_of_namesSegment h
  | unregister => exact fun _ => hlogs.referenced _
  | logRequest => exact h.elim
  | restart => trivial

/-- Making room for a service and storing it leaves the request log rows alone. -/
theorem logFree_replaceExisting_insertEntry {r : ServiceRegistry} (h : r.LogFree)
    (pathPrefix : String) (entry : ServiceEntry) :
    ((r.replaceExisting pathPrefix).insertEntry entry).LogFree := by
  have hroom : (r.replaceExisting pathPrefix).LogFree := by
    unfold ServiceRegistry.replaceExisting
    split
    next existing _ =>
      exact ServiceRegistry.LogFree.removeService
        (r := { r with services := r.services.erase existing.id }) h existing.id
    next => exact h
  exact hroom.insertEntry entry

/-- No such operation writes a request log row. -/
theorem logFree_step {s s' : RegistryHistory} {a : RegistryAction} (h : s.registry.LogFree)
    (hok : s.WithoutLogs a) (hstep : s.step a = some s') : s'.registry.LogFree := by
  cases a with
  | register id now name pathPrefix upstream healthEndpoint =>
      simp only [step, replace] at hstep
      split at hstep
      next => cases hstep
      next =>
        cases hstep
        exact logFree_replaceExisting_insertEntry h _ _
  | registerAdvanced id now req =>
      simp only [step, replace] at hstep
      split at hstep
      next => cases hstep
      next =>
        cases hstep
        exact logFree_replaceExisting_insertEntry h _ _
  | loadEntry id now svc =>
      simp only [step] at hstep
      split at hstep
      next => cases hstep
      next =>
        cases hstep
        unfold ServiceRegistry.loadEntry
        split
        next => exact h
        next => exact h.insertEntry _
  | unregister id =>
      cases hstep
      unfold ServiceRegistry.unregister
      split
      next entry _ =>
        exact ServiceRegistry.LogFree.removeService
          (r := { s.registry with services := s.registry.services.erase id }) h entry.id
      next => exact h
  | logRequest => exact hok.elim
  | restart =>
      cases hstep
      intro db hdb
      cases hstorage : s.registry.storage with
      | none =>
          rw [hstorage] at hdb
          cases hdb
      | some db' =>
          rw [hstorage] at hdb
          cases hdb
          exact h db hstorage

/-- The invariant of such a run: that of the durable runs, and no request log rows. -/
theorem inv_logFree_step (s : RegistryHistory) (a : RegistryAction) (s' : RegistryHistory)
    (hs : s.Inv ∧ s.registry.LogFree) (hok : s.WithoutLogs a) (h : s.step a = some s') :
    s'.Inv ∧ s'.registry.LogFree :=
  ⟨inv_step s a s' hs.1 (keepsDurable_of_withoutLogs hs.2 hok) h, logFree_step hs.2 hok h⟩

/-- In every run of registrations under prefixes that are more than slashes, removals and restarts,
on a database without request log rows, memory and database hold the same services, and a restart
changes no answer of `lookup`. -/
theorem transparent_of_runs (db : SqliteStorage) (hunique : db.Unique)
    (hlogs : db.requestLogs = []) (as : List RegistryAction) (s : RegistryHistory)
    (hrun : machine.Runs WithoutLogs (initial db) as s) :
    ∃ db', Transparent s.registry db' := by
  have hfree : (initial db).registry.LogFree := by
    rintro db' ⟨⟩
    exact hlogs
  obtain ⟨hinv, -⟩ := hrun.invariant (I := fun s => s.Inv ∧ s.registry.LogFree) inv_logFree_step
    ⟨inv_initial hunique, hfree⟩
  obtain ⟨db', hmirrored⟩ := hinv.mirrored
  exact ⟨db', hmirrored.transparent⟩

/-- A service, its replacement under another spelling of the prefix, and a restart. -/
def respellingRun : List RegistryAction :=
  [.register 1 0 "a" "/a" "http://10.0.0.1" "/health",
    .registerAdvanced 2 3
      { name := "b", pathPrefix := "a/", upstream := "http://10.0.0.2", healthEndpoint := "/",
        upstreams := ["http://10.0.0.3"], loadBalance := some "random", version := some "2",
        validationSchema := none, ipWhitelist := [], ipBlacklist := ["10.9.9.9"],
        transform := none },
    .restart,
    .register 3 5 "c" "/a/c" "http://10.0.0.4" "/health"]

/-- The transparency of a run with a replacement and a restart. -/
theorem transparent_respellingRun :
    ∃ s, machine.Runs WithoutLogs (initial .empty) respellingRun s ∧
      ∃ db', Transparent s.registry db' := by
  obtain ⟨s, hs⟩ : ∃ s, machine.exec WithoutLogs (initial .empty) respellingRun = some s :=
    Option.isSome_iff_exists.mp (by decide)
  have hrun := Machine.runs_of_exec hs
  have hunique : SqliteStorage.empty.Unique := ⟨List.nodup_nil, List.nodup_nil⟩
  exact ⟨s, hrun, transparent_of_runs .empty hunique rfl respellingRun s hrun⟩

end RegistryHistory

end XiraNet

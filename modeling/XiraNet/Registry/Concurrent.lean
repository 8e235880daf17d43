import XiraNet.Registry.Prefixes

/-!
# Concurrent registrations

The registry of `registry/mod.rs` under calls that run at the same time: registrations of the admin
API, the check and registration of a discovery task, removals, and the updates of health checks and
requests. A registration looks for the service that it replaces, takes it out of memory, deletes its
row, writes the row of the new service and puts that into memory, each in a step of its own. The
search of the map is one step. The process may die between any two steps and start again.

* `ConcurrentRegistry.Consistent`: every service in memory is stored, and every row that is not in
  memory belongs to a call that is running.
* `ConcurrentRegistry.Inv`: what each call has brought about, and that no two are about the same
  service.
* `ConcurrentRegistry.Inv.change`: what a step of a call has to keep.
-/

namespace XiraNet

/-- A call that is running. -/
inductive RegistryTask
  /-- A discovery task has found the prefix of its service free. -/
  | checked (given : String) (entry : ServiceEntry)
  /-- A registration has found the service that it replaces. -/
  | replacing (existing : Uuid) (entry : ServiceEntry)
  /-- That service is out of memory, and its row is to be deleted. -/
  | deleting (existing : Uuid) (entry : ServiceEntry)
  /-- The row of the new service is to be written. -/
  | saving (entry : ServiceEntry)
  /-- The new service is to be put into memory. -/
  | inserting (entry : ServiceEntry)
  /-- A removal has taken the service out of memory, and its row is to be deleted. -/
  | unregistering (existing : Uuid)
  deriving DecidableEq

namespace RegistryTask

/-- The service that a call is going to store. -/
def new : RegistryTask → Option ServiceEntry
  | .checked _ entry | .replacing _ entry | .deleting _ entry | .saving entry
  | .inserting entry => some entry
  | .unregistering _ => none

/-- The service of a registration that has looked for the one it replaces. -/
def registers : RegistryTask → Option ServiceEntry
  | .replacing _ entry | .deleting _ entry | .saving entry | .inserting entry => some entry
  | .checked .. | .unregistering _ => none

/-- The service that a call takes away. -/
def target : RegistryTask → Option Uuid
  | .replacing existing _ | .deleting existing _ | .unregistering existing => some existing
  | .checked .. | .saving _ | .inserting _ => none

/-- The id of a row that is stored while its service is not in memory. -/
def owns : RegistryTask → Option Uuid
  | .deleting existing _ | .unregistering existing => some existing
  | .inserting entry => some entry.id
  | .checked .. | .replacing .. | .saving _ => none

end RegistryTask

/-- A registry, the calls that are running and the ids that were drawn. -/
structure ConcurrentRegistry where
  registry : ServiceRegistry
  tasks : DashMap ℕ RegistryTask
  issued : List Uuid

/-- The start of a call, or the next step of one. -/
inductive ConcurrentAction
  | register (call : ℕ) (id : Uuid) (now : DateTime) (name given upstream healthEndpoint : String)
  | registerAdvanced (call : ℕ) (id : Uuid) (now : DateTime) (req : RegisterServiceRequest)
  /-- A discovery task checks the prefix of a service. -/
  | discover (call : ℕ) (id : Uuid) (now : DateTime) (name given upstream healthEndpoint : String)
  | unregister (call : ℕ) (id : Uuid)
  | advance (call : ℕ)
  | updateStatus (id : Uuid) (status : ServiceStatus) (now : DateTime)
  | setUpstreams (id : Uuid) (upstreams : List String)
  | incrementRequestCount (id : Uuid)
  /-- A row of the request logger. -/
  | logRequest (log : RequestLogRow)
  /-- The process dies and starts again on the same database. -/
  | restart
  deriving DecidableEq

namespace ConcurrentRegistry

/-- A registration looks for the service that it replaces. -/
def found (s : ConcurrentRegistry) (given : String) (entry : ServiceEntry) : RegistryTask :=
  match s.registry.findByPrefix given with
  | some existing => .replacing existing.id entry
  | none => .saving entry

/-- A call has come this far. -/
def put (s : ConcurrentRegistry) (call : ℕ) (task : RegistryTask) : ConcurrentRegistry :=
  { s with tasks := s.tasks.insert call task }

/-- A call with a new id starts. -/
def draw (s : ConcurrentRegistry) (call : ℕ) (id : Uuid) (task : RegistryTask) :
    Option ConcurrentRegistry :=
  if (s.tasks.lookup call).isSome ∨ id ∈ s.issued then none
  else some { s.put call task with issued := id :: s.issued }

/-- A service is taken out of memory. -/
def take (s : ConcurrentRegistry) (id : Uuid) : ConcurrentRegistry :=
  { s with registry := { s.registry with services := s.registry.services.erase id } }

/-- A database call whose error is ignored. -/
def persist (s : ConcurrentRegistry) (statement : SqliteStorage → Option SqliteStorage) :
    ConcurrentRegistry :=
  { s with registry := s.registry.persist statement }

/-- The next step of a call. -/
def advance (s : ConcurrentRegistry) (call : ℕ) : RegistryTask → ConcurrentRegistry
  | .checked given entry => s.put call (s.found given entry)
  | .replacing existing entry => (s.take existing).put call (.deleting existing entry)
  | .deleting existing entry => (s.persist (·.removeService existing)).put call (.saving entry)
  | .saving entry => (s.persist (·.saveService entry)).put call (.inserting entry)
  | .inserting entry =>
      { s with
        registry := { s.registry with services := s.registry.services.insert entry.id entry }
        tasks := s.tasks.erase call }
  | .unregistering existing =>
      { s.persist (·.removeService existing) with tasks := s.tasks.erase call }

/-- One step. -/
def step (s : ConcurrentRegistry) : ConcurrentAction → Option ConcurrentRegistry
  | .register call id now name given upstream healthEndpoint =>
      s.draw call id (s.found given (.new id now name given upstream healthEndpoint))
  | .registerAdvanced call id now req =>
      s.draw call id (s.found req.pathPrefix (ServiceRegistry.entryOfRequest id now req))
  | .discover call id now name given upstream healthEndpoint =>
      if (s.registry.findByPrefix given).isSome then some s
      -- Whatever is registered before the next step of the task is replaced by it.
      else s.draw call id (.checked given (.new id now name given upstream healthEndpoint))
  | .unregister call id =>
      if (s.tasks.lookup call).isSome then none
      else
        match s.registry.services.lookup id with
        | some entry => some ((s.take id).put call (.unregistering entry.id))
        | none => some s
  | .advance call => (s.tasks.lookup call).map (s.advance call)
  | .updateStatus id status now =>
      some { s with registry := s.registry.updateStatus id status now }
  | .setUpstreams id upstreams =>
      some { s with registry := (s.registry.setUpstreams id upstreams).2 }
  | .incrementRequestCount id => some { s with registry := s.registry.incrementRequestCount id }
  | .logRequest log => some (s.persist (·.logRequest log))
  | .restart =>
      some { s with
        registry := (s.registry.storage.map .withStorage).getD .new
        tasks := ∅ }

/-- A registry right after the start, on a database. -/
def initial (db : SqliteStorage) : ConcurrentRegistry where
  registry := .withStorage db
  tasks := ∅
  issued := db.services.map (·.id)

/-- Every interleaving. -/
def machine : Machine ConcurrentRegistry ConcurrentAction := ⟨step⟩

/-- No registration of the prefix is running, and it is not the empty one where that is stored. -/
def Free (s : ConcurrentRegistry) (given : String) : Prop :=
  s.registry.NoEmptyClash given ∧ ∀ task ∈ s.tasks.values, ∀ entry ∈ task.registers,
    entry.pathPrefix ≠ ServiceEntry.normalizePrefix given

/-- A task deletes no row that the request log references, and a discovery task registers its
service while no other registration of the prefix is running. -/
def TaskKeepsApart (s : ConcurrentRegistry) : RegistryTask → Prop
  | .checked given _ => s.Free given
  | .deleting existing _ | .unregistering existing => s.registry.referenced existing = false
  | .saving entry => ∀ db ∈ s.registry.storage, ∀ row ∈ db.services,
      row.pathPrefix = entry.pathPrefix → db.referenced row.id = false
  | .replacing .. | .inserting _ => True

/-- No two registrations of one prefix overlap, and no row is deleted that is referenced. -/
def KeepsApart (s : ConcurrentRegistry) : ConcurrentAction → Prop
  | .register _ _ _ _ given _ _ => s.Free given
  | .registerAdvanced _ _ _ req => s.Free req.pathPrefix
  | .advance call => ∀ task ∈ s.tasks.lookup call, s.TaskKeepsApart task
  | .discover .. | .unregister .. | .updateStatus .. | .setUpstreams .. | .incrementRequestCount _
  | .logRequest _ | .restart => True

instance (s : ConcurrentRegistry) (given : String) : Decidable (s.Free given) :=
  inferInstanceAs (Decidable (_ ∧ _))

instance (s : ConcurrentRegistry) : (task : RegistryTask) → Decidable (s.TaskKeepsApart task)
  | .checked given _ => inferInstanceAs (Decidable (s.Free given))
  | .deleting existing _ | .unregistering existing =>
      inferInstanceAs (Decidable (s.registry.referenced existing = false))
  | .saving entry => inferInstanceAs (Decidable (∀ db ∈ s.registry.storage,
      ∀ row ∈ db.services, row.pathPrefix = entry.pathPrefix → db.referenced row.id = false))
  | .replacing .. | .inserting _ => .isTrue trivial

instance (s : ConcurrentRegistry) : (a : ConcurrentAction) → Decidable (s.KeepsApart a)
  | .register _ _ _ _ given _ _ => inferInstanceAs (Decidable (s.Free given))
  | .registerAdvanced _ _ _ req => inferInstanceAs (Decidable (s.Free req.pathPrefix))
  | .advance call =>
      inferInstanceAs (Decidable (∀ task ∈ s.tasks.lookup call, s.TaskKeepsApart task))
  | .discover .. | .unregister .. | .updateStatus .. | .setUpstreams .. | .incrementRequestCount _
  | .logRequest _ | .restart => .isTrue trivial

end ConcurrentRegistry

/-- What a row says of its service that is the same in memory. -/
def ServiceRow.settings (row : ServiceRow) : ServiceRow :=
  { row with upstreams := [], requestCount := 0 }

namespace ConcurrentRegistry

/-- Memory and database, while calls are running. -/
structure Consistent (s : ConcurrentRegistry) (db : SqliteStorage) : Prop where
  storage : s.registry.storage = some db
  /-- A service that requests may be routed to is stored, so that it survives the process. -/
  stored : ∀ id entry, s.registry.services.lookup id = some entry →
    ∃ row ∈ db.services, row.settings = entry.toRow.settings
  /-- A stored service is in memory, or a call that is running puts it there or deletes its row. -/
  owned : ∀ row ∈ db.services,
    (∃ entry, s.registry.services.lookup row.id = some entry ∧
        row.settings = entry.toRow.settings) ∨
      ∃ call task, s.tasks.lookup call = some task ∧ row.id ∈ task.owns
  distinct : s.registry.PrefixesDistinct

/-- A new service has an id that nothing else has. -/
structure Fresh (s : ConcurrentRegistry) (db : SqliteStorage) (entry : ServiceEntry) : Prop where
  issued : entry.id ∈ s.issued
  absent : s.registry.services.lookup entry.id = none
  unsaved : ∀ row ∈ db.services, row.id ≠ entry.id

/-- No service in memory has the prefix of the new one. -/
def Clear (s : ConcurrentRegistry) (entry : ServiceEntry) : Prop :=
  ∀ id e, s.registry.services.lookup id = some e → e.pathPrefix ≠ entry.pathPrefix

/-- A service was taken out of memory. -/
structure Taken (s : ConcurrentRegistry) (id : Uuid) : Prop where
  issued : id ∈ s.issued
  absent : s.registry.services.lookup id = none

/-- What a call has brought about. -/
def TaskOk (s : ConcurrentRegistry) (db : SqliteStorage) : RegistryTask → Prop
  | .checked given entry => s.Fresh db entry ∧
      entry.pathPrefix = ServiceEntry.normalizePrefix given
  | .replacing existing entry => s.Fresh db entry ∧ existing ∈ s.issued ∧
      ∀ id e, s.registry.services.lookup id = some e → e.pathPrefix = entry.pathPrefix →
        id = existing
  | .deleting existing entry => s.Fresh db entry ∧ s.Taken existing ∧ s.Clear entry
  | .saving entry => s.Fresh db entry ∧ s.Clear entry
  | .inserting entry => s.Taken entry.id ∧ s.Clear entry ∧
      ∃ row ∈ db.services, row.settings = entry.toRow.settings
  | .unregistering existing => s.Taken existing

end ConcurrentRegistry

namespace RegistryTask

/-- A service under this id and prefix does not concern the call. -/
structure Ignores (task : RegistryTask) (id : Uuid) (pathPrefix : String) : Prop where
  new : ∀ entry ∈ task.new, entry.id ≠ id
  target : ∀ existing ∈ task.target, existing ≠ id
  registers : ∀ entry ∈ task.registers, entry.pathPrefix ≠ pathPrefix

/-- Two calls are about different services. -/
structure Apart (task task' : RegistryTask) : Prop where
  new : ∀ entry ∈ task.new, ∀ entry' ∈ task'.new, entry.id ≠ entry'.id
  target : ∀ entry ∈ task.new, ∀ existing ∈ task'.target, entry.id ≠ existing
  target' : ∀ existing ∈ task.target, ∀ entry ∈ task'.new, existing ≠ entry.id
  registers : ∀ entry ∈ task.registers, ∀ entry' ∈ task'.registers,
    entry.pathPrefix ≠ entry'.pathPrefix

/-- The order does not matter. -/
theorem Apart.symm {task task' : RegistryTask} (h : task.Apart task') : task'.Apart task where
  new := fun entry hentry entry' hentry' => (h.new entry' hentry' entry hentry).symm
  target := fun entry hentry existing hexisting => (h.target' existing hexisting entry hentry).symm
  target' := fun existing hexisting entry hentry =>
    (h.target entry hentry existing hexisting).symm
  registers := fun entry hentry entry' hentry' =>
    (h.registers entry' hentry' entry hentry).symm

/-- A call that is about no more services stays apart. -/
theorem Apart.of_subset {task next task' : RegistryTask} (h : task.Apart task')
    (hnew : ∀ entry ∈ next.new, entry ∈ task.new)
    (htarget : ∀ existing ∈ next.target, existing ∈ task.target)
    (hregisters : ∀ entry ∈ next.registers, entry ∈ task.registers) : next.Apart task' where
  new := fun entry hentry => h.new entry (hnew entry hentry)
  target := fun entry hentry => h.target entry (hnew entry hentry)
  target' := fun existing hexisting => h.target' existing (htarget existing hexisting)
  registers := fun entry hentry => h.registers entry (hregisters entry hentry)

end RegistryTask

namespace ConcurrentRegistry

/-- What is in memory is stored. -/
structure Held (s : ConcurrentRegistry) (db : SqliteStorage) : Prop where
  storage : s.registry.storage = some db
  unique : db.Unique
  keyed : ∀ id entry, s.registry.services.lookup id = some entry → entry.id = id
  stored : ∀ id entry, s.registry.services.lookup id = some entry →
    ∃ row ∈ db.services, row.settings = entry.toRow.settings
  issued : ∀ row ∈ db.services, row.id ∈ s.issued

/-- The invariant. -/
structure Inv (s : ConcurrentRegistry) (db : SqliteStorage) : Prop extends s.Held db where
  owned : ∀ row ∈ db.services, (s.registry.services.lookup row.id).isSome ∨
    ∃ call task, s.tasks.lookup call = some task ∧ row.id ∈ task.owns
  tasks : ∀ call task, s.tasks.lookup call = some task → s.TaskOk db task
  apart : ∀ call call' task task', call ≠ call' → s.tasks.lookup call = some task →
    s.tasks.lookup call' = some task' → task.Apart task'

variable {s s' : ConcurrentRegistry} {db db' : SqliteStorage} {task : RegistryTask}
  {entry : ServiceEntry}

/-- What a call has brought about stays so while memory and database change for services that do
not concern it. -/
theorem TaskOk.kept (h : s.TaskOk db task) (hissued : ∀ id ∈ s.issued, id ∈ s'.issued)
    (hmemory : ∀ id e', s'.registry.services.lookup id = some e' →
      (∃ e, s.registry.services.lookup id = some e ∧ e.pathPrefix = e'.pathPrefix) ∨
        task.Ignores id e'.pathPrefix)
    (hrows : ∀ row' ∈ db'.services, (∃ row ∈ db.services, row.id = row'.id) ∨
      ∀ entry ∈ task.new, entry.id ≠ row'.id)
    (hsaved : ∀ entry, task = .inserting entry → ∀ row ∈ db.services,
      row.settings = entry.toRow.settings → ∃ row' ∈ db'.services, row'.settings = row.settings) :
    s'.TaskOk db' task := by
  have habsent : ∀ {id : Uuid}, (∀ pathPrefix, ¬ task.Ignores id pathPrefix) →
      s.registry.services.lookup id = none → s'.registry.services.lookup id = none := by
    intro id hconcerns hnone
    rw [Option.eq_none_iff_forall_not_mem]
    intro e' he'
    rcases hmemory id e' he' with ⟨e, he, -⟩ | hignores
    · rw [hnone] at he
      cases he
    · exact hconcerns _ hignores
  have hfresh : ∀ {entry : ServiceEntry}, entry ∈ task.new → s.Fresh db entry →
      s'.Fresh db' entry := by
    intro entry hnew hfresh
    refine ⟨hissued _ hfresh.issued, habsent (fun _ hi => hi.new entry hnew rfl) hfresh.absent,
      fun row' hrow' => ?_⟩
    rcases hrows row' hrow' with ⟨row, hrow, hid⟩ | hother
    · rw [← hid]
      exact hfresh.unsaved row hrow
    · exact (hother entry hnew).symm
  have htaken : ∀ {id : Uuid}, (∀ pathPrefix, ¬ task.Ignores id pathPrefix) → s.Taken id →
      s'.Taken id :=
    fun hconcerns ht => ⟨hissued _ ht.issued, habsent hconcerns ht.absent⟩
  have hclear : ∀ {entry : ServiceEntry}, entry ∈ task.registers → s.Clear entry →
      s'.Clear entry := by
    intro entry hregisters hclear id e' he'
    rcases hmemory id e' he' with ⟨e, he, hpath⟩ | hignores
    · rw [← hpath]
      exact hclear id e he
    · exact (hignores.registers entry hregisters).symm
  cases task with
  | checked given entry => exact ⟨hfresh rfl h.1, h.2⟩
  | replacing existing entry =>
      obtain ⟨hf, hexisting, honly⟩ := h
      refine ⟨hfresh rfl hf, hissued _ hexisting, fun id e' he' hsame => ?_⟩
      rcases hmemory id e' he' with ⟨e, he, hpath⟩ | hignores
      · exact honly id e he (hpath.trans hsame)
      · exact absurd hsame.symm (hignores.registers entry rfl)
  | deleting existing entry =>
      obtain ⟨hf, ht, hc⟩ := h
      exact ⟨hfresh rfl hf, htaken (fun _ hi => hi.target existing rfl rfl) ht, hclear rfl hc⟩
  | saving entry => exact ⟨hfresh rfl h.1, hclear rfl h.2⟩
  | inserting entry =>
      obtain ⟨ht, hc, row, hrow, hsettings⟩ := h
      obtain ⟨row', hrow', hsame⟩ := hsaved entry rfl row hrow hsettings
      exact ⟨htaken (fun _ hi => hi.new entry rfl rfl) ht, hclear rfl hc, row', hrow',
        hsame.trans hsettings⟩
  | unregistering existing => exact htaken (fun _ hi => hi.target existing rfl rfl) h

/-- What a call has brought about does not depend on the other calls. -/
theorem TaskOk.of_eq (h : s.TaskOk db task)
    (hservices : s'.registry.services = s.registry.services)
    (hissued : ∀ id ∈ s.issued, id ∈ s'.issued) : s'.TaskOk db task :=
  h.kept hissued (fun _ e he => .inl ⟨e, hservices ▸ he, rfl⟩)
    (fun row hrow => .inl ⟨row, hrow, rfl⟩) fun _ _ row hrow _ => ⟨row, hrow, rfl⟩

/-- The row of a service in memory has its id and its prefix. -/
theorem Held.row (hs : s.Held db) {id : Uuid}
    (hentry : s.registry.services.lookup id = some entry) :
    ∃ row ∈ db.services, row.id = id ∧ row.pathPrefix = entry.pathPrefix ∧
      row.settings = entry.toRow.settings := by
  obtain ⟨row, hrow, hsettings⟩ := hs.stored id entry hentry
  have hid : row.id = entry.id := congrArg ServiceRow.id hsettings
  have hpath : row.pathPrefix = entry.pathPrefix := congrArg ServiceRow.pathPrefix hsettings
  exact ⟨row, hrow, hid.trans (hs.keyed id entry hentry), hpath, hsettings⟩

/-- Two services in memory have different prefixes, as their rows do. -/
theorem Held.distinct (hs : s.Held db) : s.registry.PrefixesDistinct := by
  intro id id' entry entry' hentry hentry' hsame
  obtain ⟨row, hrow, hid, hpath, -⟩ := hs.row hentry
  obtain ⟨row', hrow', hid', hpath', -⟩ := hs.row hentry'
  have heq : row = row' := List.inj_on_of_nodup_map hs.unique.prefixes hrow hrow'
    ((hpath.trans hsame).trans hpath'.symm)
  rw [← hid, ← hid', heq]

/-- The invariant makes memory and database consistent. -/
theorem Inv.consistent (hs : s.Inv db) : s.Consistent db where
  storage := hs.storage
  stored := hs.stored
  distinct := hs.distinct
  owned := by
    intro row hrow
    rcases hs.owned row hrow with hsome | htask
    · obtain ⟨entry, hentry⟩ := Option.isSome_iff_exists.mp hsome
      obtain ⟨row', hrow', hid, -, hsettings⟩ := hs.row hentry
      obtain rfl : row' = row := List.inj_on_of_nodup_map hs.unique.ids hrow' hrow hid
      exact .inl ⟨entry, hentry, hsettings⟩
    · exact .inr htask

/-- A step of a call keeps the invariant if it does so for the call itself and the others. -/
theorem Inv.change (hs : s.Inv db) {call : ℕ} (next : Option RegistryTask) (hheld : s'.Held db')
    (htasks : ∀ call', s'.tasks.lookup call' =
      if call' = call then next else s.tasks.lookup call')
    (howned : ∀ row ∈ db'.services, (s'.registry.services.lookup row.id).isSome ∨
      (∃ task ∈ next, row.id ∈ task.owns) ∨
        ∃ call' task, call' ≠ call ∧ s.tasks.lookup call' = some task ∧ row.id ∈ task.owns)
    (hothers : ∀ call' task, call' ≠ call → s.tasks.lookup call' = some task →
      s'.TaskOk db' task)
    (hnext : ∀ task ∈ next, s'.TaskOk db' task ∧ ∀ call' task', call' ≠ call →
      s.tasks.lookup call' = some task' → task.Apart task') : s'.Inv db' := by
  refine ⟨hheld, fun row hrow => ?_, fun call' task htask => ?_,
    fun call₁ call₂ task₁ task₂ hne htask₁ htask₂ => ?_⟩
  · rcases howned row hrow with hsome | ⟨task, htask, howns⟩ | ⟨call', task, hne, htask, howns⟩
    · exact .inl hsome
    · refine .inr ⟨call, task, ?_, howns⟩
      rw [htasks, if_pos rfl]
      exact htask
    · refine .inr ⟨call', task, ?_, howns⟩
      rw [htasks, if_neg hne]
      exact htask
  · rw [htasks] at htask
    split at htask
    next => exact (hnext task htask).1
    next hne => exact hothers call' task hne htask
  · rw [htasks] at htask₁ htask₂
    split at htask₁
    next heq₁ =>
      rw [if_neg (heq₁ ▸ hne.symm)] at htask₂
      exact (hnext task₁ htask₁).2 call₂ task₂ (heq₁ ▸ hne.symm) htask₂
    next hne₁ =>
      split at htask₂
      next => exact ((hnext task₂ htask₂).2 call₁ task₁ hne₁ htask₁).symm
      next => exact hs.apart call₁ call₂ task₁ task₂ hne htask₁ htask₂

/-- A new service is not in memory yet. -/
theorem TaskOk.absent_of_new (h : s.TaskOk db task) (hnew : entry ∈ task.new) :
    s.registry.services.lookup entry.id = none := by
  cases task with
  | checked | replacing | deleting | saving | inserting =>
      cases hnew
      exact h.1.absent
  | unregistering => cases hnew

/-- The places of the calls after one of them has come further. -/
theorem lookup_put (call : ℕ) (next : RegistryTask) (call' : ℕ) :
    (s.put call next).tasks.lookup call' =
      if call' = call then some next else s.tasks.lookup call' :=
  DashMap.lookup_insert _ _ _ _

/-- What `find_by_prefix` finds for a registration, while no other registration of the prefix is
running. -/
theorem taskOk_found (hs : s.Inv db) {given : String} (hfree : s.Free given)
    (hpath : entry.pathPrefix = ServiceEntry.normalizePrefix given) (hfresh : s.Fresh db entry) :
    s.TaskOk db (s.found given entry) := by
  unfold found
  cases hfind : s.registry.findByPrefix given with
  | none =>
      refine ⟨hfresh, fun id e he => ?_⟩
      rw [hpath]
      exact ServiceRegistry.pathPrefix_ne_of_findByPrefix_none hfree.1 hfind he
  | some existing =>
      obtain ⟨id, hid⟩ := (DashMap.mem_values_iff _ _).mp (List.mem_of_find?_eq_some hfind)
      have hkey := hs.keyed id existing hid
      obtain ⟨row, hrow, hrowId, -, -⟩ := hs.row hid
      refine ⟨hfresh, ?_, fun id' e he hsame => ?_⟩
      · rw [hkey, ← hrowId]
        exact hs.issued row hrow
      · have hgiven : given ≠ "" := by
          rintro rfl
          exact hfree.1 rfl e ((DashMap.mem_values_iff _ _).mpr ⟨id', he⟩)
            ((hsame.trans hpath).trans (by decide))
        rw [ServiceRegistry.findByPrefix_eq hgiven] at hfind
        have hexisting : existing.pathPrefix = ServiceEntry.normalizePrefix given := by
          simpa using List.find?_some hfind
        rw [hkey]
        exact hs.distinct id' id e existing he hid ((hsame.trans hpath).trans hexisting.symm)

/-- A registration that has looked for the service that it replaces is about other services than
the other calls. -/
theorem apart_found (hs : s.Inv db) {given : String} (hfree : s.Free given)
    (hpath : entry.pathPrefix = ServiceEntry.normalizePrefix given) {call' : ℕ}
    (htask : s.tasks.lookup call' = some task)
    (hnew : ∀ entry' ∈ task.new, entry.id ≠ entry'.id)
    (htarget : ∀ existing ∈ task.target, entry.id ≠ existing) :
    (s.found given entry).Apart task := by
  have hregisters : ∀ entry' ∈ task.registers, entry.pathPrefix ≠ entry'.pathPrefix := by
    intro entry' hentry'
    rw [hpath]
    exact (hfree.2 task ((DashMap.mem_values_iff _ _).mpr ⟨call', htask⟩) entry' hentry').symm
  unfold found
  cases hfind : s.registry.findByPrefix given with
  | none =>
      show (RegistryTask.saving entry).Apart task
      refine ⟨?_, ?_, ?_, ?_⟩
      · rintro _ ⟨⟩
        exact hnew
      · rintro _ ⟨⟩
        exact htarget
      · rintro _ ⟨⟩
      · rintro _ ⟨⟩
        exact hregisters
  | some existing =>
      show (RegistryTask.replacing existing.id entry).Apart task
      refine ⟨?_, ?_, ?_, ?_⟩
      · rintro _ ⟨⟩
        exact hnew
      · rintro _ ⟨⟩
        exact htarget
      -- What is found is in memory, and the new service of another call is not.
      · rintro _ ⟨⟩ entry' hentry' hsame
        obtain ⟨id, hid⟩ := (DashMap.mem_values_iff _ _).mp (List.mem_of_find?_eq_some hfind)
        have habsent := (hs.tasks call' task htask).absent_of_new hentry'
        rw [← hsame, hs.keyed id existing hid, hid] at habsent
        cases habsent
      · rintro _ ⟨⟩
        exact hregisters

end ConcurrentRegistry

end XiraNet

import XiraNet.Registry.Concurrent

/-!
# Consistency of the registry

The steps of the calls of `registry/mod.rs` that run at the same time, one after the other, and the
interleavings of any number of them.

* `ConcurrentRegistry.consistent_of_runs`: memory and database are consistent in every interleaving
  in which no two registrations of one prefix overlap and no row is deleted that the request log
  references.
-/

namespace XiraNet

namespace ConcurrentRegistry

variable {s s' : ConcurrentRegistry} {db db' : SqliteStorage} {task : RegistryTask}
  {entry : ServiceEntry}

/-- An id that is drawn changes nothing else. -/
theorem Inv.issue (hs : s.Inv db) (id : Uuid) : Inv { s with issued := id :: s.issued } db where
  storage := hs.storage
  unique := hs.unique
  keyed := hs.keyed
  stored := hs.stored
  issued := fun row hrow => List.mem_cons_of_mem _ (hs.issued row hrow)
  owned := hs.owned
  apart := hs.apart
  tasks := fun call task htask =>
    (hs.tasks call task htask).of_eq rfl fun _ hid => List.mem_cons_of_mem _ hid

/-- A call comes further without touching memory or database. -/
theorem Inv.put (hs : s.Inv db) {call : ℕ} (next : RegistryTask)
    (hold : ∀ task, s.tasks.lookup call = some task → task.owns = none) (hnext : s.TaskOk db next)
    (hapart : ∀ call' task', call' ≠ call → s.tasks.lookup call' = some task' →
      next.Apart task') : (s.put call next).Inv db := by
  have hkept : ∀ {task : RegistryTask}, s.TaskOk db task → (s.put call next).TaskOk db task :=
    fun htask => htask.of_eq rfl fun _ hid => hid
  refine hs.change (some next) ⟨hs.storage, hs.unique, hs.keyed, hs.stored, hs.issued⟩
    (lookup_put call next)
    (fun row hrow => ?_) (fun call' task _ htask => hkept (hs.tasks call' task htask)) ?_
  · rcases hs.owned row hrow with hsome | ⟨call', task, htask, howns⟩
    · exact .inl hsome
    · refine .inr (.inr ⟨call', task, ?_, htask, howns⟩)
      rintro rfl
      rw [hold task htask] at howns
      cases howns
  · rintro _ ⟨⟩
    exact ⟨hkept hnext, hapart⟩

/-- A drawn id is that of no service and no row, and of no call. -/
theorem fresh_of_not_mem (hs : s.Inv db) (hnew : entry.id ∉ s.issued) :
    Fresh { s with issued := entry.id :: s.issued } db entry := by
  refine ⟨List.mem_cons_self, Option.eq_none_iff_forall_not_mem.mpr fun e he => ?_,
    fun row hrow hid => ?_⟩
  · obtain ⟨row, hrow, hid, -, -⟩ := hs.row he
    exact hnew (hid ▸ hs.issued row hrow)
  · exact hnew (hid ▸ hs.issued row hrow)

/-- What a call is about was drawn before. -/
theorem TaskOk.issued (h : s.TaskOk db task) : (∀ entry ∈ task.new, entry.id ∈ s.issued) ∧
    ∀ existing ∈ task.target, existing ∈ s.issued := by
  cases task with
  | checked =>
      refine ⟨?_, fun _ ht => nomatch ht⟩
      rintro _ ⟨⟩
      exact h.1.issued
  | replacing =>
      constructor
      · rintro _ ⟨⟩
        exact h.1.issued
      · rintro _ ⟨⟩
        exact h.2.1
  | deleting =>
      constructor
      · rintro _ ⟨⟩
        exact h.1.issued
      · rintro _ ⟨⟩
        exact h.2.1.issued
  | saving =>
      refine ⟨?_, fun _ ht => nomatch ht⟩
      rintro _ ⟨⟩
      exact h.1.issued
  | inserting =>
      refine ⟨?_, fun _ ht => nomatch ht⟩
      rintro _ ⟨⟩
      exact h.1.issued
  | unregistering =>
      refine ⟨?_, ?_⟩
      · rintro _ ⟨⟩
      · rintro _ ⟨⟩
        exact h.issued

/-- The start of a registration keeps the invariant. -/
theorem inv_draw_found (hs : s.Inv db) (entry : ServiceEntry) {call : ℕ} {given : String}
    (hfree : s.Free given)
    (hpath : entry.pathPrefix = ServiceEntry.normalizePrefix given)
    (h : s.draw call entry.id (s.found given entry) = some s') : s'.Inv db := by
  unfold draw at h
  split at h
  next => cases h
  next hnot =>
    cases h
    rw [not_or] at hnot
    have hdrawn := hs.issue entry.id
    have hfresh := fresh_of_not_mem hs hnot.2
    have hnone := Option.not_isSome_iff_eq_none.mp hnot.1
    refine hdrawn.put (s.found given entry) (fun task htask => ?_)
      (taskOk_found hdrawn hfree hpath hfresh) fun call' task _ htask => ?_
    · rw [hnone] at htask
      cases htask
    · have hold := (hs.tasks call' task htask).issued
      exact apart_found hdrawn hfree hpath htask
        (fun entry' hentry' hid => hnot.2 (hid ▸ hold.1 entry' hentry'))
        fun existing hexisting hid => hnot.2 (hid ▸ hold.2 existing hexisting)

/-- The check of a discovery task keeps the invariant. -/
theorem inv_draw_checked (hs : s.Inv db) (entry : ServiceEntry) {call : ℕ} {given : String}
    (hpath : entry.pathPrefix = ServiceEntry.normalizePrefix given)
    (h : s.draw call entry.id (.checked given entry) = some s') : s'.Inv db := by
  unfold draw at h
  split at h
  next => cases h
  next hnot =>
    cases h
    rw [not_or] at hnot
    have hdrawn := hs.issue entry.id
    have hnone := Option.not_isSome_iff_eq_none.mp hnot.1
    refine hdrawn.put (.checked given entry) (fun task htask => ?_)
      ⟨fresh_of_not_mem hs hnot.2, hpath⟩ fun call' task _ htask => ?_
    · rw [hnone] at htask
      cases htask
    · have hold := (hs.tasks call' task htask).issued
      refine ⟨?_, ?_, ?_, ?_⟩
      · rintro _ ⟨⟩ entry' hentry' hid
        exact hnot.2 (hid ▸ hold.1 entry' hentry')
      · rintro _ ⟨⟩ existing hexisting hid
        exact hnot.2 (hid ▸ hold.2 existing hexisting)
      · rintro _ ⟨⟩
      · rintro _ ⟨⟩

/-- The step of a discovery task that registers keeps the invariant. -/
theorem inv_checked (hs : s.Inv db) {call : ℕ} {given : String} (hfree : s.Free given)
    (htask : s.tasks.lookup call = some (.checked given entry)) :
    (s.advance call (.checked given entry)).Inv db := by
  obtain ⟨hfresh, hpath⟩ := hs.tasks call _ htask
  refine hs.put (s.found given entry) (fun task hold => ?_) (taskOk_found hs hfree hpath hfresh)
    fun call' task' hne htask' => ?_
  · cases htask.symm.trans hold
    rfl
  · have hapart := hs.apart call call' _ task' hne.symm htask htask'
    exact apart_found hs hfree hpath htask' (hapart.new entry rfl) (hapart.target entry rfl)

/-- A service is taken out of memory by a call that is to delete its row. -/
theorem Inv.take (hs : s.Inv db) {call : ℕ} {id : Uuid} (next : RegistryTask)
    (hold : ∀ task, s.tasks.lookup call = some task → task.owns = none) (howns : id ∈ next.owns)
    (hnext : (s.take id).TaskOk db next)
    (hapart : ∀ call' task', call' ≠ call → s.tasks.lookup call' = some task' →
      next.Apart task') : ((s.take id).put call next).Inv db := by
  have hmemory : ∀ {id' e}, (s.take id).registry.services.lookup id' = some e →
      s.registry.services.lookup id' = some e := fun he => (DashMap.lookup_erase_cases he).2
  refine hs.change (some next) ⟨hs.storage, hs.unique, fun id' e he => hs.keyed id' e (hmemory he),
    fun id' e he => hs.stored id' e (hmemory he), hs.issued⟩ (lookup_put call next)
    (fun row hrow => ?_) (fun call' task _ htask => ?_) ?_
  · rcases hs.owned row hrow with hsome | ⟨call', task, htask, hrowOwns⟩
    -- The row of the service stays for now, and the call owns it.
    · by_cases hid : row.id = id
      · refine .inr (.inl ⟨next, rfl, ?_⟩)
        rw [hid]
        exact howns
      · refine .inl ?_
        show ((s.registry.services.erase id).lookup row.id).isSome
        rw [DashMap.lookup_erase, if_neg hid]
        exact hsome
    · refine .inr (.inr ⟨call', task, ?_, htask, hrowOwns⟩)
      rintro rfl
      rw [hold task htask] at hrowOwns
      cases hrowOwns
  · exact (hs.tasks call' task htask).kept (fun _ hid => hid)
      (fun _ e he => .inl ⟨e, hmemory he, rfl⟩) (fun row hrow => .inl ⟨row, hrow, rfl⟩)
      fun _ _ row hrow _ => ⟨row, hrow, rfl⟩
  · rintro _ ⟨⟩
    exact ⟨hnext.of_eq rfl fun _ hid => hid, hapart⟩

/-- The step of a registration that takes the old service out of memory keeps the invariant. -/
theorem inv_replacing (hs : s.Inv db) {call : ℕ} {existing : Uuid}
    (htask : s.tasks.lookup call = some (.replacing existing entry)) :
    (s.advance call (.replacing existing entry)).Inv db := by
  obtain ⟨hfresh, hissued, honly⟩ := hs.tasks call _ htask
  have hmemory : ∀ {id e}, (s.take existing).registry.services.lookup id = some e →
      id ≠ existing ∧ s.registry.services.lookup id = some e :=
    fun he => DashMap.lookup_erase_cases he
  have habsent : ∀ {id}, s.registry.services.lookup id = none →
      (s.take existing).registry.services.lookup id = none := by
    intro id hnone
    show (s.registry.services.erase existing).lookup id = none
    rw [DashMap.lookup_erase, hnone, ite_self]
  refine hs.take (.deleting existing entry) (fun task hold => ?_) rfl
    ⟨⟨hfresh.issued, habsent hfresh.absent, hfresh.unsaved⟩, ⟨hissued, ?_⟩, fun id e he hsame => ?_⟩
    fun call' task' hne htask' => ?_
  · cases htask.symm.trans hold
    rfl
  · show (s.registry.services.erase existing).lookup existing = none
    rw [DashMap.lookup_erase, if_pos rfl]
  -- The service that is gone was the only one under the prefix.
  · exact (hmemory he).1 (honly id e (hmemory he).2 hsame)
  · exact (hs.apart call call' _ task' hne.symm htask htask').of_subset (fun _ h => h)
      (fun _ h => h) fun _ h => h

/-- The start of a removal keeps the invariant. -/
theorem inv_unregister (hs : s.Inv db) {call : ℕ} (hcall : s.tasks.lookup call = none) {id : Uuid}
    (hentry : s.registry.services.lookup id = some entry) :
    ((s.take id).put call (.unregistering entry.id)).Inv db := by
  obtain ⟨row, hrow, hrowId, -, -⟩ := hs.row hentry
  rw [hs.keyed id entry hentry]
  refine hs.take (.unregistering id) (fun task htask => ?_) rfl ⟨?_, ?_⟩
    fun call' task' _ htask' => ⟨?_, ?_, ?_, ?_⟩
  · rw [hcall] at htask
    cases htask
  · exact hrowId ▸ hs.issued row hrow
  · show (s.registry.services.erase id).lookup id = none
    rw [DashMap.lookup_erase, if_pos rfl]
  · rintro _ ⟨⟩
  · rintro _ ⟨⟩
  -- The removed service is in memory, and the new service of another call is not.
  · rintro _ ⟨⟩ entry' hentry' hsame
    have habsent := (hs.tasks call' task' htask').absent_of_new hentry'
    rw [← hsame, hentry] at habsent
    cases habsent
  · rintro _ ⟨⟩

/-- A row is deleted by the call that owns it. -/
theorem Inv.delete (hs : s.Inv db) {call : ℕ} {id : Uuid} (next : Option RegistryTask)
    (htask : s.tasks.lookup call = some task) (htarget : id ∈ task.target)
    (howns : task.owns = some id) (habsent : s.registry.services.lookup id = none)
    (hfree : s.registry.referenced id = false)
    (hs'registry : s'.registry = s.registry.persist (·.removeService id))
    (hs'issued : s'.issued = s.issued)
    (hs'tasks : ∀ call', s'.tasks.lookup call' =
      if call' = call then next else s.tasks.lookup call')
    (hnext : ∀ db', (∀ row ∈ db'.services, row ∈ db.services) → ∀ task ∈ next, s'.TaskOk db' task)
    (hsubset : ∀ task' ∈ next, (∀ entry ∈ task'.new, entry ∈ task.new) ∧
      (∀ existing ∈ task'.target, existing ∈ task.target) ∧
        ∀ entry ∈ task'.registers, entry ∈ task.registers) : ∃ db', s'.Inv db' := by
  have hdb : db.referenced id = false := by
    simpa [ServiceRegistry.referenced, hs.storage] using hfree
  have hmemory : s'.registry.services = s.registry.services := by
    rw [hs'registry, ServiceRegistry.services_persist]
  have hstorage : s'.registry.storage =
      some { db with services := db.services.delete fun row => row.id = id } := by
    simp [hs'registry, ServiceRegistry.persist, hs.storage,
      SqliteStorage.removeService_of_unreferenced hdb]
  have hrows : ∀ row ∈ db.services.delete fun row => row.id = id,
      row ∈ db.services ∧ row.id ≠ id := by
    intro row hrow
    rw [Table.mem_delete] at hrow
    exact ⟨hrow.1, of_decide_eq_false hrow.2⟩
  -- The rows of the other services stay.
  have hkept : ∀ {entry : ServiceEntry}, entry.id ≠ id → ∀ row ∈ db.services,
      row.settings = entry.toRow.settings →
        row ∈ db.services.delete fun row => row.id = id := by
    intro entry hne row hrow hsettings
    refine Table.mem_delete.mpr ⟨hrow, decide_eq_false ?_⟩
    rw [show row.id = entry.id from congrArg ServiceRow.id hsettings]
    exact hne
  refine ⟨_, hs.change next ⟨hstorage, ⟨?_, ?_⟩, ?_, fun id' e he => ?_, fun row hrow => ?_⟩
    hs'tasks (fun row hrow => ?_) (fun call' task' hne htask' => ?_) fun task' htask' => ?_⟩
  · exact hs.unique.ids.sublist (List.filter_sublist.map _)
  · exact hs.unique.prefixes.sublist (List.filter_sublist.map _)
  · rw [hmemory]
    exact hs.keyed
  · rw [hmemory] at he
    obtain ⟨row, hrow, hsettings⟩ := hs.stored id' e he
    refine ⟨row, hkept (fun hid => ?_) row hrow hsettings, hsettings⟩
    rw [← hid, hs.keyed id' e he, he] at habsent
    cases habsent
  · rw [hs'issued]
    exact hs.issued row (hrows row hrow).1
  · rw [hmemory]
    obtain ⟨hrow, hid⟩ := hrows row hrow
    rcases hs.owned row hrow with hsome | ⟨call', task', htask', hrowOwns⟩
    · exact .inl hsome
    · refine .inr (.inr ⟨call', task', ?_, htask', hrowOwns⟩)
      rintro rfl
      cases htask.symm.trans htask'
      rw [howns] at hrowOwns
      exact hid (Option.some.inj hrowOwns).symm
  · have hapart := hs.apart call call' task task' hne.symm htask htask'
    refine (hs.tasks call' task' htask').kept (fun _ h => hs'issued ▸ h)
      (fun id' e he => .inl ⟨e, hmemory ▸ he, rfl⟩)
      (fun row hrow => .inl ⟨row, (hrows row hrow).1, rfl⟩)
      fun entry' hinserting row hrow hsettings => ⟨row, hkept ?_ row hrow hsettings, rfl⟩
    subst hinserting
    exact (hapart.target' id htarget entry' rfl).symm
  · obtain ⟨hnew, htargets, hregisters⟩ := hsubset task' htask'
    refine ⟨hnext _ (fun row hrow => (hrows row hrow).1) task' htask',
      fun call' other hne hother => ?_⟩
    exact (hs.apart call call' task other hne.symm htask hother).of_subset hnew htargets hregisters

/-- The step of a registration that deletes the old row keeps the invariant. -/
theorem inv_deleting (hs : s.Inv db) {call : ℕ} {existing : Uuid}
    (htask : s.tasks.lookup call = some (.deleting existing entry))
    (hfree : s.registry.referenced existing = false) :
    ∃ db', (s.advance call (.deleting existing entry)).Inv db' := by
  obtain ⟨hfresh, htaken, hclear⟩ := hs.tasks call _ htask
  refine hs.delete (some (.saving entry)) htask rfl rfl htaken.absent hfree rfl rfl
    (lookup_put call _) ?_ ?_
  · rintro db' hrows _ ⟨⟩
    exact ⟨⟨hfresh.issued, hfresh.absent, fun row hrow => hfresh.unsaved row (hrows row hrow)⟩,
      hclear⟩
  · rintro _ ⟨⟩
    refine ⟨fun _ h => h, ?_, fun _ h => h⟩
    rintro _ ⟨⟩

/-- The end of a removal keeps the invariant. -/
theorem inv_unregistering (hs : s.Inv db) {call : ℕ} {existing : Uuid}
    (htask : s.tasks.lookup call = some (.unregistering existing))
    (hfree : s.registry.referenced existing = false) :
    ∃ db', (s.advance call (.unregistering existing)).Inv db' := by
  refine hs.delete none htask rfl rfl (hs.tasks call _ htask).absent hfree rfl rfl
    (fun call' => DashMap.lookup_erase _ _ _) ?_ ?_
  · rintro db' - _ ⟨⟩
  · rintro _ ⟨⟩

end ConcurrentRegistry

/-- A row that replaces what conflicts with it is unique. -/
theorem SqliteStorage.Unique.insertOrReplace {db : SqliteStorage} (h : db.Unique)
    (row : ServiceRow) :
    Unique { db with services := db.services.insertOrReplace ServiceRow.conflict row } := by
  have hother : ∀ row' ∈ db.services.delete row.conflict,
      row'.id ≠ row.id ∧ row'.pathPrefix ≠ row.pathPrefix := by
    intro row' hrow'
    have hconflict := (Table.mem_delete.mp hrow').2
    rw [ServiceRow.conflict, Bool.or_eq_false_iff, decide_eq_false_iff_not,
      decide_eq_false_iff_not] at hconflict
    exact ⟨Ne.symm hconflict.1, Ne.symm hconflict.2⟩
  have hsublist : (db.services.delete row.conflict).Sublist db.services := List.filter_sublist
  constructor
  · show ((db.services.delete row.conflict ++ [row]).map (·.id)).Nodup
    rw [List.map_append, List.map_singleton, ← List.concat_eq_append, List.nodup_concat]
    refine ⟨fun hmem => ?_, h.ids.sublist (hsublist.map _)⟩
    obtain ⟨row', hrow', hid⟩ := List.mem_map.mp hmem
    exact (hother row' hrow').1 hid
  · show ((db.services.delete row.conflict ++ [row]).map (·.pathPrefix)).Nodup
    rw [List.map_append, List.map_singleton, ← List.concat_eq_append, List.nodup_concat]
    refine ⟨fun hmem => ?_, h.prefixes.sublist (hsublist.map _)⟩
    obtain ⟨row', hrow', hpath⟩ := List.mem_map.mp hmem
    exact (hother row' hrow').2 hpath

namespace ConcurrentRegistry

variable {s s' : ConcurrentRegistry} {db db' : SqliteStorage} {task : RegistryTask}
  {entry : ServiceEntry}

/-- The step of a registration that writes the new row keeps the invariant: the rows that it
replaces are those of services that are on their way out. -/
theorem inv_saving (hs : s.Inv db) {call : ℕ}
    (htask : s.tasks.lookup call = some (.saving entry))
    (hfree : s.TaskKeepsApart (.saving entry)) :
    ∃ db', (s.advance call (.saving entry)).Inv db' := by
  obtain ⟨hfresh, hclear⟩ := hs.tasks call _ htask
  have hconflict : ∀ row ∈ db.services, entry.toRow.conflict row = true →
      row.pathPrefix = entry.pathPrefix := by
    intro row hrow h
    rcases Bool.or_eq_true_iff.mp h with hid | hpath
    · exact absurd (of_decide_eq_true hid).symm (hfresh.unsaved row hrow)
    · exact (of_decide_eq_true hpath).symm
  have hsave : db.saveService entry = some { db with
      services := db.services.insertOrReplace ServiceRow.conflict entry.toRow } := by
    unfold SqliteStorage.saveService
    rw [Table.insertOrReplaceRestrict_of_unreferenced fun row hrow hc =>
      hfree db hs.storage row hrow (hconflict row hrow hc)]
    rfl
  -- The row of a service with another prefix stays.
  have hkept : ∀ row ∈ db.services, row.pathPrefix ≠ entry.pathPrefix →
      row ∈ db.services.insertOrReplace ServiceRow.conflict entry.toRow := by
    intro row hrow hne
    refine Table.mem_insertOrReplace.mpr (.inl ⟨hrow, ?_⟩)
    rw [Bool.eq_false_iff]
    exact fun h => hne (hconflict row hrow h)
  refine ⟨_, hs.change (some (.inserting entry)) ⟨?_, hs.unique.insertOrReplace entry.toRow,
    hs.keyed, fun id e he => ?_, fun row hrow => ?_⟩ (lookup_put call _) (fun row hrow => ?_)
    (fun call' task' hne htask' => ?_) ?_⟩
  · show Option.map _ s.registry.storage = _
    rw [hs.storage, Option.map_some]
    show some ((db.saveService entry).getD db) = _
    rw [hsave, Option.getD_some]
  · obtain ⟨row, hrow, -, hpath, hsettings⟩ := hs.row he
    exact ⟨row, hkept row hrow (hpath ▸ hclear id e he), hsettings⟩
  · rcases Table.mem_insertOrReplace.mp hrow with ⟨hold, -⟩ | rfl
    · exact hs.issued row hold
    · exact hfresh.issued
  · rcases Table.mem_insertOrReplace.mp hrow with ⟨hold, -⟩ | rfl
    · rcases hs.owned row hold with hsome | ⟨call', task', htask', howns⟩
      · exact .inl hsome
      · refine .inr (.inr ⟨call', task', ?_, htask', howns⟩)
        rintro rfl
        cases htask.symm.trans htask'
        cases howns
    · exact .inr (.inl ⟨.inserting entry, rfl, rfl⟩)
  · have hapart := hs.apart call call' _ task' hne.symm htask htask'
    refine (hs.tasks call' task' htask').kept (fun _ h => h) (fun id e he => .inl ⟨e, he, rfl⟩)
      (fun row hrow => ?_) fun entry' hinserting row hrow hsettings => ⟨row, hkept row hrow ?_, rfl⟩
    · rcases Table.mem_insertOrReplace.mp hrow with ⟨hold, -⟩ | rfl
      · exact .inl ⟨row, hold, rfl⟩
      · exact .inr fun entry' hentry' => (hapart.new entry rfl entry' hentry').symm
    · subst hinserting
      rw [show row.pathPrefix = entry'.pathPrefix from congrArg ServiceRow.pathPrefix hsettings]
      exact (hapart.registers entry rfl entry' rfl).symm
  · rintro _ ⟨⟩
    refine ⟨⟨⟨hfresh.issued, hfresh.absent⟩, hclear, entry.toRow, ?_, rfl⟩,
      fun call' other hne hother => ?_⟩
    · exact Table.mem_insertOrReplace.mpr (.inr rfl)
    · exact (hs.apart call call' _ other hne.symm htask hother).of_subset (fun _ h => h)
        (fun _ h => h) fun _ h => h

/-- The end of a registration keeps the invariant. -/
theorem inv_inserting (hs : s.Inv db) {call : ℕ}
    (htask : s.tasks.lookup call = some (.inserting entry)) :
    (s.advance call (.inserting entry)).Inv db := by
  obtain ⟨htaken, hclear, hsaved⟩ := hs.tasks call _ htask
  have hmemory : ∀ {id e}, (s.advance call (.inserting entry)).registry.services.lookup id =
      some e → id = entry.id ∧ e = entry ∨ s.registry.services.lookup id = some e := by
    intro id e he
    rcases DashMap.lookup_insert_cases he with ⟨rfl, rfl⟩ | ⟨-, hold⟩
    · exact .inl ⟨rfl, rfl⟩
    · exact .inr hold
  refine hs.change none ⟨hs.storage, hs.unique, fun id e he => ?_, fun id e he => ?_,
    hs.issued⟩ (fun call' => DashMap.lookup_erase _ _ _) (fun row hrow => ?_)
    (fun call' task' hne htask' => ?_) ?_
  · rcases hmemory he with ⟨rfl, rfl⟩ | hold
    · rfl
    · exact hs.keyed id e hold
  · rcases hmemory he with ⟨-, rfl⟩ | hold
    · exact hsaved
    · exact hs.stored id e hold
  · have hinsert : (s.advance call (.inserting entry)).registry.services.lookup row.id =
        if row.id = entry.id then some entry else s.registry.services.lookup row.id :=
      DashMap.lookup_insert _ _ _ _
    rw [hinsert]
    by_cases hid : row.id = entry.id
    · rw [if_pos hid]
      exact .inl rfl
    · rw [if_neg hid]
      rcases hs.owned row hrow with hsome | ⟨call', task', htask', howns⟩
      · exact .inl hsome
      · refine .inr (.inr ⟨call', task', ?_, htask', howns⟩)
        rintro rfl
        cases htask.symm.trans htask'
        exact hid (Option.some.inj howns).symm
  · have hapart := hs.apart call call' _ task' hne.symm htask htask'
    refine (hs.tasks call' task' htask').kept (fun _ h => h) (fun id e he => ?_)
      (fun row hrow => .inl ⟨row, hrow, rfl⟩) fun _ _ row hrow _ => ⟨row, hrow, rfl⟩
    rcases hmemory he with ⟨rfl, rfl⟩ | hold
    · refine .inr ⟨fun entry' hentry' => ?_, fun existing hexisting => ?_,
        fun entry' hentry' => ?_⟩
      · exact (hapart.new e rfl entry' hentry').symm
      · exact (hapart.target e rfl existing hexisting).symm
      · exact (hapart.registers e rfl entry' hentry').symm
    · exact .inl ⟨e, hold, rfl⟩
  · rintro _ ⟨⟩

/-- The next step of a call keeps the invariant. -/
theorem inv_advance (hs : s.Inv db) {call : ℕ} (htask : s.tasks.lookup call = some task)
    (hok : s.TaskKeepsApart task) : ∃ db', (s.advance call task).Inv db' := by
  cases task with
  | checked given entry => exact ⟨db, inv_checked hs hok htask⟩
  | replacing existing entry => exact ⟨db, inv_replacing hs htask⟩
  | deleting existing entry => exact inv_deleting hs htask hok
  | saving entry => exact inv_saving hs htask hok
  | inserting entry => exact ⟨db, inv_inserting hs htask⟩
  | unregistering existing => exact inv_unregistering hs htask hok

/-- An update keeps the invariant that changes neither the ids nor the settings of services and
rows. -/
theorem Inv.update (hs : s.Inv db) (hstorage : s'.registry.storage = some db')
    (hids : db'.services.map (·.id) = db.services.map (·.id))
    (hprefixes : db'.services.map (·.pathPrefix) = db.services.map (·.pathPrefix))
    (hmemory : ∀ id e', s'.registry.services.lookup id = some e' →
      ∃ e, s.registry.services.lookup id = some e ∧ e.toRow.settings = e'.toRow.settings)
    (hisSome : ∀ id, (s.registry.services.lookup id).isSome →
      (s'.registry.services.lookup id).isSome)
    (hrows : ∀ row ∈ db.services, ∃ row' ∈ db'.services, row'.settings = row.settings)
    (htasks : s'.tasks = s.tasks) (hissued : s'.issued = s.issued) : s'.Inv db' := by
  have hold : ∀ row' ∈ db'.services, ∃ row ∈ db.services, row.id = row'.id := by
    intro row' hrow'
    have hmem : row'.id ∈ db.services.map (·.id) := hids ▸ List.mem_map_of_mem hrow'
    exact List.mem_map.mp hmem
  refine ⟨⟨hstorage, ⟨hids ▸ hs.unique.ids, hprefixes ▸ hs.unique.prefixes⟩, fun id e' he' => ?_,
    fun id e' he' => ?_, fun row' hrow' => ?_⟩, fun row' hrow' => ?_, fun call task htask => ?_,
    ?_⟩
  · obtain ⟨e, he, hsettings⟩ := hmemory id e' he'
    exact (congrArg ServiceRow.id hsettings).symm.trans (hs.keyed id e he)
  · obtain ⟨e, he, hsettings⟩ := hmemory id e' he'
    obtain ⟨row, hrow, hrowSettings⟩ := hs.stored id e he
    obtain ⟨row', hrow', hsame⟩ := hrows row hrow
    exact ⟨row', hrow', (hsame.trans hrowSettings).trans hsettings⟩
  · obtain ⟨row, hrow, hid⟩ := hold row' hrow'
    rw [hissued, ← hid]
    exact hs.issued row hrow
  · obtain ⟨row, hrow, hid⟩ := hold row' hrow'
    rw [← hid, htasks]
    exact (hs.owned row hrow).imp_left (hisSome row.id)
  · rw [htasks] at htask
    refine (hs.tasks call task htask).kept (fun _ h => hissued ▸ h) (fun id e' he' => ?_)
      (fun row' hrow' => .inl (hold row' hrow')) fun _ _ row hrow _ => hrows row hrow
    obtain ⟨e, he, hsettings⟩ := hmemory id e' he'
    exact .inl ⟨e, he, congrArg ServiceRow.pathPrefix hsettings⟩
  · rw [htasks]
    exact hs.apart

/-- A service in memory that changes in place keeps the invariant. -/
theorem inv_modify (hs : s.Inv db) {id : Uuid} {f : ServiceEntry → ServiceEntry}
    (hf : ∀ e, (f e).toRow.settings = e.toRow.settings) :
    Inv { s with registry :=
      { s.registry with services := s.registry.services.modify id f } } db := by
  have hlookup : ∀ id', (s.registry.services.modify id f).lookup id' =
      if id' = id then (s.registry.services.lookup id).map f
      else s.registry.services.lookup id' := fun id' => DashMap.lookup_modify _ _ _ _
  refine hs.update hs.storage rfl rfl (fun id' e' he' => ?_) (fun id' hsome => ?_)
    (fun row hrow => ⟨row, hrow, rfl⟩) rfl rfl
  · have he := (hlookup id').symm.trans he'
    split at he
    next heq =>
      obtain ⟨e, hold, rfl⟩ := Option.map_eq_some_iff.mp he
      exact ⟨e, heq ▸ hold, (hf e).symm⟩
    next => exact ⟨e', he, rfl⟩
  · show ((s.registry.services.modify id f).lookup id').isSome
    rw [hlookup]
    split
    next heq =>
      rw [Option.isSome_map, ← heq]
      exact hsome
    next => exact hsome

/-- A count that is written to a row keeps the invariant. -/
theorem inv_updateRequestCount (hs : s.Inv db) (id : Uuid) (count : ℕ) :
    ∃ db', (s.persist (·.updateRequestCount id count)).Inv db' := by
  refine ⟨_, hs.update (by rw [persist, ServiceRegistry.persist, hs.storage]; rfl) ?_ ?_
    (fun id' e he => ⟨e, he, rfl⟩) (fun _ h => h) (fun row hrow => ?_) rfl rfl⟩
  · simp only [SqliteStorage.updateRequestCount, Option.getD_some, List.map_map]
    refine List.map_congr_left fun row _ => ?_
    simp only [Function.comp_apply]
    split <;> rfl
  · simp only [SqliteStorage.updateRequestCount, Option.getD_some, List.map_map]
    refine List.map_congr_left fun row _ => ?_
    simp only [Function.comp_apply]
    split <;> rfl
  · refine ⟨_, List.mem_map_of_mem hrow, ?_⟩
    split <;> rfl

/-- A counted request keeps the invariant. -/
theorem inv_incrementRequestCount (hs : s.Inv db) (id : Uuid) :
    ∃ db', Inv { s with registry := s.registry.incrementRequestCount id } db' := by
  unfold ServiceRegistry.incrementRequestCount
  split
  next entry hentry =>
    have hcounted : Inv { s with registry := { s.registry with
        services := s.registry.services.insert id
          { entry with requestCount := wrappingAdd entry.requestCount 1 } } } db := by
      refine hs.update hs.storage rfl rfl (fun id' e' he' => ?_) (fun id' hsome => ?_)
        (fun row hrow => ⟨row, hrow, rfl⟩) rfl rfl
      · rcases DashMap.lookup_insert_cases he' with ⟨rfl, rfl⟩ | ⟨-, hold⟩
        · exact ⟨entry, hentry, rfl⟩
        · exact ⟨e', hold, rfl⟩
      · show ((s.registry.services.insert id _).lookup id').isSome
        rw [DashMap.lookup_insert]
        split
        next => rfl
        next => exact hsome
    dsimp only
    split
    next => exact inv_updateRequestCount hcounted _ _
    next => exact ⟨db, hcounted⟩
  next => exact ⟨db, hs⟩

/-- A row of the request logger keeps the invariant. -/
theorem inv_logRequest (hs : s.Inv db) (log : RequestLogRow) :
    ∃ db', (s.persist (·.logRequest log)).Inv db' := by
  have hservices : ((db.logRequest log).getD db).services = db.services := by
    unfold SqliteStorage.logRequest
    split
    next => rfl
    next => rfl
  refine ⟨_, hs.update (by rw [persist, ServiceRegistry.persist, hs.storage]; rfl) ?_ ?_
    (fun id' e he => ⟨e, he, rfl⟩) (fun _ h => h) (fun row hrow => ⟨row, ?_, rfl⟩) rfl rfl⟩
  · rw [hservices]
  · rw [hservices]
  · rw [hservices]
    exact hrow

/-- A start reads what is stored. -/
theorem inv_withStorage (hunique : db.Unique) {issued : List Uuid}
    (hissued : ∀ row ∈ db.services, row.id ∈ issued) : Inv ⟨.withStorage db, ∅, issued⟩ db := by
  have hmirrored := ServiceRegistry.mirrored_withStorage hunique
  refine ⟨⟨rfl, hunique, hmirrored.ids, fun id entry hentry => ?_, hissued⟩, fun row hrow => ?_,
    fun _ _ htask => ?_, fun _ _ _ _ _ htask => ?_⟩
  · exact ⟨entry.toRow, hmirrored.toRow_mem hentry, rfl⟩
  · exact .inl ((hmirrored.lookup_isSome row.id).mpr ⟨row, hrow, rfl⟩)
  · cases htask
  · cases htask

/-- Every step keeps the invariant. -/
theorem inv_step (s : ConcurrentRegistry) (a : ConcurrentAction) (s' : ConcurrentRegistry)
    (hs : ∃ db, s.Inv db) (hok : s.KeepsApart a) (h : s.step a = some s') : ∃ db, s'.Inv db := by
  obtain ⟨db, hs⟩ := hs
  cases a with
  | register call id now name given upstream healthEndpoint =>
      exact ⟨db, inv_draw_found hs (.new id now name given upstream healthEndpoint) hok rfl h⟩
  | registerAdvanced call id now req =>
      exact ⟨db, inv_draw_found hs (ServiceRegistry.entryOfRequest id now req) hok rfl h⟩
  | discover call id now name given upstream healthEndpoint =>
      simp only [step] at h
      split at h
      next =>
        cases h
        exact ⟨db, hs⟩
      next =>
        exact ⟨db, inv_draw_checked hs (.new id now name given upstream healthEndpoint) rfl h⟩
  | unregister call id =>
      simp only [step] at h
      split at h
      next => cases h
      next hcall =>
        split at h
        next entry hentry =>
          cases h
          exact ⟨db, inv_unregister hs (Option.not_isSome_iff_eq_none.mp hcall) hentry⟩
        next =>
          cases h
          exact ⟨db, hs⟩
  | advance call =>
      obtain ⟨task, htask, rfl⟩ := Option.map_eq_some_iff.mp h
      exact inv_advance hs htask (hok task htask)
  | updateStatus id status now =>
      cases h
      exact ⟨db, inv_modify hs fun _ => rfl⟩
  | setUpstreams id upstreams =>
      cases h
      exact ⟨db, inv_modify hs fun _ => rfl⟩
  | incrementRequestCount id =>
      cases h
      exact inv_incrementRequestCount hs id
  | logRequest log =>
      cases h
      exact inv_logRequest hs log
  | restart =>
      cases h
      rw [hs.storage]
      exact ⟨db, inv_withStorage hs.unique hs.issued⟩

/-- A service is replaced while another one is removed and a third one is discovered. -/
def overlappingCalls : List ConcurrentAction :=
  [.register 0 1 0 "a" "/a" "http://10.0.0.1" "/health", .advance 0, .advance 0,
    .register 0 2 0 "b" "/b" "http://10.0.0.2" "/health", .advance 0, .advance 0,
    .register 1 3 5 "a" "a/" "http://10.0.0.3" "/health", .unregister 2 2,
    .discover 3 4 5 "c" "/c" "http://10.0.0.4" "/health", .advance 1, .advance 3,
    .incrementRequestCount 2, .advance 1, .advance 2, .advance 3]

/-- Where two registrations of one prefix overlap, both services are in memory and one of them is
stored. -/
example : (machine.exec Machine.unrestricted (initial .empty)
    [.register 0 1 0 "a" "/a" "http://10.0.0.1" "/", .register 1 2 0 "b" "/a" "http://10.0.0.2" "/",
      .advance 0, .advance 1, .advance 0, .advance 1]).map (fun s =>
        (s.registry.services.values.map (·.pathPrefix),
          s.registry.storage.map fun db => db.services.map (·.id))) =
    some (["/a", "/a"], some [2]) := by decide

end ConcurrentRegistry

end XiraNet

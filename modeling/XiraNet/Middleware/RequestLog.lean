import XiraNet.Lib.DashCount
import XiraNet.Middleware.Layers

/-!
# The request log

What becomes of the requests that the layers hand to the logger of `middleware/logger.rs`, and the
rows that it leaves in `request_logs`.

* `App.accounted_of_runs`: in every run that removes no service a row references, each of these
  requests is counted once, and its row is lost only if its service was removed in between.
-/

namespace XiraNet

namespace ServiceRegistry

variable {r : ServiceRegistry}

/-- The request log of a registry's database. -/
def logs (r : ServiceRegistry) : Option (Table RequestLogRow) := r.storage.map (·.requestLogs)

/-- A database call that leaves the request log alone. -/
theorem logs_persist {call : SqliteStorage → Option SqliteStorage}
    (hcall : ∀ db, ((call db).getD db).requestLogs = db.requestLogs) :
    (r.persist call).logs = r.logs := by
  unfold logs persist
  rw [Option.map_map]
  exact Option.map_congr fun db _ => hcall db

/-- Storing a service leaves the request log alone. -/
theorem logs_insertEntry (entry : ServiceEntry) : (r.insertEntry entry).logs = r.logs := by
  refine logs_persist fun db => ?_
  unfold SqliteStorage.saveService
  cases db.services.insertOrReplaceRestrict (fun r => db.referenced r.id) ServiceRow.conflict
    entry.toRow <;> rfl

/-- Removing a service leaves the request log alone. -/
theorem logs_removeService (id : Uuid) : (r.persist (·.removeService id)).logs = r.logs := by
  refine logs_persist fun db => ?_
  unfold SqliteStorage.removeService
  cases db.services.deleteRestrict (fun r => db.referenced r.id) fun r => r.id = id <;> rfl

/-- Making room for a service leaves the request log alone. -/
theorem logs_replaceExisting (pathPrefix : String) :
    (r.replaceExisting pathPrefix).logs = r.logs := by
  unfold replaceExisting
  split
  next existing _ => exact logs_removeService (r := { r with services := _ }) existing.id
  next => rfl

/-- A row of the request logger, with the database that takes it. -/
theorem logRequest_isSome {db : SqliteStorage} (h : r.Mirrored db) (row : RequestLogRow) :
    (r.storage.bind (·.logRequest row)).isSome ↔
      ∀ id ∈ row.serviceId, (r.services.lookup id).isSome := by
  rw [h.storage, Option.bind_some, SqliteStorage.logRequest]
  simp only [h.lookup_isSome]
  split
  next hall => exact iff_of_true rfl hall
  next hnot => exact iff_of_false Bool.false_ne_true hnot

/-- The row is the last one of the request log, if the database takes it. -/
theorem logs_logRequest {db : SqliteStorage} (h : r.Mirrored db) (row : RequestLogRow) :
    (r.persist (·.logRequest row)).logs = some (db.requestLogs ++
      if (r.storage.bind (·.logRequest row)).isSome then [row] else []) := by
  simp only [logs, persist, h.storage, Option.map_some, Option.bind_some]
  unfold SqliteStorage.logRequest
  split
  next => rfl
  next => exact congrArg some (List.append_nil _).symm

end ServiceRegistry

namespace RegistryHistory

variable {s s' : RegistryHistory}

/-- A service that was there is there, or gone. -/
def Known (s : RegistryHistory) (id : Uuid) : Prop :=
  (s.registry.services.lookup id).isSome ∨ id ∈ s.gone

/-- A registration leaves every service known. -/
theorem known_replace (hs : s.Inv) {pathPrefix : String} (entry : ServiceEntry)
    (hentry : entry.pathPrefix = ServiceEntry.normalizePrefix pathPrefix)
    (hclash : s.registry.NoEmptyClash pathPrefix)
    (hfree : ∀ existing ∈ s.registry.findByPrefix pathPrefix,
      s.registry.referenced existing.id = false)
    (h : s.replace entry.id pathPrefix ((s.registry.replaceExisting pathPrefix).insertEntry entry) =
      some s') : s'.registry.logs = s.registry.logs ∧ s.gone ⊆ s'.gone ∧
      ∀ id, s.Known id → s'.Known id := by
  obtain ⟨db, hmirrored⟩ := hs.mirrored
  unfold replace at h
  split at h
  next => cases h
  next hfresh =>
    cases h
    have hnew : s.registry.services.lookup entry.id = none :=
      Option.not_isSome_iff_eq_none.mp fun hsome => hfresh (hs.fresh _ hsome)
    obtain ⟨-, -, hlookup⟩ := replaceExisting_insertEntry hmirrored hentry hnew hclash hfree
    refine ⟨(ServiceRegistry.logs_insertEntry entry).trans
      (ServiceRegistry.logs_replaceExisting pathPrefix), List.subset_append_right _ _,
      fun id hknown => ?_⟩
    rcases hknown with hsome | hgone
    · unfold Known
      rw [hlookup]
      split
      next => exact .inl rfl
      next =>
        split
        next hreplaced =>
          obtain ⟨existing, hfind, rfl⟩ := hreplaced
          rw [Option.mem_def.mp hfind]
          exact .inr List.mem_cons_self
        next => exact .inl hsome
    · exact .inr (List.mem_append_right _ hgone)

/-- An operation of the registry leaves the request log alone and every service known. -/
theorem step_known (hs : s.Inv) {a : RegistryAction} (hoperation : a.isOperation = true)
    (hok : s.KeepsDurable a) (h : s.step a = some s') :
    s'.registry.logs = s.registry.logs ∧ s.gone ⊆ s'.gone ∧
      ∀ id, s.Known id → s'.Known id := by
  cases a with
  | register id now name pathPrefix upstream healthEndpoint =>
      exact known_replace hs (.new id now name pathPrefix upstream healthEndpoint) rfl hok.1 hok.2 h
  | registerAdvanced id now req =>
      exact known_replace hs (ServiceRegistry.entryOfRequest id now req) rfl hok.1 hok.2 h
  | loadEntry id now svc =>
      cases hfind : s.registry.findByPrefix svc.pathPrefix with
      | some existing =>
          simp only [step, ServiceRegistry.loadEntry, hfind, Option.isSome_some, if_true] at h
          split at h
          next => cases h
          next =>
            cases h
            exact ⟨rfl, List.Subset.refl _, fun id hknown => hknown⟩
      | none =>
          -- Nothing is replaced, so this is a registration that found the prefix free.
          have hreplace : s.replace id svc.pathPrefix
              ((s.registry.replaceExisting svc.pathPrefix).insertEntry
                (ServiceRegistry.entryOfConfig id now svc)) = some s' := by
            simpa [step, replace, ServiceRegistry.loadEntry, ServiceRegistry.replaceExisting,
              hfind] using h
          exact known_replace hs (ServiceRegistry.entryOfConfig id now svc) rfl hok
            (by simp [hfind]) hreplace
  | unregister id =>
      cases h
      cases hlook : s.registry.services.lookup id with
      | none =>
          simp only [ServiceRegistry.unregister, hlook]
          exact ⟨trivial, List.Subset.refl _, fun id' hknown => hknown⟩
      | some entry =>
          simp only [ServiceRegistry.unregister, hlook]
          refine ⟨ServiceRegistry.logs_removeService (r := { s.registry with services := _ }) _,
            List.subset_cons_self _ _, fun id' hknown => ?_⟩
          by_cases hid : id' = id
          · exact .inr (hid ▸ List.mem_cons_self)
          · refine hknown.imp (fun hsome => ?_) (List.mem_cons_of_mem _)
            rw [ServiceRegistry.services_persist, DashMap.lookup_erase, if_neg hid]
            exact hsome
  | logRequest | restart => cases hoperation

end RegistryHistory

namespace App

/-- The steps that remove no service a row references. -/
def KeepsRows (s : App) : AppAction → Prop
  | .registry a => s.history.KeepsDurable a
  | _ => True

instance (s : App) (a : AppAction) : Decidable (s.KeepsRows a) :=
  match a with
  | .registry a => inferInstanceAs (Decidable (s.history.KeepsDurable a))
  | .arrive .. | .respond .. | .close .. | .evict .. => inferInstanceAs (Decidable True)

/-- Every request that the rate limiter admitted is counted once, and the request log has a row for
each that was answered. -/
structure Accounted (log : Table RequestLogRow) (s : App) : Prop where
  once : s.admitted.Perm (s.finished.map Finished.request ++ s.pending.values ++ s.closed)
  /-- The rows are those that were written, in the order of the responses. -/
  rows : s.history.registry.logs =
    some (log ++ (s.finished.filter Finished.written).map Finished.row)
  /-- A row is missing for a path that has none, or because its service was removed. -/
  written : ∀ f ∈ s.finished, f.written = true ∨ isLoggedPath f.request.req.path = false ∨
    ∃ id ∈ f.request.serviceId, id ∈ s.history.gone
  /-- The paths that have none. -/
  unlogged : ∀ f ∈ s.finished, f.written = true → isLoggedPath f.request.req.path = true

/-- The invariant. -/
structure LogInv (log : Table RequestLogRow) (s : App) : Prop where
  history : s.history.Inv
  accounted : s.Accounted log
  known : ∀ call r, s.pending.lookup call = some r → ∀ id ∈ r.serviceId, s.history.Known id

variable {l : Layers} {s s' : App} {log : Table RequestLogRow}

/-- The application after its start. -/
theorem logInv_initial {db : SqliteStorage} (hunique : db.Unique) :
    (initial db).LogInv db.requestLogs where
  history := RegistryHistory.inv_initial hunique
  accounted := {
    once := List.Perm.refl _
    rows := congrArg some (List.append_nil _).symm
    written := fun f hf => absurd hf List.not_mem_nil
    unlogged := fun f hf => absurd hf List.not_mem_nil }
  known := fun call r h => by cases h

/-- A request is counted once for what becomes of it. -/
theorem perm_pending {finished closed admitted : List Logged} {pending : DashMap ℕ Logged}
    {call : ℕ} {r : Logged} (h : admitted.Perm (finished ++ pending.values ++ closed))
    (hcall : pending.lookup call = some r) :
    admitted.Perm (r :: (finished ++ DashMap.values (pending.erase call) ++ closed)) := by
  refine h.trans ?_
  rw [List.append_assoc, List.append_assoc]
  exact (((DashMap.perm_values_erase hcall).append_right closed).append_left finished).trans
    List.perm_middle

/-- A request that is let through is pending. -/
theorem LogInv.arrive (h : s.LogInv log) (call : ℕ) (req : HttpRequest) (now : ℕ)
    (hcall : s.pending.lookup call = none) : (s.arrive l call req now).LogInv log := by
  rcases arrive_cases l s call req now with ⟨res, -, harrive⟩ | ⟨secs, limits, -, -, harrive⟩ |
    ⟨entry, limits, -, -, hentry, harrive⟩ <;> rw [harrive]
  · exact ⟨h.history, ⟨h.accounted.once, h.accounted.rows, h.accounted.written,
      h.accounted.unlogged⟩, h.known⟩
  · exact ⟨h.history, ⟨h.accounted.once, h.accounted.rows, h.accounted.written,
      h.accounted.unlogged⟩, h.known⟩
  · refine ⟨h.history, ⟨?_, h.accounted.rows, h.accounted.written, h.accounted.unlogged⟩,
      fun call' r hr => ?_⟩
    · dsimp only
      rw [DashMap.values_insert, DashMap.values_erase_of_none hcall]
      refine (List.perm_append_singleton entry _).trans ((h.accounted.once.cons entry).trans ?_)
      rw [List.append_assoc, List.append_assoc]
      exact List.perm_middle.symm
    · rcases DashMap.lookup_insert_cases hr with ⟨-, rfl⟩ | ⟨-, hold⟩
      · intro id hid
        obtain ⟨db, hmirrored⟩ := h.history.mirrored
        rw [hentry] at hid
        obtain ⟨service, hservice, rfl⟩ := Option.map_eq_some_iff.mp hid
        -- The service was there when the request arrived.
        obtain ⟨id, hid⟩ := (DashMap.mem_values_iff _ _).mp
          (ServiceRegistry.lookup_eq_some hservice).1
        refine .inl ?_
        rw [hmirrored.ids id service hid, hid]
        rfl
      · exact h.known call' r hold

/-- A response leaves its row, if there is one and its service is still there. -/
theorem LogInv.respond (h : s.LogInv log) {call : ℕ} {r : Logged}
    (hcall : s.pending.lookup call = some r) (res : HttpResponse) (now : ℕ) (timestamp : DateTime) :
    (s.respond call r res now timestamp).LogInv log := by
  obtain ⟨db, hmirrored⟩ := h.history.mirrored
  have hlogs : s.history.registry.logs = some db.requestLogs := by
    rw [ServiceRegistry.logs, hmirrored.storage]
    rfl
  have hwritten := ServiceRegistry.logRequest_isSome hmirrored (r.row res.status now timestamp)
  have hrow := ServiceRegistry.logs_logRequest hmirrored (r.row res.status now timestamp)
  obtain ⟨db', hmirrored'⟩ := hmirrored.logRequest (r.row res.status now timestamp)
  have honce : s.admitted.Perm ((s.finished.map Finished.request ++ [r]) ++
      DashMap.values (s.pending.erase call) ++ s.closed) := by
    refine (perm_pending h.accounted.once hcall).trans ?_
    rw [List.append_assoc, List.append_assoc, List.append_assoc]
    exact List.perm_middle.symm
  have hknown : ∀ call' r', (s.pending.erase call).lookup call' = some r' → ∀ id ∈ r'.serviceId,
      s.history.Known id := fun call' r' hr => h.known call' r' (DashMap.lookup_erase_cases hr).2
  unfold App.respond
  cases hpath : isLoggedPath r.req.path with
  | false =>
      refine ⟨?_, ⟨?_, ?_, fun f hf => ?_, fun f hf hf' => ?_⟩, hknown⟩
      · exact h.history
      · rw [List.map_append]
        exact honce
      · simpa [hpath] using h.accounted.rows
      · rcases List.mem_append.mp hf with hf | hf
        · exact h.accounted.written f hf
        · rw [List.mem_singleton.mp hf]
          exact .inr (.inl hpath)
      · rcases List.mem_append.mp hf with hf | hf
        · exact h.accounted.unlogged f hf hf'
        · rw [List.mem_singleton.mp hf] at hf'
          cases hf'
  | true =>
      refine ⟨?_, ⟨?_, ?_, fun f hf => ?_, fun f hf hf' => ?_⟩, hknown⟩
      · exact h.history.of_services_eq (fun _ => Iff.rfl) rfl rfl rfl ⟨db', hmirrored'⟩
      · rw [List.map_append]
        exact honce
      · dsimp only
        rw [Bool.true_and, if_pos rfl, hrow, List.filter_append, List.map_append]
        have hrows := h.accounted.rows
        rw [hlogs] at hrows
        rw [Option.some.inj hrows, List.append_assoc]
        congr 3
        cases (s.history.registry.storage.bind
          (·.logRequest (r.row res.status now timestamp))).isSome <;> rfl
      · rcases List.mem_append.mp hf with hf | hf
        · exact h.accounted.written f hf
        · rw [List.mem_singleton.mp hf]
          by_cases hall : ∀ id ∈ r.serviceId, (s.history.registry.services.lookup id).isSome
          · exact .inl (by rw [Bool.true_and]; exact hwritten.mpr hall)
          -- A service that is not there was removed since the request arrived.
          · simp only [not_forall] at hall
            obtain ⟨id, hid, hnone⟩ := hall
            exact .inr (.inr ⟨id, hid, (h.known call r hcall id hid).resolve_left hnone⟩)
      · rcases List.mem_append.mp hf with hf | hf
        · exact h.accounted.unlogged f hf hf'
        · rw [List.mem_singleton.mp hf]
          exact hpath

/-- A step keeps the invariant. -/
theorem logInv_step (s : App) (a : AppAction) (s' : App) (hs : s.LogInv log) (hok : s.KeepsRows a)
    (h : step l s a = some s') : s'.LogInv log := by
  cases a with
  | arrive call req now =>
      simp only [step] at h
      split at h
      next => cases h
      next hfree =>
        cases h
        exact hs.arrive call req now (Option.not_isSome_iff_eq_none.mp hfree)
  | respond call res now timestamp =>
      obtain ⟨r, hcall, rfl⟩ := Option.map_eq_some_iff.mp h
      exact hs.respond hcall res now timestamp
  | close call =>
      obtain ⟨r, hcall, rfl⟩ := Option.map_eq_some_iff.mp h
      refine ⟨hs.history, ⟨?_, hs.accounted.rows, hs.accounted.written, hs.accounted.unlogged⟩,
        fun call' r' hr => hs.known call' r' (DashMap.lookup_erase_cases hr).2⟩
      exact (perm_pending hs.accounted.once hcall).trans List.perm_middle.symm
  | evict now =>
      cases h
      exact ⟨hs.history, ⟨hs.accounted.once, hs.accounted.rows, hs.accounted.written,
        hs.accounted.unlogged⟩, hs.known⟩
  | registry a =>
      simp only [step] at h
      split at h
      next hoperation =>
        obtain ⟨history, hhistory, rfl⟩ := Option.map_eq_some_iff.mp h
        obtain ⟨hlogs, hgone, hknown⟩ :=
          RegistryHistory.step_known hs.history hoperation hok hhistory
        refine ⟨RegistryHistory.inv_step _ a _ hs.history hok hhistory, ⟨hs.accounted.once,
          hlogs.trans hs.accounted.rows, fun f hf => ?_, hs.accounted.unlogged⟩,
          fun call r hr id hid => hknown id (hs.known call r hr id hid)⟩
        refine (hs.accounted.written f hf).imp_right fun hwhy => hwhy.imp_right ?_
        rintro ⟨id, hid, hold⟩
        exact ⟨id, hid, hgone hold⟩
      next => cases h

/-- A service is used, and removed while a second request is under way. -/
def removedMeanwhile : List AppAction :=
  [.registry (.register 3 0 "a" "/a" "http://10.0.0.1" "/health"),
    .arrive 1 (tokenRequest "t") 6, .registry (.unregister 3), .respond 1 (.json 200 []) 9 0,
    .arrive 2 (tokenRequest "t") (10 ^ 12), .respond 2 (.json 502 []) (10 ^ 12 + 5) 0]

end App

end XiraNet

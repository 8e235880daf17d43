import Mathlib.Data.List.Perm.Basic
import Mathlib.Logic.Function.Basic
import XiraNet.Health.Checker
import XiraNet.Lib.Runs

/-!
# Findings of the health checker

The rounds of the health checker, with checks of the admin API and registrations in between. A visit
reads the snapshot of its round and the incidents, which nothing else edits, and touches the
registry with its last statement only. So it is one step, taken when it stores the status.

* `HealthState.inStep_record_iff`: when alerts and incidents follow a finding.
* `HealthState.inStep_iff`: when they follow every finding of a run.
-/

namespace XiraNet

namespace ServiceRegistry

/-- The registry as the gateway starts with it. -/
def started (db : SqliteStorage) (svcs : List (Uuid × DateTime × ServiceConfig)) :
    ServiceRegistry :=
  (withStorage db).loadFromConfig svcs

/-- Services are registered under their ids. -/
def Keyed (r : ServiceRegistry) : Prop :=
  ∀ id entry, r.services.lookup id = some entry → entry.id = id

/-- Services have pairwise distinct names. -/
def NamesDistinct (r : ServiceRegistry) : Prop :=
  ∀ id id' entry entry', r.services.lookup id = some entry → r.services.lookup id' = some entry' →
    entry.name = entry'.name → id = id'

end ServiceRegistry

/-- What a visit has found and done, with the finding before. -/
structure Visit where
  service : ServiceEntry
  /-- The service is registered when the status is stored. -/
  registered : Bool
  previous : Option Bool
  isUp : Bool
  alert : Option HealthAlert
  /-- An incident that is not resolved affects the service afterwards. -/
  opened : Bool

/-- An alert is sent exactly if the finding differs from the one before, and an incident is open
exactly if the service is down. -/
def Visit.InStep (v : Visit) : Prop :=
  v.alert.map HealthAlert.isUp = (if v.previous = some v.isUp then none else some v.isUp) ∧
    v.opened = !v.isUp

instance (v : Visit) : Decidable v.InStep := inferInstanceAs (Decidable (_ ∧ _))

/-- The registry and the incidents, with the services that the round has still to visit, the ids and
names that were registered so far, and the findings and visits. -/
structure HealthState where
  registry : ServiceRegistry
  incidents : IncidentManager
  pending : List ServiceEntry
  known : List (Uuid × String)
  findings : Uuid → Option Bool
  visits : List Visit

/-- The steps: a round starts, with the services in any order, the checker visits the next service,
a check of the admin API ends, or a service is registered. -/
inductive HealthAction
  | startRound (services : List ServiceEntry)
  | visit (probes : ℕ → ProbeResult) (incidentId : String) (secs : ℕ) (now : DateTime)
  | check (listed : List ServiceEntry) (id : Option Uuid) (result : ProbeResult) (now : DateTime)
  | register (id : Uuid) (now : DateTime) (name pathPrefix upstream healthEndpoint : String)
  | registerAdvanced (id : Uuid) (now : DateTime) (req : RegisterServiceRequest)

namespace HealthState

/-- A visit to a service, with the rest of the round. -/
def visit (s : HealthState) (service : ServiceEntry) (rest : List ServiceEntry)
    (probes : ℕ → ProbeResult) (incidentId : String) (secs : ℕ) (now : DateTime) : HealthState :=
  let (newStatus, msg) := HealthChecker.probe service.name probes
  let isUp := decide (newStatus = .up)
  let (alert, incidents) :=
    HealthChecker.report s.incidents service newStatus msg incidentId secs
  { s with
    registry := s.registry.updateStatus service.id newStatus now
    incidents := incidents
    pending := rest
    findings := Function.update s.findings service.id (some isUp)
    visits := s.visits ++
      [{ service := service
         registered := (s.registry.services.lookup service.id).isSome
         previous := s.findings service.id
         isUp := isUp
         alert := alert
         opened := incidents.hasActive service.name }] }

/-- The id is a fresh one, and the name is not taken. -/
def isNew (s : HealthState) (id : Uuid) (name : String) : Bool :=
  s.known.all fun k => k.1 ≠ id && k.2 ≠ name

/-- One step. -/
def step (s : HealthState) : HealthAction → Option HealthState
  | .startRound services =>
      if s.pending = [] ∧ services.Perm s.registry.services.values then
        some { s with pending := services }
      else none
  | .visit probes incidentId secs now =>
      match s.pending with
      | service :: rest => some (s.visit service rest probes incidentId secs now)
      | [] => none
  | .check listed id result now =>
      some { s with registry := (checkServiceHealth listed s.registry id result now).2 }
  | .register id now name pathPrefix upstream healthEndpoint =>
      if s.isNew id name then
        some { s with
          registry := (s.registry.register id now name pathPrefix upstream healthEndpoint).2
          known := (id, name) :: s.known }
      else none
  | .registerAdvanced id now req =>
      if s.isNew id req.name then
        some { s with
          registry := (s.registry.registerAdvanced id now req).2
          known := (id, req.name) :: s.known }
      else none

/-- Every order of steps. -/
def machine : Machine HealthState HealthAction := ⟨step⟩

/-- The start, without incidents. -/
def initial (r : ServiceRegistry) : HealthState where
  registry := r
  incidents := []
  pending := []
  known := r.services.values.map fun entry => (entry.id, entry.name)
  findings := fun _ => none
  visits := []

/-- The condition on a visit: the status in the snapshot is the last finding; before the first
finding, it is not already the one that the visit makes. -/
def SeesLastFinding (s : HealthState) (service : ServiceEntry) (probes : ℕ → ProbeResult) : Prop :=
  match s.findings service.id with
  | some isUp => service.status = .ofUp isUp
  | none => service.status ≠ .ofUp (HealthChecker.answers probes)

/-- The condition on a step: a visit to a registered service sees the last finding. -/
def Meets (s : HealthState) : HealthAction → Prop
  | .visit probes _ _ _ =>
      ∀ service ∈ s.pending.head?, (s.registry.services.lookup service.id).isSome = true →
        s.SeesLastFinding service probes
  | _ => True

instance (s : HealthState) (service : ServiceEntry) (probes : ℕ → ProbeResult) :
    Decidable (s.SeesLastFinding service probes) := by
  unfold SeesLastFinding
  split <;> infer_instance

instance : ∀ (s : HealthState) (a : HealthAction), Decidable (s.Meets a) := by
  intro s a
  unfold Meets
  split <;> infer_instance

end HealthState

namespace ServiceStatus

/-- Findings are stored as different statuses. -/
@[simp]
theorem ofUp_inj {isUp isUp' : Bool} : ofUp isUp = ofUp isUp' ↔ isUp = isUp' := by
  cases isUp <;> cases isUp' <;> decide

/-- A finding is not stored as unknown. -/
theorem ofUp_ne_unknown (isUp : Bool) : ofUp isUp ≠ .unknown := by
  cases isUp <;> decide

/-- Every other status is that of a finding. -/
theorem exists_eq_ofUp {status : ServiceStatus} (h : status ≠ .unknown) :
    ∃ isUp, status = ofUp isUp := by
  cases status with
  | up => exact ⟨true, rfl⟩
  | down => exact ⟨false, rfl⟩
  | unknown => exact absurd rfl h

end ServiceStatus

namespace ServiceRegistry

variable {r : ServiceRegistry}

/-- An entry is inserted under its id. -/
theorem Keyed.insertEntry (h : r.Keyed) (new : ServiceEntry) : (r.insertEntry new).Keyed := by
  exact DashMap.keyed_insert h new

/-- The services of the database are registered under their ids. -/
theorem keyed_withStorage (db : SqliteStorage) : (withStorage db).Keyed :=
  DashMap.keyed_foldl_insert db.loadAllServices fun _ _ h => nomatch h

/-- The gateway starts with services under their ids. -/
theorem keyed_started (db : SqliteStorage) (svcs : List (Uuid × DateTime × ServiceConfig)) :
    (started db svcs).Keyed := by
  have hload : ∀ r : ServiceRegistry, r.Keyed → (r.loadFromConfig svcs).Keyed := by
    induction svcs with
    | nil => exact fun r h => h
    | cons svc svcs ih =>
        intro r h
        refine ih (r.loadEntry svc.1 svc.2.1 svc.2.2) ?_
        unfold loadEntry
        split
        next => exact h
        next => exact h.insertEntry _
  exact hload _ (keyed_withStorage db)

/-- No two services have one id. -/
theorem Keyed.nodup_ids (h : r.Keyed) : (r.services.values.map (·.id)).Nodup := by
  have hkeys : r.services.values.map (·.id) = r.services.keys := by
    rw [DashMap.values, List.map_map]
    refine List.map_congr_left fun e hmem => ?_
    exact h e.1 e.2 (AList.mem_lookup_iff.mpr hmem)
  rw [hkeys]
  exact r.services.keys_nodup

/-- What a registration leaves: the new service, and services from before. -/
theorem lookup_register {new entry : ServiceEntry} {pathPrefix : String} {id : Uuid}
    (h : ((r.replaceExisting pathPrefix).insertEntry new).services.lookup id = some entry) :
    (id = new.id ∧ entry = new) ∨ r.services.lookup id = some entry := by
  rcases DashMap.lookup_insert_cases h with ⟨hid, rfl⟩ | ⟨-, hold⟩
  · exact .inl ⟨hid, rfl⟩
  · -- The service with the prefix has gone, and the others are still there.
    right
    unfold replaceExisting at hold
    split at hold
    next => exact (DashMap.lookup_erase_cases hold).2
    next => exact hold

/-- A service after a status was stored. -/
theorem lookup_updateStatus {id id' : Uuid} {status : ServiceStatus} {now : DateTime}
    {entry : ServiceEntry} (h : (r.updateStatus id status now).services.lookup id' = some entry) :
    ∃ old, r.services.lookup id' = some old ∧ entry.id = old.id ∧ entry.name = old.name ∧
      entry.status = if id' = id then status else old.status := by
  rw [updateStatus, DashMap.lookup_modify] at h
  split at h
  next hid =>
    obtain ⟨old, hold, rfl⟩ := Option.map_eq_some_iff.mp h
    exact ⟨old, hid ▸ hold, rfl, rfl, (if_pos hid).symm⟩
  next hid => exact ⟨entry, h, rfl, rfl, (if_neg hid).symm⟩

end ServiceRegistry

namespace HealthState

/-- What holds while visits see the last findings. -/
structure Inv (s : HealthState) : Prop where
  keyed : ∀ id entry, s.registry.services.lookup id = some entry →
    entry.id = id ∧ (id, entry.name) ∈ s.known
  oneName : ∀ k ∈ s.known, ∀ k' ∈ s.known, k.1 = k'.1 ↔ k.2 = k'.2
  pendingKnown : ∀ entry ∈ s.pending, (entry.id, entry.name) ∈ s.known
  pendingNodup : (s.pending.map (·.id)).Nodup
  pendingFound : ∀ entry ∈ s.pending, s.findings entry.id ≠ none → entry.status ≠ .unknown
  found : ∀ id, s.findings id ≠ none → ∃ name, (id, name) ∈ s.known
  single : s.incidents.SingleIn (s.known.map Prod.snd)
  registeredFound : ∀ id entry, s.registry.services.lookup id = some entry →
    s.findings id ≠ none → entry.status ≠ .unknown
  active : ∀ id entry, s.registry.services.lookup id = some entry →
    s.incidents.hasActive entry.name = decide (s.findings id = some false)
  visits : ∀ v ∈ s.visits, v.registered = true → v.InStep

variable {s : HealthState}

/-- The start. -/
theorem inv_initial {r : ServiceRegistry} (hkeyed : r.Keyed) (hnames : r.NamesDistinct) :
    (initial r).Inv where
  keyed id entry h := by
    have hid := hkeyed id entry h
    refine ⟨hid, List.mem_map.mpr ⟨entry, ?_, by rw [hid]⟩⟩
    exact (DashMap.mem_values_iff _ _).mpr ⟨id, h⟩
  oneName := by
    intro k hk k' hk'
    obtain ⟨entry, hmem, rfl⟩ := List.mem_map.mp hk
    obtain ⟨entry', hmem', rfl⟩ := List.mem_map.mp hk'
    obtain ⟨id, hentry⟩ := (DashMap.mem_values_iff _ _).mp hmem
    obtain ⟨id', hentry'⟩ := (DashMap.mem_values_iff _ _).mp hmem'
    obtain rfl := hkeyed id entry hentry
    obtain rfl := hkeyed id' entry' hentry'
    constructor
    · -- One id has one entry.
      intro hid
      dsimp only at hid
      rw [← hid, hentry] at hentry'
      cases hentry'
      rfl
    · exact hnames _ _ entry entry' hentry hentry'
  pendingKnown _ h := nomatch h
  pendingNodup := List.nodup_nil
  pendingFound _ h := nomatch h
  found _ h := absurd rfl h
  single _ h := nomatch h
  registeredFound _ _ _ h := absurd rfl h
  active _ _ _ := rfl
  visits _ h := nomatch h

/-- The start of a round. -/
theorem inv_startRound (hs : s.Inv) {services : List ServiceEntry}
    (hperm : services.Perm s.registry.services.values) : Inv { s with pending := services } := by
  have hlookup : ∀ entry ∈ services, s.registry.services.lookup entry.id = some entry := by
    intro entry hmem
    obtain ⟨id, hentry⟩ := (DashMap.mem_values_iff _ _).mp (hperm.mem_iff.mp hmem)
    exact (hs.keyed id entry hentry).1 ▸ hentry
  have hkeyed : s.registry.Keyed := fun id entry h => (hs.keyed id entry h).1
  exact
    { hs with
      pendingKnown := fun entry hmem => (hs.keyed _ entry (hlookup entry hmem)).2
      pendingNodup := (hperm.map _).nodup_iff.mpr hkeyed.nodup_ids
      pendingFound := fun entry hmem => hs.registeredFound _ entry (hlookup entry hmem) }

/-- The status that a check stores. -/
theorem inv_updateStatus (hs : s.Inv) (id : Uuid) (isUp : Bool) (now : DateTime) :
    Inv { s with registry := s.registry.updateStatus id (.ofUp isUp) now } where
  keyed id' entry h := by
    obtain ⟨old, hold, hid, hname, -⟩ := ServiceRegistry.lookup_updateStatus h
    exact hid ▸ hname ▸ hs.keyed id' old hold
  oneName := hs.oneName
  pendingKnown := hs.pendingKnown
  pendingNodup := hs.pendingNodup
  pendingFound := hs.pendingFound
  found := hs.found
  single := hs.single
  registeredFound id' entry h hfound := by
    obtain ⟨old, hold, -, -, hstatus⟩ := ServiceRegistry.lookup_updateStatus h
    rw [hstatus]
    split
    next => exact ServiceStatus.ofUp_ne_unknown isUp
    next => exact hs.registeredFound id' old hold hfound
  active id' entry h := by
    obtain ⟨old, hold, -, hname, -⟩ := ServiceRegistry.lookup_updateStatus h
    exact hname ▸ hs.active id' old hold
  visits := hs.visits

/-- The registration of a service with a new id and a new name. -/
theorem inv_register (hs : s.Inv) (new : ServiceEntry) (pathPrefix : String)
    (hnew : s.isNew new.id new.name = true) :
    Inv { s with
      registry := (s.registry.replaceExisting pathPrefix).insertEntry new
      known := (new.id, new.name) :: s.known } := by
  have hfresh : ∀ k ∈ s.known, k.1 ≠ new.id ∧ k.2 ≠ new.name := by
    simpa [isNew] using hnew
  have hname : new.name ∉ s.known.map Prod.snd := by
    intro hmem
    obtain ⟨k, hk, heq⟩ := List.mem_map.mp hmem
    exact (hfresh k hk).2 heq
  have hfound : s.findings new.id = none := by
    by_contra h
    obtain ⟨name, hk⟩ := hs.found new.id h
    exact (hfresh _ hk).1 rfl
  constructor
  case keyed =>
    intro id entry h
    rcases ServiceRegistry.lookup_register h with ⟨rfl, rfl⟩ | hold
    · exact ⟨rfl, List.mem_cons_self⟩
    · exact (hs.keyed id entry hold).imp_right (List.mem_cons_of_mem _)
  case oneName =>
    intro k hk k' hk'
    rcases List.mem_cons.mp hk with rfl | hk <;> rcases List.mem_cons.mp hk' with rfl | hk'
    · exact iff_of_true rfl rfl
    · exact iff_of_false (hfresh k' hk').1.symm (hfresh k' hk').2.symm
    · exact iff_of_false (hfresh k hk).1 (hfresh k hk).2
    · exact hs.oneName k hk k' hk'
  case pendingKnown => exact fun entry h => List.mem_cons_of_mem _ (hs.pendingKnown entry h)
  case pendingNodup => exact hs.pendingNodup
  case pendingFound => exact hs.pendingFound
  case found => exact fun id h => (hs.found id h).imp fun _ hk => List.mem_cons_of_mem _ hk
  case single => exact hs.single.mono fun _ h => List.mem_cons_of_mem _ h
  case registeredFound =>
    intro id entry h
    rcases ServiceRegistry.lookup_register h with ⟨rfl, rfl⟩ | hold
    · exact fun hne => absurd hfound hne
    · exact hs.registeredFound id entry hold
  case active =>
    intro id entry h
    rcases ServiceRegistry.lookup_register h with ⟨rfl, rfl⟩ | hold
    · -- No incident has the name of the new service.
      simpa [hfound] using hs.single.hasActive_eq_false hname
    · exact hs.active id entry hold
  case visits => exact hs.visits

section Visit

variable {service : ServiceEntry} {rest : List ServiceEntry} {probes : ℕ → ProbeResult}
  {incidentId : String} {secs : ℕ} {now : DateTime}

/-- What a visit does about alerts and incidents. -/
def reported (s : HealthState) (service : ServiceEntry) (probes : ℕ → ProbeResult)
    (incidentId : String) (secs : ℕ) : Option HealthAlert × IncidentManager :=
  HealthChecker.report s.incidents service (.ofUp (HealthChecker.answers probes))
    (HealthChecker.probe service.name probes).2 incidentId secs

/-- The record of a visit. -/
def record (s : HealthState) (service : ServiceEntry) (probes : ℕ → ProbeResult)
    (incidentId : String) (secs : ℕ) : Visit where
  service := service
  registered := (s.registry.services.lookup service.id).isSome
  previous := s.findings service.id
  isUp := HealthChecker.answers probes
  alert := (s.reported service probes incidentId secs).1
  opened := (s.reported service probes incidentId secs).2.hasActive service.name

/-- A visit finds whether one of the attempts succeeds. -/
theorem visit_eq (s : HealthState) (service : ServiceEntry) (rest : List ServiceEntry)
    (probes : ℕ → ProbeResult) (incidentId : String) (secs : ℕ) (now : DateTime) :
    s.visit service rest probes incidentId secs now =
      { s with
        registry := s.registry.updateStatus service.id (.ofUp (HealthChecker.answers probes)) now
        incidents := (s.reported service probes incidentId secs).2
        pending := rest
        findings := Function.update s.findings service.id (some (HealthChecker.answers probes))
        visits := s.visits ++ [s.record service probes incidentId secs] } := by
  have hup : decide ((HealthChecker.probe service.name probes).1 = .up) =
      HealthChecker.answers probes := by
    rw [HealthChecker.probe_fst]
    cases HealthChecker.answers probes <;> rfl
  unfold record reported
  rw [← HealthChecker.probe_fst service.name probes, ← hup]
  rfl

/-- A registered service has the name of the snapshot. -/
theorem Inv.name_eq (hs : s.Inv) (hmem : service ∈ s.pending) {entry : ServiceEntry}
    (hentry : s.registry.services.lookup service.id = some entry) : entry.name = service.name :=
  (hs.oneName _ (hs.keyed _ entry hentry).2 _ (hs.pendingKnown service hmem)).mp rfl

/-- Where the snapshot has the status of a finding and the incidents follow the last finding, a
visit is in step exactly if the two findings are the same. -/
theorem inStep_of_seen (seen previous isUp : Bool) :
    ((if seen = isUp then none else some isUp) =
        (if some previous = some isUp then none else some isUp) ∧
      (if seen = isUp then decide (some previous = some false) else !isUp) = !isUp) ↔
      seen = previous := by
  cases seen <;> cases previous <;> cases isUp <;> decide

/-- Alert and incident of a visit follow its finding exactly if the visit sees the last finding. -/
theorem inStep_record_iff (hs : s.Inv) (hmem : service ∈ s.pending)
    (hregistered : (s.registry.services.lookup service.id).isSome = true) :
    (s.record service probes incidentId secs).InStep ↔ s.SeesLastFinding service probes := by
  obtain ⟨entry, hentry⟩ := Option.isSome_iff_exists.mp hregistered
  have hactive := hs.active service.id entry hentry
  rw [hs.name_eq hmem hentry] at hactive
  unfold Visit.InStep record reported SeesLastFinding
  rw [HealthChecker.report_fst, HealthChecker.hasActive_report_self]
  dsimp only
  cases hprevious : s.findings service.id with
  | none =>
      constructor
      · rintro ⟨halert, -⟩ hstatus
        rw [if_pos hstatus] at halert
        cases halert
      · intro hstatus
        rw [if_neg hstatus, if_neg hstatus]
        exact ⟨rfl, rfl⟩
  | some previous =>
      -- The snapshot is younger than the last finding, so its status is that of a finding.
      have hknown := hs.pendingFound service hmem (hprevious ▸ Option.some_ne_none previous)
      obtain ⟨seen, hseen⟩ := ServiceStatus.exists_eq_ofUp hknown
      rw [hseen, hactive, hprevious]
      simp only [ServiceStatus.ofUp_inj]
      exact inStep_of_seen seen previous _

/-- A visit that sees the last finding. -/
theorem inv_visit (hs : s.Inv) (hpending : s.pending = service :: rest)
    (hok : s.Meets (.visit probes incidentId secs now)) :
    (s.visit service rest probes incidentId secs now).Inv := by
  have hmem : service ∈ s.pending := hpending ▸ List.mem_cons_self
  have hrest : ∀ entry ∈ rest, entry ∈ s.pending :=
    fun entry h => hpending ▸ List.mem_cons_of_mem _ h
  have hnodup := hs.pendingNodup
  rw [hpending, List.map_cons, List.nodup_cons] at hnodup
  -- The condition speaks of registered services; others are visited too.
  have hsees : (s.registry.services.lookup service.id).isSome = true →
      (s.record service probes incidentId secs).InStep := fun hregistered =>
    (inStep_record_iff hs hmem hregistered).mpr
      (hok service (by rw [hpending]; rfl) hregistered)
  have hname : service.name ∈ s.known.map Prod.snd :=
    List.mem_map.mpr ⟨_, hs.pendingKnown service hmem, rfl⟩
  have hother : ∀ id, id ≠ service.id →
      Function.update s.findings service.id (some (HealthChecker.answers probes)) id =
        s.findings id := fun id hid => Function.update_of_ne hid _ _
  rw [visit_eq]
  constructor
  case keyed => exact (inv_updateStatus hs service.id _ now).keyed
  case oneName => exact hs.oneName
  case pendingKnown => exact fun entry h => hs.pendingKnown entry (hrest entry h)
  case pendingNodup => exact hnodup.2
  case pendingFound =>
    intro entry h hfound
    -- The round meets no service twice.
    have hne : entry.id ≠ service.id :=
      fun heq => hnodup.1 (heq ▸ List.mem_map.mpr ⟨entry, h, rfl⟩)
    exact hs.pendingFound entry (hrest entry h) ((hother _ hne).symm.trans_ne hfound)
  case found =>
    intro id hfound
    by_cases hid : id = service.id
    · exact ⟨service.name, hid ▸ hs.pendingKnown service hmem⟩
    · exact hs.found id ((hother id hid).symm.trans_ne hfound)
  case single => exact HealthChecker.singleIn_report hs.single hname
  case registeredFound =>
    intro id entry h hfound
    obtain ⟨old, hold, -, -, hstatus⟩ := ServiceRegistry.lookup_updateStatus h
    rw [hstatus]
    split
    next => exact ServiceStatus.ofUp_ne_unknown _
    next hid =>
      exact hs.registeredFound id old hold ((hother id hid).symm.trans_ne hfound)
  case active =>
    intro id entry h
    obtain ⟨old, hold, -, hname', -⟩ := ServiceRegistry.lookup_updateStatus h
    show (s.reported service probes incidentId secs).2.hasActive entry.name = decide
      (Function.update s.findings service.id (some (HealthChecker.answers probes)) id = some false)
    rw [hname']
    by_cases hid : id = service.id
    · subst hid
      have hopened := (hsees (Option.isSome_of_eq_some hold)).2
      rw [Function.update_self, hs.name_eq hmem hold]
      refine Eq.trans hopened ?_
      show (!HealthChecker.answers probes) = _
      cases HealthChecker.answers probes <;> rfl
    · -- Another service has another name.
      have hne : old.name ≠ service.name := fun heq =>
        hid ((hs.oneName _ (hs.keyed id old hold).2 _ (hs.pendingKnown service hmem)).mpr heq)
      rw [hother id hid]
      exact (HealthChecker.hasActive_report_of_ne hs.single hne).trans (hs.active id old hold)
  case visits =>
    intro v hv hregistered
    rcases List.mem_append.mp hv with hold | hnew
    · exact hs.visits v hold hregistered
    · obtain rfl := List.mem_singleton.mp hnew
      exact hsees hregistered

end Visit

/-- What a step can do. -/
theorem step_cases {s' : HealthState} {a : HealthAction} (hstep : s.step a = some s') :
    (∃ probes incidentId secs now service rest, a = .visit probes incidentId secs now ∧
      s.pending = service :: rest ∧ s' = s.visit service rest probes incidentId secs now) ∨
    (s.Meets a ∧
      ((∃ services, services.Perm s.registry.services.values ∧
          s' = { s with pending := services }) ∨
        s' = s ∨
        (∃ id isUp now, s' = { s with registry := s.registry.updateStatus id (.ofUp isUp) now }) ∨
        ∃ new pathPrefix, s.isNew new.id new.name = true ∧
          s' = { s with
            registry := (s.registry.replaceExisting pathPrefix).insertEntry new
            known := (new.id, new.name) :: s.known })) := by
  cases a with
  | startRound services =>
      obtain ⟨⟨-, hperm⟩, hs'⟩ := Option.ite_none_right_eq_some.mp hstep
      exact .inr ⟨trivial, .inl ⟨services, hperm, (Option.some.inj hs').symm⟩⟩
  | visit probes incidentId secs now =>
      simp only [step] at hstep
      split at hstep
      next service rest hpending =>
        exact .inl ⟨probes, incidentId, secs, now, service, rest, rfl, hpending,
          (Option.some.inj hstep).symm⟩
      next => cases hstep
  | check listed id result now =>
      -- A check that finds no service to ask changes nothing.
      have hs' := (Option.some.inj hstep).symm
      refine .inr ⟨trivial, .inr ?_⟩
      rcases checkServiceHealth_snd listed s.registry id result now with hsame | ⟨id', hstored⟩
      · rw [hsame] at hs'
        exact .inl hs'
      · rw [hstored] at hs'
        exact .inr (.inl ⟨id', result.succeeds, now, hs'⟩)
  | register id now name pathPrefix upstream healthEndpoint =>
      obtain ⟨hnew, hs'⟩ := Option.ite_none_right_eq_some.mp hstep
      exact .inr ⟨trivial, .inr (.inr (.inr ⟨.new id now name pathPrefix upstream healthEndpoint,
        pathPrefix, hnew, (Option.some.inj hs').symm⟩))⟩
  | registerAdvanced id now req =>
      obtain ⟨hnew, hs'⟩ := Option.ite_none_right_eq_some.mp hstep
      exact .inr ⟨trivial, .inr (.inr (.inr ⟨ServiceRegistry.entryOfRequest id now req,
        req.pathPrefix, hnew, (Option.some.inj hs').symm⟩))⟩

/-- Every step that meets the condition keeps the invariant. -/
theorem inv_step {s' : HealthState} {a : HealthAction} (hs : s.Inv) (hok : s.Meets a)
    (hstep : s.step a = some s') : s'.Inv := by
  obtain ⟨probes, incidentId, secs, now, service, rest, rfl, hpending, rfl⟩ |
    ⟨-, ⟨services, hperm, rfl⟩ | rfl | ⟨id, isUp, now, rfl⟩ | ⟨new, pathPrefix, hnew, rfl⟩⟩ :=
    step_cases hstep
  · exact inv_visit hs hpending hok
  · exact inv_startRound hs hperm
  · exact hs
  · exact inv_updateStatus hs id isUp now
  · exact inv_register hs new pathPrefix hnew

/-- Visits stay on record. -/
theorem mem_visits_step {s' : HealthState} {a : HealthAction} (hstep : s.step a = some s')
    {v : Visit} (hv : v ∈ s.visits) : v ∈ s'.visits := by
  obtain ⟨probes, incidentId, secs, now, service, rest, -, -, rfl⟩ |
    ⟨-, ⟨services, -, rfl⟩ | rfl | ⟨id, isUp, now, rfl⟩ | ⟨new, pathPrefix, -, rfl⟩⟩ :=
    step_cases hstep
  · rw [visit_eq]
    exact List.mem_append_left _ hv
  all_goals exact hv

/-- A step that does not meet the condition is a visit out of step. -/
theorem exists_not_inStep {s' : HealthState} {a : HealthAction} (hs : s.Inv) (hok : ¬ s.Meets a)
    (hstep : s.step a = some s') : ∃ v ∈ s'.visits, v.registered = true ∧ ¬ v.InStep := by
  obtain ⟨probes, incidentId, secs, now, service, rest, rfl, hpending, rfl⟩ | ⟨hmeets, -⟩ :=
    step_cases hstep
  · simp only [Meets, hpending, List.head?_cons, Option.mem_some_iff, forall_eq',
      Classical.not_imp] at hok
    obtain ⟨hregistered, hsees⟩ := hok
    have hmem : service ∈ s.pending := hpending ▸ List.mem_cons_self
    rw [visit_eq]
    refine ⟨s.record service probes incidentId secs,
      List.mem_append_right _ (List.mem_singleton.mpr rfl), hregistered, fun hinStep => ?_⟩
    exact hsees ((inStep_record_iff hs hmem hregistered).mp hinStep)
  · exact absurd hmeets hok

/-- In a run, alerts and incidents follow every finding exactly if every visit to a registered
service sees the last finding. -/
theorem inStep_iff {db : SqliteStorage} {svcs : List (Uuid × DateTime × ServiceConfig)}
    {as : List HealthAction} {s : HealthState}
    (hnames : (ServiceRegistry.started db svcs).NamesDistinct)
    (hrun : machine.Runs Machine.unrestricted (initial (.started db svcs)) as s) :
    (∀ v ∈ s.visits, v.registered = true → v.InStep) ↔
      machine.Runs Meets (initial (.started db svcs)) as s := by
  have hinitial := inv_initial (ServiceRegistry.keyed_started db svcs) hnames
  constructor
  · intro h
    refine hrun.meets_of_not (I := Inv) (fun _ _ _ hs hok hst => inv_step hs hok hst)
      (fun _ _ _ hs hok hst => exists_not_inStep hs hok hst) ?_ hinitial ?_
    · rintro _ _ _ ⟨v, hv, hflaw⟩ hst
      exact ⟨v, mem_visits_step hst hv, hflaw⟩
    · rintro ⟨v, hv, hregistered, hflaw⟩
      exact hflaw (h v hv hregistered)
  · intro hmeets
    exact (hmeets.invariant (I := Inv) (fun _ _ _ hs hok hst => inv_step hs hok hst)
      hinitial).visits

/-- A service of the configuration file. -/
def probedConfig : ServiceConfig where
  name := "api"
  pathPrefix := "/api"
  upstream := "http://api:80"
  healthEndpoint := "/health"
  upstreams := []
  loadBalance := none
  version := none
  transform := none
  validationSchema := none
  ipWhitelist := []
  ipBlacklist := []

/-- The start with this service. -/
def probedRegistry : ServiceRegistry := .started .empty [(1, 0, probedConfig)]

/-- The service with a status. -/
def probedEntry (status : ServiceStatus) (lastHealthCheck : Option DateTime) : ServiceEntry :=
  { ServiceRegistry.entryOfConfig 1 0 probedConfig with status, lastHealthCheck }

/-- The service answers. -/
def answering (_ : ℕ) : ProbeResult := .ok ⟨200, "200 OK"⟩

/-- The service is out of order. -/
def failing (_ : ℕ) : ProbeResult := .ok ⟨503, "503 Service Unavailable"⟩

/-- One service has no name in common with another. -/
theorem namesDistinct_probedRegistry : probedRegistry.NamesDistinct := by
  have hlookup : ∀ id entry, probedRegistry.services.lookup id = some entry → id = 1 := by
    intro id entry h
    replace h : (AList.insert 1 (probedEntry .unknown none) (∅ : DashMap Uuid ServiceEntry)).lookup
      id = some entry := h
    rcases DashMap.lookup_insert_cases h with ⟨hid, -⟩ | ⟨-, hnone⟩
    · exact hid
    · exact nomatch hnone
  intro id id' entry entry' h h' _
  rw [hlookup id entry h, hlookup id' entry' h']

/-- Two rounds, of which the first finds the service up and the second finds it down. -/
theorem inStep_iff_twoRounds :
    ∃ s, machine.Runs Machine.unrestricted (initial probedRegistry)
        [.startRound [probedEntry .unknown none], .visit answering "i1" 10 10,
          .startRound [probedEntry .up (some 10)], .visit failing "i2" 40 40] s ∧
      ∀ v ∈ s.visits, v.registered = true → v.InStep := by
  have hexec : (machine.exec Meets (initial probedRegistry)
      [.startRound [probedEntry .unknown none], .visit answering "i1" 10 10,
        .startRound [probedEntry .up (some 10)], .visit failing "i2" 40 40]).isSome = true := by
    decide +kernel
  obtain ⟨s, hs⟩ := Option.isSome_iff_exists.mp hexec
  have hmeets := Machine.runs_of_exec hs
  have hrun : machine.Runs Machine.unrestricted _ _ s := hmeets.mono fun _ _ _ => trivial
  exact ⟨s, hrun, (inStep_iff namesDistinct_probedRegistry hrun).mpr hmeets⟩

/-- A check between the rounds finds the service down first. The second round finds it down without
an alert and without an incident. -/
theorem inStep_fails :
    probedRegistry.NamesDistinct ∧
      ∃ s, machine.Runs Machine.unrestricted (initial probedRegistry)
          [.startRound [probedEntry .unknown none], .visit answering "i1" 10 10,
            .check [probedEntry .up (some 10)] (some 1) (failing 1) 20,
            .startRound [probedEntry .down (some 20)], .visit failing "i2" 40 40] s ∧
        ∃ v ∈ s.visits, v.registered = true ∧ v.isUp = false ∧ v.previous = some true ∧
          v.alert = none ∧ v.opened = false ∧ ¬ v.InStep := by
  refine ⟨namesDistinct_probedRegistry, ?_⟩
  have hexec : ((machine.exec Machine.unrestricted (initial probedRegistry)
      [.startRound [probedEntry .unknown none], .visit answering "i1" 10 10,
        .check [probedEntry .up (some 10)] (some 1) (failing 1) 20,
        .startRound [probedEntry .down (some 20)], .visit failing "i2" 40 40]).any fun s =>
      s.visits.any fun v => v.registered = true ∧ v.isUp = false ∧ v.previous = some true ∧
        v.alert = none ∧ v.opened = false ∧ ¬ v.InStep) = true := by
    decide +kernel
  obtain ⟨s, hs, hany⟩ := (Option.any_eq_true _ _).mp hexec
  obtain ⟨v, hv, hflaw⟩ := List.any_eq_true.mp hany
  exact ⟨s, Machine.runs_of_exec hs, v, hv, of_decide_eq_true hflaw⟩

end HealthState

end XiraNet

import XiraNet.Base
import Mathlib.Data.List.Basic

/-!
# Incidents

The list of incidents of `observability/incidents.rs`. Each operation holds the lock of the list, so
each is one step. The health checker calls three of them.

* `hasActive_create`, `hasActive_resolveForService_self` and `SingleIn.hasActive_resolveForService`:
  for which services an incident is open afterwards.
-/

namespace XiraNet

/-- `Severity`. -/
inductive Severity
  | critical
  | major
  | minor
  | info
  deriving DecidableEq, Repr

/-- `IncidentStatus`. -/
inductive IncidentStatus
  | investigating
  | identified
  | monitoring
  | resolved
  deriving DecidableEq, Repr

/-- `TimelineEntry`. -/
structure TimelineEntry where
  timestamp : ℕ
  message : String
  author : String
  deriving DecidableEq, Repr

/-- `Incident`. -/
structure Incident where
  id : String
  title : String
  severity : Severity
  status : IncidentStatus
  affectedServices : List String
  timeline : List TimelineEntry
  createdAt : ℕ
  resolvedAt : Option ℕ
  postmortem : Option String
  deriving DecidableEq, Repr

/-- `{status:?}`. -/
def IncidentStatus.debug : IncidentStatus → String
  | .investigating => "Investigating"
  | .identified => "Identified"
  | .monitoring => "Monitoring"
  | .resolved => "Resolved"

namespace Incident

/-- What `update_status` does to an incident. -/
def setStatus (i : Incident) (now : ℕ) (status : IncidentStatus) : Incident :=
  { i with
    status := status
    resolvedAt := if status = .resolved then some now else i.resolvedAt
    timeline := i.timeline ++ [⟨now, "Status changed to " ++ status.debug, "system"⟩] }

/-- The incident is not resolved and affects a service. -/
def isActiveFor (i : Incident) (service : String) : Bool :=
  i.status ≠ .resolved && i.affectedServices.any fun s => s = service

/-- An iteration of the loop of `resolve_for_service` that resolves the incident. -/
def resolve (i : Incident) (now : ℕ) (service : String) : Incident :=
  { i with
    status := .resolved
    resolvedAt := some now
    timeline := i.timeline ++ [⟨now, "Auto-resolved: " ++ service ++ " recovered", "system"⟩] }

/-- An incident is not active for a service that it does not affect. -/
theorem isActiveFor_eq_false {i : Incident} {name service : String}
    (haffected : i.affectedServices = [name]) (hne : name ≠ service) :
    i.isActiveFor service = false := by
  simp [isActiveFor, haffected, hne]

/-- An incident that is resolved is active for no service. -/
@[simp]
theorem isActiveFor_resolve (i : Incident) (now : ℕ) (service service' : String) :
    (i.resolve now service).isActiveFor service' = false := rfl

end Incident

/-- The list of an `IncidentManager`. -/
abbrev IncidentManager := List Incident

namespace IncidentManager

/-- `create`, with the id and the time it draws. -/
def create (incidents : IncidentManager) (id : String) (now : ℕ) (title : String)
    (severity : Severity) (services : List String) : IncidentManager :=
  incidents ++
    [{ id := id
       title := title
       severity := severity
       status := .investigating
       affectedServices := services
       timeline := [⟨now, "Incident created: " ++ title, "system"⟩]
       createdAt := now
       resolvedAt := none
       postmortem := none }]

/-- The first incident with an id is changed, if there is one. -/
def modify (incidents : IncidentManager) (id : String) (f : Incident → Incident) :
    Bool × IncidentManager :=
  match incidents.findIdx? (·.id = id) with
  | some k => (true, List.modify incidents k f)
  | none => (false, incidents)

/-- `add_update`. -/
def addUpdate (incidents : IncidentManager) (now : ℕ) (id message author : String) :
    Bool × IncidentManager :=
  incidents.modify id fun i => { i with timeline := i.timeline ++ [⟨now, message, author⟩] }

/-- `update_status`. -/
def updateStatus (incidents : IncidentManager) (now : ℕ) (id : String) (status : IncidentStatus) :
    Bool × IncidentManager :=
  incidents.modify id fun i => i.setStatus now status

/-- `add_postmortem`. -/
def addPostmortem (incidents : IncidentManager) (id postmortem : String) : Bool × IncidentManager :=
  incidents.modify id fun i => { i with postmortem := some postmortem }

/-- `find_active_for_service`. -/
def findActiveForService (incidents : IncidentManager) (service : String) : Option String :=
  (incidents.find? fun i => i.isActiveFor service).map (·.id)

/-- `resolve_for_service`, with the number of incidents that it resolves. -/
def resolveForService (incidents : IncidentManager) (now : ℕ) (service : String) :
    ℕ × IncidentManager :=
  (incidents.countP fun i => i.isActiveFor service,
    incidents.map fun i => if i.isActiveFor service then i.resolve now service else i)

/-- An incident that affects a service is not resolved. -/
def hasActive (incidents : IncidentManager) (service : String) : Bool :=
  incidents.any fun i => i.isActiveFor service

variable {incidents : IncidentManager}

/-- The search finds an incident if there is one. -/
theorem isSome_findActiveForService {service : String} :
    (incidents.findActiveForService service).isSome = incidents.hasActive service := by
  rw [findActiveForService, Option.isSome_map, hasActive, Bool.eq_iff_iff, List.find?_isSome,
    List.any_eq_true]

/-- A new incident is open for its services. -/
theorem hasActive_create {id title service : String} {now : ℕ} {severity : Severity}
    {services : List String} :
    (incidents.create id now title severity services).hasActive service = true ↔
      incidents.hasActive service = true ∨ service ∈ services := by
  simp [hasActive, create, Incident.isActiveFor]

/-- No incident stays open for the service whose incidents are resolved. -/
theorem hasActive_resolveForService_self {now : ℕ} {service : String} :
    (incidents.resolveForService now service).2.hasActive service = false := by
  rw [hasActive, List.any_eq_false]
  intro i hi
  obtain ⟨j, -, rfl⟩ := List.mem_map.mp hi
  split
  next => simp
  next hactive => exact hactive

/-- Every incident affects one service, with a name out of a list. -/
def SingleIn (incidents : IncidentManager) (names : List String) : Prop :=
  ∀ i ∈ incidents, ∃ name ∈ names, i.affectedServices = [name]

/-- An incident is not open for a service that none affects. -/
theorem SingleIn.hasActive_eq_false {names : List String} {service : String}
    (h : incidents.SingleIn names) (hservice : service ∉ names) :
    incidents.hasActive service = false := by
  rw [hasActive, List.any_eq_false]
  intro i hi
  obtain ⟨name, hname, haffected⟩ := h i hi
  have hne : name ≠ service := fun heq => hservice (heq ▸ hname)
  simp [Incident.isActiveFor_eq_false haffected hne]

/-- What is open for other services stays open. -/
theorem SingleIn.hasActive_resolveForService {names : List String} {now : ℕ}
    {service other : String} (h : incidents.SingleIn names) (hne : other ≠ service) :
    (incidents.resolveForService now service).2.hasActive other = incidents.hasActive other := by
  rw [hasActive, resolveForService, List.any_map, hasActive, Bool.eq_iff_iff, List.any_eq_true,
    List.any_eq_true]
  refine exists_congr fun i => and_congr_right fun hi => ?_
  obtain ⟨name, -, haffected⟩ := h i hi
  dsimp only [Function.comp_apply]
  split
  next hactive =>
    -- The incident affects the first service, so it does not affect the other one.
    have hname : name = service := by
      by_contra hname
      simp [Incident.isActiveFor_eq_false haffected hname] at hactive
    have hother : name ≠ other := hname ▸ hne.symm
    simp [Incident.isActiveFor_eq_false haffected hother]
  next => rfl

/-- The incidents of a longer list of names. -/
theorem SingleIn.mono {names names' : List String} (h : incidents.SingleIn names)
    (hsub : ∀ name ∈ names, name ∈ names') : incidents.SingleIn names' := by
  intro i hi
  obtain ⟨name, hname, haffected⟩ := h i hi
  exact ⟨name, hsub name hname, haffected⟩

/-- A new incident for one service. -/
theorem SingleIn.create {names : List String} {id title service : String} {now : ℕ}
    {severity : Severity} (h : incidents.SingleIn names) (hservice : service ∈ names) :
    (incidents.create id now title severity [service]).SingleIn names := by
  intro i hi
  rcases List.mem_append.mp hi with hold | hnew
  · exact h i hold
  · obtain rfl := List.mem_singleton.mp hnew
    exact ⟨service, hservice, rfl⟩

/-- Resolving leaves what an incident affects. -/
theorem SingleIn.resolveForService {names : List String} {now : ℕ} {service : String}
    (h : incidents.SingleIn names) :
    (incidents.resolveForService now service).2.SingleIn names := by
  intro i hi
  obtain ⟨j, hj, rfl⟩ := List.mem_map.mp hi
  split
  next => exact h j hj
  next => exact h j hj

end IncidentManager

end XiraNet

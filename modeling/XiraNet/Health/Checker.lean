import XiraNet.Http
import XiraNet.Observability.Incidents
import XiraNet.Registry.Registry

/-!
# Health checker

A visit of the health checker to a service (`health/mod.rs`), and the check that the admin API
offers (`check_service_health` of `admin/handlers.rs`). A visit also feeds the uptime page, the SLA
monitor, the events and the gauges, which neither of them reads; they are left out.

* `probe_fst`: a service is found up if one of three attempts succeeds.
* `report_fst`, `hasActive_report_self`, `hasActive_report_of_ne`: what a visit does about alerts
  and incidents depends on the status in the snapshot.
-/

namespace XiraNet

/-- A status code, with the text that it prints as. -/
structure ProbeStatus where
  code : ℕ
  text : String
  deriving DecidableEq

/-- `is_success`. -/
def ProbeStatus.isSuccess (status : ProbeStatus) : Bool := 200 ≤ status.code && status.code < 300

/-- What a request to a health endpoint meets. -/
abbrev ProbeResult := Except String ProbeStatus

/-- The response is a success. -/
def ProbeResult.succeeds : ProbeResult → Bool
  | .ok status => status.isSuccess
  | .error _ => false

/-- The call of `alert_service_up` or `alert_service_down`. -/
inductive HealthAlert
  | serviceUp (name : String) (id : Uuid)
  | serviceDown (name : String) (id : Uuid) (detail : String)
  deriving DecidableEq

/-- The call that was made. -/
def HealthAlert.isUp : HealthAlert → Bool
  | .serviceUp .. => true
  | .serviceDown .. => false

/-- The status that a finding is stored as. -/
def ServiceStatus.ofUp (isUp : Bool) : ServiceStatus := if isUp then .up else .down

namespace HealthChecker

/-- `max_retries`. -/
def maxRetries : ℕ := 3

/-- One attempt: the status and the message. -/
def attempt (name : String) : ProbeResult → ServiceStatus × String
  | .ok status =>
      if status.isSuccess then (.up, name ++ ": UP")
      else (.down, name ++ ": DOWN (HTTP " ++ status.text ++ ")")
  -- The error tells a name that is not resolved from a timeout.
  | .error e => (.down, name ++ ": DOWN (" ++ e ++ ")")

/-- The loop before attempt `k`, with `n` attempts left. -/
def probeLoop (name : String) (probes : ℕ → ProbeResult) :
    ℕ → ℕ → ServiceStatus × String → ServiceStatus × String
  | 0, _, last => last
  | n + 1, k, _ =>
      let last := attempt name (probes k)
      if last.1 = .up then last else probeLoop name probes n (k + 1) last

/-- The status and the message of a visit. -/
def probe (name : String) (probes : ℕ → ProbeResult) : ServiceStatus × String :=
  probeLoop name probes maxRetries 1 (.down, "")

/-- One of the attempts succeeds. -/
def answers (probes : ℕ → ProbeResult) : Bool :=
  (List.range maxRetries).any fun i => (probes (1 + i)).succeeds

/-- What a visit does where the status in the snapshot is not the new one: the alert that it sends,
and the incidents afterwards. -/
def report (incidents : IncidentManager) (service : ServiceEntry) (newStatus : ServiceStatus)
    (msg incidentId : String) (now : ℕ) : Option HealthAlert × IncidentManager :=
  if service.status = newStatus then (none, incidents)
  else
    match newStatus with
    | .up =>
        (some (.serviceUp service.name service.id),
          (incidents.resolveForService now service.name).2)
    | .down =>
        (some (.serviceDown service.name service.id msg),
          -- No second incident is opened for the same service.
          if (incidents.findActiveForService service.name).isNone then
            incidents.create incidentId now ("Service Down: " ++ service.name) .major [service.name]
          else incidents)
    | .unknown => (none, incidents)

/-- The status of an attempt. -/
theorem attempt_fst (name : String) (result : ProbeResult) :
    (attempt name result).1 = .ofUp result.succeeds := by
  unfold attempt ProbeResult.succeeds
  cases result with
  | error e => rfl
  | ok status =>
      dsimp only
      split
      next h =>
        rw [h]
        rfl
      next h =>
        rw [Bool.not_eq_true] at h
        rw [h]
        rfl

/-- The status after the loop, before which no attempt has succeeded. -/
theorem probeLoop_fst (name : String) (probes : ℕ → ProbeResult) (n k : ℕ)
    {last : ServiceStatus × String} (hlast : last.1 = .down) :
    (probeLoop name probes n k last).1 =
      .ofUp ((List.range n).any fun i => (probes (k + i)).succeeds) := by
  induction n generalizing k last with
  | zero => exact hlast
  | succ n ih =>
      have hrange : ((List.range (n + 1)).any fun i => (probes (k + i)).succeeds) =
          ((probes k).succeeds || (List.range n).any fun i => (probes (k + 1 + i)).succeeds) := by
        rw [List.range_succ_eq_map, List.any_cons, List.any_map]
        simp only [Nat.add_zero, Function.comp_def, Nat.add_right_comm k, Nat.add_assoc]
      rw [hrange]
      have hattempt := attempt_fst name (probes k)
      cases hsucceeds : (probes k).succeeds with
      | true =>
          -- The loop ends with the first success.
          rw [hsucceeds] at hattempt
          have hup : (attempt name (probes k)).1 = .up := hattempt
          rw [probeLoop, Bool.true_or, if_pos hup]
          exact hup
      | false =>
          rw [hsucceeds] at hattempt
          have hdown : (attempt name (probes k)).1 = .down := hattempt
          rw [probeLoop, Bool.false_or, ← ih (k + 1) hdown]
          simp [hdown]

/-- A service is found up exactly if one of the attempts succeeds. -/
theorem probe_fst (name : String) (probes : ℕ → ProbeResult) :
    (probe name probes).1 = .ofUp (answers probes) :=
  probeLoop_fst name probes maxRetries 1 rfl

section Report

variable {incidents : IncidentManager} {service : ServiceEntry} {isUp : Bool}
  {msg incidentId : String} {now : ℕ}

/-- An alert is sent exactly if the snapshot has another status. -/
theorem report_fst :
    (report incidents service (.ofUp isUp) msg incidentId now).1.map HealthAlert.isUp =
      if service.status = .ofUp isUp then none else some isUp := by
  unfold report
  split
  next => rfl
  next => cases isUp <;> rfl

/-- Where the snapshot has another status, an incident is open exactly if the service is down. -/
theorem hasActive_report_self :
    (report incidents service (.ofUp isUp) msg incidentId now).2.hasActive service.name =
      if service.status = .ofUp isUp then incidents.hasActive service.name else !isUp := by
  unfold report
  split
  next => rfl
  next =>
    cases isUp with
    | true => exact IncidentManager.hasActive_resolveForService_self
    | false =>
        show IncidentManager.hasActive (ite _ _ _) service.name = true
        split
        next => exact IncidentManager.hasActive_create.mpr (.inr (List.mem_singleton.mpr rfl))
        next hfound =>
          rw [Option.isNone_iff_eq_none, ← ne_eq, Option.ne_none_iff_isSome] at hfound
          exact IncidentManager.isSome_findActiveForService.symm.trans hfound

/-- The incidents of other services stay as they are. -/
theorem hasActive_report_of_ne {names : List String} {other : String}
    (h : incidents.SingleIn names) (hne : other ≠ service.name) :
    (report incidents service (.ofUp isUp) msg incidentId now).2.hasActive other =
      incidents.hasActive other := by
  unfold report
  split
  next => rfl
  next =>
    cases isUp with
    | true => exact h.hasActive_resolveForService hne
    | false =>
        show IncidentManager.hasActive (ite _ _ _) other = _
        split
        next =>
          rw [Bool.eq_iff_iff, IncidentManager.hasActive_create, List.mem_singleton]
          exact or_iff_left hne
        next => rfl

/-- A visit opens incidents for the service that it visits. -/
theorem singleIn_report {names : List String} (h : incidents.SingleIn names)
    (hname : service.name ∈ names) :
    (report incidents service (.ofUp isUp) msg incidentId now).2.SingleIn names := by
  unfold report
  split
  next => exact h
  next =>
    cases isUp with
    | true => exact h.resolveForService
    | false =>
        show IncidentManager.SingleIn (ite _ _ _) names
        split
        next => exact h.create hname
        next => exact h

end Report

end HealthChecker

/-- `ApiResponse::ok`. -/
def HttpResponse.apiOk (message : String) (data : List (String × Json)) : HttpResponse :=
  .json 200 [("success", .bool true), ("message", .string message), ("data", .object data)]

/-- `ApiResponse::error`, with a status. -/
def HttpResponse.apiError (status : ℕ) (message : String) : HttpResponse :=
  .json status [("success", .bool false), ("message", .string message)]

/-- `check_service_health`, with the id of the path if it is one, and the services that it has
listed before the request to the endpoint. -/
def checkServiceHealth (listed : List ServiceEntry) (r : ServiceRegistry) (id : Option Uuid)
    (result : ProbeResult) (now : DateTime) : HttpResponse × ServiceRegistry :=
  match id with
  | none => (.apiError 400 "Invalid UUID", r)
  | some id =>
      match listed.find? fun s => s.id = id with
      | none => (.apiError 404 "Service not found", r)
      | some service =>
          let name := service.name
          match result with
          | .ok status =>
              if status.isSuccess then
                (.apiOk ("'" ++ name ++ "' is UP")
                  [("name", .string name), ("status", .string "UP")],
                  r.updateStatus id .up now)
              else
                (.apiOk ("'" ++ name ++ "' is DOWN (" ++ status.text ++ ")")
                  [("name", .string name), ("status", .string "DOWN"),
                    ("http_status", .number (toString status.code))],
                  r.updateStatus id .down now)
          | .error e =>
              (.apiOk ("'" ++ name ++ "' is DOWN: " ++ e)
                [("name", .string name), ("status", .string "DOWN"), ("error", .string e)],
                r.updateStatus id .down now)

/-- A check leaves the registry or stores what it has found. -/
theorem checkServiceHealth_snd (listed : List ServiceEntry) (r : ServiceRegistry)
    (id : Option Uuid) (result : ProbeResult) (now : DateTime) :
    (checkServiceHealth listed r id result now).2 = r ∨
      ∃ id', (checkServiceHealth listed r id result now).2 =
        r.updateStatus id' (.ofUp result.succeeds) now := by
  unfold checkServiceHealth
  cases id with
  | none => exact .inl rfl
  | some id =>
      dsimp only
      cases listed.find? fun s => s.id = id with
      | none => exact .inl rfl
      | some service =>
          refine .inr ⟨id, ?_⟩
          cases result with
          | error e => rfl
          | ok status =>
              dsimp only [ProbeResult.succeeds]
              split
              next h =>
                rw [h]
                rfl
              next h =>
                rw [Bool.not_eq_true] at h
                rw [h]
                rfl

end XiraNet

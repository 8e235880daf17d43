import Mathlib.Algebra.Order.Ring.Rat
import XiraNet.Base
import XiraNet.Lib.DashMap
import XiraNet.Lib.Runs

/-!
# SLA monitoring

`set_sla_target` and `record_check` of `metrics/sla.rs`. Each holds the entry of its service from
start to end, and the first call on a service creates it. The uptime and the statistics of the
samples, which are computed in floating point, are left out.

* `SlaState.accounted_iff`: in which runs the violations are those of the target in force.
* `SlaState.accounted_fails`: a target that is set for a known service is not checked.
-/

namespace XiraNet

/-- A floating-point number, with its exact value where it is finite. -/
inductive F64
  | finite (x : ℚ)
  | infinite (negative : Bool)
  | nan
  deriving DecidableEq

/-- `x <= y` for a finite `x`. Nothing is below NaN. -/
def F64.bounds (y : F64) (x : ℚ) : Bool :=
  match y with
  | .finite y => x ≤ y
  | .infinite negative => !negative
  | .nan => false

/-- The normalisation of latencies: what is not finite or negative becomes zero. -/
def normaliseLatency : F64 → ℚ
  | .finite x => if 0 ≤ x then x else 0
  | .infinite _ | .nan => 0

/-- `SlaMetrics`. -/
structure SlaMetrics where
  serviceName : String
  totalChecks : ℕ
  successfulChecks : ℕ
  failedChecks : ℕ
  latencySamples : List ℚ
  slaTargetUptime : F64
  slaTargetLatencyMs : F64
  slaViolations : ℕ
  lastCheck : ℕ

/-- `SlaMonitor`. -/
structure SlaMonitor where
  services : DashMap String SlaMetrics

/-- The target for the uptime of a service for which none was set. -/
def defaultTargetUptime : F64 := .finite 99.9

/-- The target for the latency of a service for which none was set. -/
def defaultTargetLatency : F64 := .finite 500

/-- Whether a check violates a target: it failed or was slower. -/
def Violates (success : Bool) (latency : ℚ) (target : F64) : Prop :=
  ¬(success = true ∧ target.bounds latency = true)

instance (success : Bool) (latency : ℚ) (target : F64) :
    Decidable (Violates success latency target) :=
  inferInstanceAs (Decidable (¬_))

namespace SlaMetrics

/-- The entry that the first call on a service creates. -/
def new (serviceName : String) (uptime latency : F64) : SlaMetrics :=
  ⟨serviceName, 0, 0, 0, [], uptime, latency, 0, 0⟩

/-- The samples after another one, of which no more than 1000 are kept. -/
def pushSample (samples : List ℚ) (latency : ℚ) : List ℚ :=
  let samples := samples ++ [latency]
  if 1000 < samples.length then samples.drop 500 else samples

/-- What `record_check` does to an entry, once the latency is normalised. -/
def record (m : SlaMetrics) (success : Bool) (latency : ℚ) (now : ℕ) : SlaMetrics :=
  { m with
    totalChecks := wrappingAdd m.totalChecks 1
    lastCheck := now
    successfulChecks :=
      if success then wrappingAdd m.successfulChecks 1 else m.successfulChecks
    latencySamples := if success then pushSample m.latencySamples latency else m.latencySamples
    failedChecks := if success then m.failedChecks else wrappingAdd m.failedChecks 1
    slaViolations :=
      if Violates success latency m.slaTargetLatencyMs then saturatingAddU64 m.slaViolations 1
      else m.slaViolations }

end SlaMetrics

namespace SlaMonitor

/-- `set_sla_target`. -/
def setSlaTarget (monitor : SlaMonitor) (serviceName : String) (uptime latencyMs : F64) :
    SlaMonitor :=
  -- The target for the latency goes to a new entry only.
  let entry := (monitor.services.lookup serviceName).getD (.new serviceName uptime latencyMs)
  ⟨monitor.services.insert serviceName { entry with slaTargetUptime := uptime }⟩

/-- `record_check`. -/
def recordCheck (monitor : SlaMonitor) (serviceName : String) (success : Bool) (latencyMs : F64)
    (now : ℕ) : SlaMonitor :=
  let entry := (monitor.services.lookup serviceName).getD
    (.new serviceName defaultTargetUptime defaultTargetLatency)
  ⟨monitor.services.insert serviceName (entry.record success (normaliseLatency latencyMs) now)⟩

end SlaMonitor

/-- The calls that change the entries. -/
inductive SlaCall
  | setSlaTarget (serviceName : String) (uptime latencyMs : F64)
  | recordCheck (serviceName : String) (success : Bool) (latencyMs : F64) (now : ℕ)

namespace SlaCall

/-- The service that a call is about. -/
def service : SlaCall → String
  | .setSlaTarget name _ _ | .recordCheck name _ _ _ => name

/-- The target for the latency that an entry gets if this call creates it. -/
def initialTarget : SlaCall → F64
  | .setSlaTarget _ _ latencyMs => latencyMs
  | .recordCheck _ _ _ _ => defaultTargetLatency

end SlaCall

/-! What a sequence of calls amounts to, the latest call first. -/

/-- The target for the latency of a service from the first call on it. -/
def firstTarget : List SlaCall → String → Option F64
  | [], _ => none
  | call :: calls, name =>
      (firstTarget calls name).or (if call.service = name then some call.initialTarget else none)

/-- The target for the latency of a service that was set last. -/
def targetInForce : List SlaCall → String → F64
  | [], _ => defaultTargetLatency
  | .setSlaTarget name' _ latencyMs :: calls, name =>
      if name' = name then latencyMs else targetInForce calls name
  | .recordCheck _ _ _ _ :: calls, name => targetInForce calls name

/-- The latencies of the successful checks of a service, in order. -/
def successfulLatencies : List SlaCall → String → List ℚ
  | [], _ => []
  | .setSlaTarget _ _ _ :: calls, name => successfulLatencies calls name
  | .recordCheck name' success latencyMs _ :: calls, name =>
      if name' = name ∧ success = true then
        successfulLatencies calls name ++ [normaliseLatency latencyMs]
      else successfulLatencies calls name

/-- The number of checks of a service that violate the target in force at their time. -/
def violationCount : List SlaCall → String → ℕ
  | [], _ => 0
  | .setSlaTarget _ _ _ :: calls, name => violationCount calls name
  | .recordCheck name' success latencyMs _ :: calls, name =>
      if name' = name ∧ Violates success (normaliseLatency latencyMs) (targetInForce calls name)
      then violationCount calls name + 1
      else violationCount calls name

/-- The monitor and the calls that were made, the latest first. -/
structure SlaState where
  monitor : SlaMonitor
  calls : List SlaCall

namespace SlaState

/-- A new monitor. -/
def initial : SlaState := ⟨⟨∅⟩, []⟩

/-- The monitor after a call. -/
def monitorAfter (monitor : SlaMonitor) : SlaCall → SlaMonitor
  | .setSlaTarget name uptime latencyMs => monitor.setSlaTarget name uptime latencyMs
  | .recordCheck name success latencyMs now => monitor.recordCheck name success latencyMs now

/-- One call. -/
def step (s : SlaState) (call : SlaCall) : SlaState :=
  ⟨monitorAfter s.monitor call, call :: s.calls⟩

/-- Calls of any services. -/
def machine : Machine SlaState SlaCall := ⟨fun s call => some (s.step call)⟩

/-- What the entry of a service says is what the calls amount to. The checks are added up in
`u64`. -/
structure EntryAccounted (calls : List SlaCall) (name : String) (m : SlaMetrics) : Prop where
  total : m.totalChecks = wrappingAdd m.successfulChecks m.failedChecks
  samples : m.latencySamples <:+ successfulLatencies calls name
  length_samples : m.latencySamples.length ≤ 1000
  violations : m.slaViolations = violationCount calls name

/-- Every entry is accounted for. -/
def Accounted (s : SlaState) : Prop :=
  ∀ name m, s.monitor.services.lookup name = some m → EntryAccounted s.calls name m

/-- The first target of a service and the one in force give the same verdict on a check, and the
counter of violations is not at its end. -/
def SameVerdict (s : SlaState) : SlaCall → Prop
  | .setSlaTarget _ _ _ => True
  | .recordCheck name success latencyMs _ =>
      (Violates success (normaliseLatency latencyMs)
          ((firstTarget s.calls name).getD defaultTargetLatency) ∧
        violationCount s.calls name < 2 ^ 64 - 1) ↔
      Violates success (normaliseLatency latencyMs) (targetInForce s.calls name)

instance (s : SlaState) : (call : SlaCall) → Decidable (s.SameVerdict call)
  | .setSlaTarget _ _ _ => .isTrue trivial
  | .recordCheck _ _ _ _ => inferInstanceAs (Decidable (_ ↔ _))

/-- The entry of a service, or the one that a check would create. -/
def entry (s : SlaState) (name : String) : SlaMetrics :=
  (s.monitor.services.lookup name).getD (.new name defaultTargetUptime defaultTargetLatency)

/-- Every service is accounted for, its entry has the first target of the service, and its counter
of violations has not run over. -/
structure Inv (s : SlaState) : Prop where
  accounted : ∀ name, EntryAccounted s.calls name (s.entry name)
  bounded : ∀ name, (s.entry name).slaViolations ≤ 2 ^ 64 - 1
  target : ∀ name, (s.monitor.services.lookup name).map SlaMetrics.slaTargetLatencyMs =
    firstTarget s.calls name

variable {s : SlaState} {call : SlaCall}

/-- Samples are dropped at the front only. -/
theorem pushSample_suffix (samples : List ℚ) (latency : ℚ) :
    SlaMetrics.pushSample samples latency <:+ samples ++ [latency] := by
  unfold SlaMetrics.pushSample
  dsimp only
  split
  · exact List.drop_suffix _ _
  · exact List.suffix_rfl

/-- No more than 1000 samples are kept. -/
theorem length_pushSample {samples : List ℚ} (latency : ℚ) (h : samples.length ≤ 1000) :
    (SlaMetrics.pushSample samples latency).length ≤ 1000 := by
  unfold SlaMetrics.pushSample
  dsimp only
  split
  · rw [List.length_drop, List.length_append, List.length_singleton]
    omega
  · omega

/-- An entry at the start of all calls. -/
theorem entryAccounted_new (name : String) (uptime latency : F64) :
    EntryAccounted [] name (.new name uptime latency) :=
  ⟨rfl, List.suffix_rfl, Nat.zero_le _, rfl⟩

/-- The targets of an entry are not accounted for. -/
theorem EntryAccounted.congr {calls calls' : List SlaCall} {name : String} {m m' : SlaMetrics}
    (h : EntryAccounted calls name m) (htotal : m'.totalChecks = m.totalChecks)
    (hsuccessful : m'.successfulChecks = m.successfulChecks)
    (hfailed : m'.failedChecks = m.failedChecks) (hsamples : m'.latencySamples = m.latencySamples)
    (hviolations : m'.slaViolations = m.slaViolations)
    (hlatencies : successfulLatencies calls' name = successfulLatencies calls name)
    (hcount : violationCount calls' name = violationCount calls name) :
    EntryAccounted calls' name m' where
  total := by rw [htotal, hsuccessful, hfailed, h.total]
  samples := by rw [hsamples, hlatencies]; exact h.samples
  length_samples := by rw [hsamples]; exact h.length_samples
  violations := by rw [hviolations, hcount, h.violations]

/-- A check on an entry is accounted for exactly if both targets give the same verdict. -/
theorem entryAccounted_record_iff {calls : List SlaCall} {name : String} {m : SlaMetrics}
    (h : EntryAccounted calls name m) (hbounded : m.slaViolations ≤ 2 ^ 64 - 1) (success : Bool)
    (latencyMs : F64) (now : ℕ) :
    EntryAccounted (.recordCheck name success latencyMs now :: calls) name
        (m.record success (normaliseLatency latencyMs) now) ↔
      ((Violates success (normaliseLatency latencyMs) m.slaTargetLatencyMs ∧
          violationCount calls name < 2 ^ 64 - 1) ↔
        Violates success (normaliseLatency latencyMs) (targetInForce calls name)) := by
  have htotal := h.total
  have hviolations := h.violations
  rw [hviolations] at hbounded
  have hcounted : (m.record success (normaliseLatency latencyMs) now).slaViolations =
        violationCount (.recordCheck name success latencyMs now :: calls) name ↔
      ((Violates success (normaliseLatency latencyMs) m.slaTargetLatencyMs ∧
          violationCount calls name < 2 ^ 64 - 1) ↔
        Violates success (normaliseLatency latencyMs) (targetInForce calls name)) := by
    simp only [SlaMetrics.record, violationCount, true_and, hviolations, saturatingAddU64]
    -- By the verdicts of the target in the entry and of the one in force.
    split <;> split <;> rename_i hfirst hlast <;> simp only [hfirst, hlast, true_and, false_and,
      iff_true, iff_false, iff_self, not_lt] <;> omega
  refine ⟨fun haccounted => hcounted.mp haccounted.violations, fun hsame => ⟨?_, ?_, ?_, ?_⟩⟩
  · simp only [SlaMetrics.record, htotal, wrappingAdd]
    cases success <;> simp only [if_true, if_false, Bool.false_eq_true] <;> omega
  · cases success with
    | false => simpa [SlaMetrics.record, successfulLatencies] using h.samples
    | true =>
        simp only [SlaMetrics.record, successfulLatencies, and_self, if_true]
        -- What was dropped before stays dropped.
        obtain ⟨older, holder⟩ := h.samples
        refine (pushSample_suffix _ _).trans ⟨older, ?_⟩
        rw [← List.append_assoc, holder]
  · cases success with
    | false => exact h.length_samples
    | true => exact length_pushSample _ h.length_samples
  · exact hcounted.mpr hsame

/-- The entry of a service after a call. -/
theorem lookup_step (s : SlaState) (call : SlaCall) (name : String) :
    (s.step call).monitor.services.lookup name =
      if name = call.service then
        some (match call with
          | .setSlaTarget name uptime latencyMs =>
              { (s.monitor.services.lookup name).getD (.new name uptime latencyMs) with
                slaTargetUptime := uptime }
          | .recordCheck name success latencyMs now =>
              (s.entry name).record success (normaliseLatency latencyMs) now)
      else s.monitor.services.lookup name := by
  cases call <;> exact DashMap.lookup_insert _ _ _ _

/-- The entry of a service after a target was set has the counters that it had before. -/
theorem entry_setSlaTarget (s : SlaState) (name : String) (uptime latencyMs : F64) :
    ∃ target, (s.step (.setSlaTarget name uptime latencyMs)).entry name =
      { s.entry name with slaTargetUptime := uptime, slaTargetLatencyMs := target } := by
  rw [entry, lookup_step, if_pos (by rfl), Option.getD_some, entry]
  dsimp only
  cases s.monitor.services.lookup name with
  | none => exact ⟨latencyMs, rfl⟩
  | some m => exact ⟨m.slaTargetLatencyMs, rfl⟩

/-- The entry of a service after a check. -/
theorem entry_recordCheck (s : SlaState) (name : String) (success : Bool) (latencyMs : F64)
    (now : ℕ) : (s.step (.recordCheck name success latencyMs now)).entry name =
      (s.entry name).record success (normaliseLatency latencyMs) now := by
  rw [entry, lookup_step, if_pos (by rfl), Option.getD_some]

/-- A call on another service changes nothing about a service. -/
theorem entryAccounted_step_of_ne {name : String} (hne : name ≠ call.service)
    (h : EntryAccounted s.calls name (s.entry name)) :
    EntryAccounted (s.step call).calls name ((s.step call).entry name) := by
  have hentry : (s.step call).entry name = s.entry name := by
    rw [entry, lookup_step, if_neg hne, entry]
  rw [hentry]
  cases call with
  | setSlaTarget name' uptime latencyMs => exact h.congr rfl rfl rfl rfl rfl rfl rfl
  | recordCheck name' success latencyMs now =>
      have hne' : ¬name' = name := fun heq => hne heq.symm
      exact h.congr rfl rfl rfl rfl rfl (by simp [step, successfulLatencies, hne'])
        (by simp [step, violationCount, hne'])

/-- The entry of the service of a call is accounted for exactly if both targets give the same
verdict. -/
theorem entryAccounted_step_iff (hs : s.Inv) :
    EntryAccounted (s.step call).calls call.service ((s.step call).entry call.service) ↔
      s.SameVerdict call := by
  cases call with
  | setSlaTarget name uptime latencyMs =>
      obtain ⟨target, hentry⟩ := entry_setSlaTarget s name uptime latencyMs
      refine iff_of_true ?_ trivial
      rw [SlaCall.service, hentry]
      exact (hs.accounted name).congr rfl rfl rfl rfl rfl rfl rfl
  | recordCheck name success latencyMs now =>
      rw [SlaCall.service, entry_recordCheck]
      -- The entry is checked against the target that it was created with.
      have htarget : (s.entry name).slaTargetLatencyMs =
          (firstTarget s.calls name).getD defaultTargetLatency := by
        rw [← hs.target name, entry]
        cases s.monitor.services.lookup name <;> rfl
      have hiff := entryAccounted_record_iff (hs.accounted name) (hs.bounded name) success
        latencyMs now
      rw [htarget] at hiff
      exact hiff

/-- The entry of a service keeps the target from the first call on it. -/
theorem target_step (hs : s.Inv) (name : String) :
    ((s.step call).monitor.services.lookup name).map SlaMetrics.slaTargetLatencyMs =
      firstTarget (s.step call).calls name := by
  have hfirst : firstTarget (s.step call).calls name = (firstTarget s.calls name).or
      (if call.service = name then some call.initialTarget else none) := rfl
  rw [hfirst, lookup_step, ← hs.target name]
  by_cases hname : name = call.service
  · subst hname
    rw [if_pos rfl, if_pos rfl]
    cases call with
    | setSlaTarget name uptime latencyMs =>
        simp only [SlaCall.service, SlaCall.initialTarget]
        cases s.monitor.services.lookup name <;> rfl
    | recordCheck name success latencyMs now =>
        simp only [SlaCall.service, SlaCall.initialTarget, entry]
        cases s.monitor.services.lookup name <;> rfl
  · rw [if_neg hname, if_neg (Ne.symm hname), Option.or_none]

/-- The counter of violations does not run over. -/
theorem bounded_step (hs : s.Inv) (name : String) :
    ((s.step call).entry name).slaViolations ≤ 2 ^ 64 - 1 := by
  have hold := hs.bounded name
  by_cases hname : name = call.service
  · subst hname
    cases call with
    | setSlaTarget name uptime latencyMs =>
        obtain ⟨target, hentry⟩ := entry_setSlaTarget s name uptime latencyMs
        rw [SlaCall.service, hentry]
        exact hold
    | recordCheck name success latencyMs now =>
        rw [SlaCall.service, entry_recordCheck, SlaMetrics.record]
        dsimp only
        split
        · exact Nat.min_le_right _ _
        · exact hold
  · rw [entry, lookup_step, if_neg hname]
    exact hold

/-- A call after which the targets give the same verdict keeps the invariant. -/
theorem inv_step (hs : s.Inv) (hok : s.SameVerdict call) : (s.step call).Inv where
  accounted name := by
    by_cases hname : name = call.service
    · subst hname
      exact (entryAccounted_step_iff hs).mpr hok
    · exact entryAccounted_step_of_ne hname (hs.accounted name)
  bounded := bounded_step hs
  target := target_step hs

/-- What every service is accounted for says about the entries. -/
theorem Inv.entries (hs : s.Inv) : s.Accounted := by
  intro name m hm
  have haccounted := hs.accounted name
  rwa [entry, hm, Option.getD_some] at haccounted

/-- Throughout a run every entry is accounted for exactly if for every check the first target of
its service and the one in force give the same verdict. -/
theorem accounted_iff {calls : List SlaCall}
    (hrun : machine.Runs Machine.unrestricted initial calls s) :
    machine.Throughout Accounted initial calls ↔ machine.Runs SameVerdict initial calls s := by
  refine hrun.throughout_iff (I := Inv) (fun _ hs => hs.entries) ?_ ?_
    ⟨fun name => entryAccounted_new name _ _, fun _ => Nat.zero_le _, fun _ => rfl⟩
  · rintro s call _ hs hok ⟨⟩
    exact inv_step hs hok
  · -- The service of the call has an entry after it.
    rintro s call _ hs hbad ⟨⟩ haccounted
    have hentry := haccounted call.service _ (by rw [lookup_step, if_pos rfl])
    refine hbad ((entryAccounted_step_iff hs).mp ?_)
    rwa [entry, lookup_step, if_pos rfl, Option.getD_some]

/-- A target for a new service, and checks at and above it. -/
def checkedByTarget : List SlaCall :=
  [.setSlaTarget "api" (.finite 99) (.finite 200), .recordCheck "api" true (.finite 200) 1,
    .recordCheck "api" true (.finite 201) 2, .recordCheck "api" false .nan 3]

/-- A target that was set before the first check is checked. -/
theorem accounted_checkedByTarget : machine.Throughout Accounted initial checkedByTarget := by
  have hsame : machine.Runs SameVerdict initial checkedByTarget _ := Machine.runs_of_exec rfl
  exact (accounted_iff (hsame.mono fun _ _ _ => trivial)).mpr hsame

/-- A check, a target that it meets, and a check that does not meet the target. -/
def targetAfterCheck : List SlaCall :=
  [.recordCheck "api" true (.finite 100) 1, .setSlaTarget "api" (.finite 99) (.finite 200),
    .recordCheck "api" true (.finite 300) 2]

/-- A target for the latency that is set after the first check is not checked. -/
theorem accounted_fails :
    ¬∀ (calls : List SlaCall) (s : SlaState),
      machine.Runs Machine.unrestricted initial calls s → s.Accounted := by
  intro hall
  have hrun : machine.Runs Machine.unrestricted initial targetAfterCheck _ :=
    Machine.runs_of_exec rfl
  have hviolations := (hall _ _ hrun "api" _ rfl).violations
  exact absurd hviolations (by decide)

end SlaState

end XiraNet

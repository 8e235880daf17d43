import XiraNet.Lib.KeyedList
import XiraNet.Lib.Text
import Mathlib.Data.List.Range

/-!
# Workflows

`WorkflowEngine::execute` of `automation/workflows.rs`: the steps of a workflow are sent one after
the other. Nothing removes a workflow, so the one that is executed is found again after each
request. Pauses and durations are left out.

* `runStep_spec` and `runSteps_spec`: what one step does, and what all of them do.
-/

namespace XiraNet

/-- `WorkflowStatus`. -/
inductive WorkflowStatus
  | pending
  | running
  | completed
  | failed
  | cancelled
  deriving DecidableEq, Repr

/-- `StepStatus`. -/
inductive StepStatus
  | pending
  | running
  | success
  | failed
  | skipped
  deriving DecidableEq, Repr

/-- `FailureAction`. -/
inductive FailureAction
  | stop
  | skip
  | retry (max : ℕ)
  deriving DecidableEq, Repr

/-- `WorkflowStep`. -/
structure WorkflowStep where
  name : String
  url : String
  method : String
  body : Option String
  onFailure : FailureAction
  status : StepStatus
  responseStatus : Option ℕ
  deriving DecidableEq, Repr

/-- `Workflow`. -/
structure Workflow where
  id : String
  name : String
  steps : List WorkflowStep
  status : WorkflowStatus
  currentStep : ℕ
  createdAt : ℕ
  finishedAt : Option ℕ
  error : Option String
  deriving DecidableEq, Repr

/-- The workflows of a `WorkflowEngine`. -/
abbrev WorkflowEngine := List Workflow

/-- A request of a step. -/
structure StepRequest where
  method : String
  url : String
  body : Option String
  deriving DecidableEq, Repr

/-- The request that a step sends. -/
def WorkflowStep.request (step : WorkflowStep) : StepRequest :=
  match Text.toUppercase step.method with
  | "POST" => ⟨"POST", step.url, step.body⟩
  | "PUT" => ⟨"PUT", step.url, none⟩
  | "DELETE" => ⟨"DELETE", step.url, none⟩
  | _ => ⟨"GET", step.url, none⟩

/-- What becomes of the requests of an execution. -/
structure StepOutcomes where
  /-- The status or the transport error of each attempt of each step. -/
  outcome : ℕ → ℕ → Except String ℕ
  /-- The words that are shown with a status. -/
  reason : ℕ → String
  /-- The time at which the execution ends. -/
  now : ℕ

/-- An attempt of a step. -/
structure StepAttempt where
  step : ℕ
  request : StepRequest
  outcome : Except String ℕ

/-- `is_success`. -/
def isSuccessStatus (status : ℕ) : Bool := 200 ≤ status && status < 300

/-- The attempt ended in a success status. -/
def StepAttempt.succeeded (a : StepAttempt) : Bool :=
  match a.outcome with
  | .ok status => isSuccessStatus status
  | .error _ => false

/-- Attempts up to the first one that succeeds, or as many as there can be. -/
inductive UntilSuccess : ℕ → List StepAttempt → Prop
  | none : UntilSuccess 0 []
  | success {a : StepAttempt} (n : ℕ) (h : a.succeeded = true) : UntilSuccess (n + 1) [a]
  | failure {a : StepAttempt} {n : ℕ} {l : List StepAttempt} (h : a.succeeded = false)
      (hrest : UntilSuccess n l) : UntilSuccess (n + 1) (a :: l)

/-- The last of such attempts is the only one that can succeed. -/
theorem UntilSuccess.any_getLast? {n : ℕ} {l : List StepAttempt} (h : UntilSuccess n l) :
    l.getLast?.any (·.succeeded) = l.any (·.succeeded) := by
  induction h with
  | none => rfl
  | success => simp
  | @failure a n l h hrest ih =>
      cases l with
      | nil => simp
      | cons b l =>
          rw [List.getLast?_cons_cons, ih, List.any_cons (a := a), h, Bool.false_or]

/-- An execution between two steps. -/
structure WorkflowExecution where
  workflow : Workflow
  firstFailure : Option String
  sent : List StepAttempt

namespace WorkflowExecution

/-- A step is sent. -/
def send (s : WorkflowExecution) (http : StepOutcomes) (i attempt : ℕ) (step : WorkflowStep) :
    WorkflowExecution :=
  { s with sent := s.sent ++ [⟨i, step.request, http.outcome i attempt⟩] }

/-- A step of the workflow is changed. -/
def setStep (s : WorkflowExecution) (i : ℕ) (f : WorkflowStep → WorkflowStep) :
    WorkflowExecution :=
  { s with workflow := { s.workflow with steps := s.workflow.steps.modify i f } }

/-- The workflow fails. -/
def fail (s : WorkflowExecution) (now : ℕ) (err : String) : WorkflowExecution :=
  { s with
    workflow :=
      { s.workflow with status := .failed, error := some err, finishedAt := some now } }

/-- The failure of a step that is skipped is kept if it is the first one. -/
def skip (s : WorkflowExecution) (i : ℕ) (err : String) : WorkflowExecution :=
  { s.setStep i fun st => { st with status := .skipped } with
    firstFailure := if s.firstFailure.isNone then some err else s.firstFailure }

end WorkflowExecution

/-- The loop over the retries of a step, with the number of retries left and the last status. -/
def retryStep (http : StepOutcomes) (i : ℕ) (step : WorkflowStep) :
    ℕ → ℕ → ℕ → WorkflowExecution → Bool × ℕ × WorkflowExecution
  | 0, _, lastStatus, s => (false, lastStatus, s)
  | left + 1, attempt, lastStatus, s =>
      let s := s.send http i attempt step
      match http.outcome i attempt with
      | .ok status =>
          if isSuccessStatus status then (true, status, s)
          else retryStep http i step left (attempt + 1) status s
      | .error _ => retryStep http i step left (attempt + 1) lastStatus s

/-- A step, with the error that it ends the execution with. -/
def runStep (http : StepOutcomes) (i : ℕ) (step : WorkflowStep) (s : WorkflowExecution) :
    Option String × WorkflowExecution :=
  let s := s.send http i 0 step
  let s := { s with workflow := { s.workflow with currentStep := i } }
  match http.outcome i 0 with
  | .ok status =>
      let s := s.setStep i fun st => { st with responseStatus := some status }
      if isSuccessStatus status then
        (none, s.setStep i fun st => { st with status := .success })
      else
        let err := "Step " ++ step.name ++ " failed: HTTP " ++ toString status ++ " " ++
          http.reason status
        match step.onFailure with
        | .stop =>
            (some err, (s.setStep i fun st => { st with status := .failed }).fail http.now err)
        | .skip => (none, s.skip i err)
        | .retry max =>
            let s := s.setStep i fun st => { st with status := .failed }
            let attempts := Nat.max max 1
            let (succeeded, lastStatus, s) := retryStep http i step attempts 1 status s
            let s := s.setStep i fun st => { st with responseStatus := some lastStatus }
            if succeeded then (none, s.setStep i fun st => { st with status := .success })
            else
              let err := "Step " ++ step.name ++ " failed after " ++ toString attempts ++
                " retries: last HTTP " ++ toString lastStatus
              (some err, (s.setStep i fun st => { st with status := .failed }).fail http.now err)
  | .error e =>
      let s := s.setStep i fun st => { st with status := .failed }
      let err := "Step " ++ step.name ++ " error: " ++ e
      match step.onFailure with
      | .skip => (none, s.skip i err)
      | _ => (some err, s.fail http.now err)

/-- The loop over the steps. -/
def runSteps (http : StepOutcomes) :
    List (WorkflowStep × ℕ) → WorkflowExecution → Option String × WorkflowExecution
  | [], s => (none, s)
  | (step, i) :: rest, s =>
      match runStep http i step s with
      | (some err, s) => (some err, s)
      | (none, s) => runSteps http rest s

/-- The workflow after its last step. -/
def WorkflowExecution.finish (s : WorkflowExecution) (now : ℕ) : Workflow :=
  match s.firstFailure with
  | some err =>
      { s.workflow with status := .failed, error := some err, finishedAt := some now }
  | none => { s.workflow with status := .completed, finishedAt := some now }

/-- What `execute` does with the workflow that it finds. -/
def Workflow.execute (wf : Workflow) (http : StepOutcomes) :
    Except String Unit × Workflow × List StepAttempt :=
  match runSteps http wf.steps.zipIdx ⟨{ wf with status := .running }, none, []⟩ with
  | (some err, s) => (.error err, s.workflow, s.sent)
  | (none, s) => (.ok (), s.finish http.now, s.sent)

/-- `execute`, with the requests that it sends. -/
def WorkflowEngine.execute (engine : WorkflowEngine) (http : StepOutcomes) (workflowId : String) :
    Except String Unit × WorkflowEngine × List StepAttempt :=
  match engine.find? (·.id = workflowId) with
  | none => (.error "Workflow not found", engine, [])
  | some wf =>
      let (result, wf, sent) := wf.execute http
      (result, engine.set (engine.findIdx (·.id = workflowId)) wf, sent)

namespace StepOutcomes

variable (http : StepOutcomes)

/-- An attempt ends in a success status. -/
def succeeds (i attempt : ℕ) : Bool :=
  match http.outcome i attempt with
  | .ok status => isSuccessStatus status
  | .error _ => false

/-- An attempt of a step. -/
def attempt (i k : ℕ) (step : WorkflowStep) : StepAttempt := ⟨i, step.request, http.outcome i k⟩

/-- Whether an attempt succeeds. -/
theorem succeeded_attempt (i k : ℕ) (step : WorkflowStep) :
    (http.attempt i k step).succeeded = http.succeeds i k := rfl

/-- The retries of a step: they end with the first success. -/
def retries (i : ℕ) (step : WorkflowStep) : ℕ → ℕ → List StepAttempt
  | 0, _ => []
  | left + 1, k =>
      http.attempt i k step ::
        if http.succeeds i k then [] else retries i step left (k + 1)

/-- The number of retries that a step can have: none after a transport error. -/
def retriesOf (i : ℕ) (step : WorkflowStep) : ℕ :=
  match step.onFailure, http.outcome i 0 with
  | .retry max, .ok status => if isSuccessStatus status then 0 else Nat.max max 1
  | _, _ => 0

/-- The attempts of a step that is reached. -/
def attempts (i : ℕ) (step : WorkflowStep) : List StepAttempt :=
  http.attempt i 0 step :: http.retries i step (http.retriesOf i step) 1

/-- A step succeeds at once or in one of its retries. -/
def Passes (i : ℕ) (step : WorkflowStep) : Prop :=
  ∃ k ≤ http.retriesOf i step, http.succeeds i k = true

/-- A step fails and is skipped. -/
def Skips (i : ℕ) (step : WorkflowStep) : Prop :=
  ¬ http.Passes i step ∧ step.onFailure = .skip

/-- A step fails and ends the execution. -/
def Ends (i : ℕ) (step : WorkflowStep) : Prop :=
  ¬ http.Passes i step ∧ step.onFailure ≠ .skip

instance (i : ℕ) (step : WorkflowStep) : Decidable (http.Passes i step) :=
  inferInstanceAs (Decidable (∃ k ≤ http.retriesOf i step, http.succeeds i k = true))

instance (i : ℕ) (step : WorkflowStep) : Decidable (http.Skips i step) :=
  inferInstanceAs (Decidable (_ ∧ _))

instance (i : ℕ) (step : WorkflowStep) : Decidable (http.Ends i step) :=
  inferInstanceAs (Decidable (_ ∧ _))

variable {http} {i k left : ℕ} {step : WorkflowStep}

/-- The attempts of a step are its own. -/
theorem mem_retries {a : StepAttempt} (h : a ∈ http.retries i step left k) :
    a.step = i ∧ a.request = step.request := by
  induction left generalizing k with
  | zero => cases h
  | succ left ih =>
      rw [retries] at h
      rcases List.mem_cons.mp h with rfl | h
      · exact ⟨rfl, rfl⟩
      · split at h
        · cases h
        · exact ih h

/-- Retries end with the first success. -/
theorem untilSuccess_retries (i : ℕ) (step : WorkflowStep) (left k : ℕ) :
    UntilSuccess left (http.retries i step left k) := by
  induction left generalizing k with
  | zero => exact .none
  | succ left ih =>
      rw [retries]
      cases hk : http.succeeds i k with
      | true => exact .success left hk
      | false => exact .failure hk (ih (k + 1))

/-- One of the retries succeeds if an attempt with one of their numbers does. -/
theorem any_retries (i : ℕ) (step : WorkflowStep) (left k : ℕ) :
    (http.retries i step left k).any (·.succeeded) = true ↔
      ∃ j < left, http.succeeds i (k + j) = true := by
  induction left generalizing k with
  | zero => simp [retries]
  | succ left ih =>
      rw [retries, Nat.exists_lt_succ_left, List.any_cons, Bool.or_eq_true, succeeded_attempt,
        Nat.add_zero]
      cases hk : http.succeeds i k with
      | true => simp
      | false =>
          refine or_congr Iff.rfl ((ih (k + 1)).trans (exists_congr fun j => ?_))
          rw [Nat.add_assoc, Nat.add_comm 1 j]

/-- There are no retries after a success. -/
theorem retriesOf_eq_zero (h : http.succeeds i 0 = true) : http.retriesOf i step = 0 := by
  unfold succeeds at h
  unfold retriesOf
  split
  next hstatus =>
    rw [hstatus] at h
    exact if_pos h
  next => rfl

/-- A step that is not retried has one attempt. -/
theorem attempts_of_retriesOf (h : http.retriesOf i step = 0) :
    http.attempts i step = [http.attempt i 0 step] := by
  rw [attempts, h, retries]

/-- A step that is not retried passes if its attempt succeeds. -/
theorem passes_iff_of_retriesOf (h : http.retriesOf i step = 0) :
    http.Passes i step ↔ http.succeeds i 0 = true := by
  simp [Passes, h]

/-- There are no retries after a transport error. -/
theorem retriesOf_of_error {e : String} (h : http.outcome i 0 = .error e) :
    http.retriesOf i step = 0 := by
  simp [retriesOf, h]

/-- Only steps with that action are retried. -/
theorem retriesOf_of_ne (h : ∀ max, step.onFailure ≠ .retry max) : http.retriesOf i step = 0 := by
  unfold retriesOf
  split
  next max _ hmax _ => exact absurd hmax (h max)
  next => rfl

/-- The retries after a status that is no success. -/
theorem retriesOf_of_status {max status : ℕ} (haction : step.onFailure = .retry max)
    (h : http.outcome i 0 = .ok status) (hstatus : isSuccessStatus status = false) :
    http.retriesOf i step = Nat.max max 1 := by
  simp [retriesOf, haction, h, hstatus]

/-- Attempts end with the first success. -/
theorem untilSuccess_attempts (i : ℕ) (step : WorkflowStep) :
    UntilSuccess (http.retriesOf i step + 1) (http.attempts i step) := by
  rw [attempts]
  cases hfirst : http.succeeds i 0 with
  | true =>
      rw [retriesOf_eq_zero hfirst]
      exact .success 0 hfirst
  | false => exact .failure hfirst (untilSuccess_retries i step _ 1)

/-- A step passes if one of its attempts succeeds. -/
theorem any_attempts (i : ℕ) (step : WorkflowStep) :
    (http.attempts i step).any (·.succeeded) = true ↔ http.Passes i step := by
  rw [attempts, List.any_cons, Bool.or_eq_true, any_retries, succeeded_attempt]
  constructor
  · rintro (h | ⟨j, hj, h⟩)
    · exact ⟨0, Nat.zero_le _, h⟩
    · exact ⟨1 + j, by omega, h⟩
  · rintro ⟨k, hk, h⟩
    cases k with
    | zero => exact .inl h
    | succ k => exact .inr ⟨k, hk, Nat.add_comm 1 k ▸ h⟩

/-- The attempts of a step are its own. -/
theorem mem_attempts {a : StepAttempt} (h : a ∈ http.attempts i step) :
    a.step = i ∧ a.request = step.request := by
  rcases List.mem_cons.mp h with rfl | h
  · exact ⟨rfl, rfl⟩
  · exact mem_retries h

end StepOutcomes

/-- What the steps leave of a workflow. -/
structure WorkflowExecution.Keeps (s t : WorkflowExecution) : Prop where
  id : t.workflow.id = s.workflow.id
  status : t.workflow.status = s.workflow.status
  error : t.workflow.error = s.workflow.error

/-- What the loop over the retries does. -/
theorem retryStep_spec {http : StepOutcomes} {i : ℕ} {step : WorkflowStep} (left k last : ℕ)
    (s : WorkflowExecution) : ∃ last', retryStep http i step left k last s =
      ((http.retries i step left k).any (·.succeeded), last',
        { s with sent := s.sent ++ http.retries i step left k }) := by
  induction left generalizing k last s with
  | zero => exact ⟨last, by simp [retryStep, StepOutcomes.retries]⟩
  | succ left ih =>
      -- After a failure the loop goes on, with some last status.
      have hagain (last : ℕ) (hfails : http.succeeds i k = false) : ∃ last',
          retryStep http i step left (k + 1) last (s.send http i k step) =
            ((http.retries i step (left + 1) k).any (·.succeeded), last',
              { s with sent := s.sent ++ http.retries i step (left + 1) k }) := by
        obtain ⟨last', h⟩ := ih (k + 1) last (s.send http i k step)
        refine ⟨last', ?_⟩
        rw [h, StepOutcomes.retries, List.any_cons, StepOutcomes.succeeded_attempt, hfails,
          Bool.false_or, if_neg Bool.false_ne_true, WorkflowExecution.send, List.append_assoc]
        rfl
      rw [retryStep]
      cases hk : http.outcome i k with
      | error e =>
          simp only
          exact hagain last (by rw [StepOutcomes.succeeds, hk])
      | ok status =>
          simp only
          cases hsuccess : isSuccessStatus status with
          | false => exact hagain status (by rw [StepOutcomes.succeeds, hk]; exact hsuccess)
          | true =>
              have hsucceeds : http.succeeds i k = true := by
                rw [StepOutcomes.succeeds, hk]
                exact hsuccess
              refine ⟨status, ?_⟩
              rw [StepOutcomes.retries, List.any_cons, StepOutcomes.succeeded_attempt, hsucceeds,
                Bool.true_or, if_pos rfl, if_pos rfl]
              rfl

/-- What a step does. -/
structure StepSpec (http : StepOutcomes) (i : ℕ) (step : WorkflowStep) (s : WorkflowExecution)
    (error : Option String) (t : WorkflowExecution) : Prop where
  sent : t.sent = s.sent ++ http.attempts i step
  id : t.workflow.id = s.workflow.id
  passes : http.Passes i step → error = none ∧ s.Keeps t ∧ t.firstFailure = s.firstFailure
  skips : http.Skips i step → error = none ∧ s.Keeps t ∧ t.firstFailure.isSome
  ends : http.Ends i step → error.isSome ∧ t.workflow.status = .failed

section

variable {http : StepOutcomes} {i : ℕ} {step : WorkflowStep} {s t : WorkflowExecution}

/-- What a step does that passes. -/
theorem StepSpec.of_passes (h : http.Passes i step)
    (hsent : t.sent = s.sent ++ http.attempts i step) (hkeeps : s.Keeps t)
    (hfirst : t.firstFailure = s.firstFailure) : StepSpec http i step s none t :=
  ⟨hsent, hkeeps.id, fun _ => ⟨rfl, hkeeps, hfirst⟩, fun hskips => absurd h hskips.1,
    fun hends => absurd h hends.1⟩

/-- What a step does that is skipped. -/
theorem StepSpec.of_skips (h : http.Skips i step) (hsent : t.sent = s.sent ++ http.attempts i step)
    (hkeeps : s.Keeps t) (hfirst : t.firstFailure.isSome) : StepSpec http i step s none t :=
  ⟨hsent, hkeeps.id, fun hpasses => absurd hpasses h.1, fun _ => ⟨rfl, hkeeps, hfirst⟩,
    fun hends => absurd h.2 hends.2⟩

/-- What a step does that ends the execution. -/
theorem StepSpec.of_ends {err : String} (h : http.Ends i step)
    (hsent : t.sent = s.sent ++ http.attempts i step) (hid : t.workflow.id = s.workflow.id)
    (hstatus : t.workflow.status = .failed) : StepSpec http i step s (some err) t :=
  ⟨hsent, hid, fun hpasses => absurd hpasses h.1, fun hskips => absurd hskips.2 h.2,
    fun _ => ⟨rfl, hstatus⟩⟩

/-- The first failure is there after a step is skipped. -/
theorem WorkflowExecution.isSome_skip (s : WorkflowExecution) (i : ℕ) (err : String) :
    (s.skip i err).firstFailure.isSome := by
  rw [WorkflowExecution.skip]
  cases hfirst : s.firstFailure with
  | none => rfl
  | some e => simp

/-- What a step does after a transport error. -/
theorem runStep_spec_of_error {e : String} (houtcome : http.outcome i 0 = .error e) :
    StepSpec http i step s (runStep http i step s).1 (runStep http i step s).2 := by
  have hretries : http.retriesOf i step = 0 := StepOutcomes.retriesOf_of_error houtcome
  have hfails : ¬ http.Passes i step := by
    simp [StepOutcomes.passes_iff_of_retriesOf hretries, StepOutcomes.succeeds, houtcome]
  have hattempts := StepOutcomes.attempts_of_retriesOf hretries
  unfold runStep
  simp only [houtcome]
  cases haction : step.onFailure with
  | skip =>
      exact .of_skips ⟨hfails, haction⟩ (hattempts ▸ rfl) ⟨rfl, rfl, rfl⟩
        (WorkflowExecution.isSome_skip ..)
  | stop | retry =>
      exact .of_ends ⟨hfails, by simp [haction]⟩ (hattempts ▸ rfl) rfl rfl

/-- What a step does after a success status. -/
theorem runStep_spec_of_success {status : ℕ} (houtcome : http.outcome i 0 = .ok status)
    (hsuccess : isSuccessStatus status = true) :
    StepSpec http i step s (runStep http i step s).1 (runStep http i step s).2 := by
  have hsucceeds : http.succeeds i 0 = true := by
    rw [StepOutcomes.succeeds, houtcome]
    exact hsuccess
  have hretries : http.retriesOf i step = 0 := StepOutcomes.retriesOf_eq_zero hsucceeds
  have hattempts := StepOutcomes.attempts_of_retriesOf hretries
  unfold runStep
  simp only [houtcome, hsuccess, if_true]
  exact .of_passes ⟨0, Nat.zero_le _, hsucceeds⟩ (hattempts ▸ rfl) ⟨rfl, rfl, rfl⟩ rfl

/-- What a step does after another status. -/
theorem runStep_spec_of_status {status : ℕ} (houtcome : http.outcome i 0 = .ok status)
    (hsuccess : isSuccessStatus status = false) :
    StepSpec http i step s (runStep http i step s).1 (runStep http i step s).2 := by
  have hfirst : http.succeeds i 0 = false := by
    rw [StepOutcomes.succeeds, houtcome]
    exact hsuccess
  have honce (h : ∀ max, step.onFailure ≠ .retry max) :
      http.attempts i step = [http.attempt i 0 step] ∧ ¬ http.Passes i step := by
    have hretries : http.retriesOf i step = 0 := StepOutcomes.retriesOf_of_ne h
    exact ⟨StepOutcomes.attempts_of_retriesOf hretries, by
      simp [StepOutcomes.passes_iff_of_retriesOf hretries, hfirst]⟩
  unfold runStep
  simp only [houtcome, hsuccess, Bool.false_eq_true, if_false]
  cases haction : step.onFailure with
  | stop =>
      obtain ⟨hattempts, hfails⟩ := honce (by simp [haction])
      exact .of_ends ⟨hfails, by simp [haction]⟩ (hattempts ▸ rfl) rfl rfl
  | skip =>
      obtain ⟨hattempts, hfails⟩ := honce (by simp [haction])
      exact .of_skips ⟨hfails, haction⟩ (hattempts ▸ rfl) ⟨rfl, rfl, rfl⟩
        (WorkflowExecution.isSome_skip ..)
  | retry max =>
      have hattempts : http.attempts i step =
          http.attempt i 0 step :: http.retries i step (Nat.max max 1) 1 := by
        rw [StepOutcomes.attempts, StepOutcomes.retriesOf_of_status haction houtcome hsuccess]
      have hpasses : http.Passes i step ↔
          (http.retries i step (Nat.max max 1) 1).any (·.succeeded) = true := by
        rw [← StepOutcomes.any_attempts, hattempts, List.any_cons,
          StepOutcomes.succeeded_attempt, hfirst, Bool.false_or]
      have hsent : (s.sent ++ [http.attempt i 0 step]) ++ http.retries i step (Nat.max max 1) 1 =
          s.sent ++ http.attempts i step := by
        rw [hattempts, List.append_assoc, List.singleton_append]
      choose last hloop using @retryStep_spec http i step (Nat.max max 1) 1 status
      simp only [hloop]
      cases hany : (http.retries i step (Nat.max max 1) 1).any (·.succeeded) with
      | true =>
          simp only [if_true]
          exact .of_passes (hpasses.mpr hany) hsent ⟨rfl, rfl, rfl⟩ rfl
      | false =>
          simp only [Bool.false_eq_true, if_false]
          refine .of_ends ⟨fun hp => ?_, by simp [haction]⟩ hsent rfl rfl
          rw [hpasses, hany] at hp
          cases hp

/-- What a step does. -/
theorem runStep_spec (http : StepOutcomes) (i : ℕ) (step : WorkflowStep) (s : WorkflowExecution) :
    StepSpec http i step s (runStep http i step s).1 (runStep http i step s).2 := by
  cases houtcome : http.outcome i 0 with
  | error e => exact runStep_spec_of_error houtcome
  | ok status =>
      cases hsuccess : isSuccessStatus status with
      | true => exact runStep_spec_of_success houtcome hsuccess
      | false => exact runStep_spec_of_status houtcome hsuccess

end

namespace StepOutcomes

variable (http : StepOutcomes)

/-- The steps up to the first one that ends the execution. -/
def reached : List (WorkflowStep × ℕ) → List (WorkflowStep × ℕ)
  | [] => []
  | (step, i) :: rest => (step, i) :: if http.Ends i step then [] else reached rest

/-- The attempts of all steps. -/
def attemptsOf (L : List (WorkflowStep × ℕ)) : List StepAttempt :=
  L.flatMap fun e => http.attempts e.2 e.1

variable {http} {L : List (WorkflowStep × ℕ)} {i : ℕ} {step : WorkflowStep}

/-- The steps that are reached come after steps that do not end the execution. -/
theorem mem_reached (hL : L.Pairwise fun e e' => e.2 < e'.2) :
    (step, i) ∈ http.reached L ↔
      (step, i) ∈ L ∧ ∀ e ∈ L, e.2 < i → ¬ http.Ends e.2 e.1 := by
  induction L with
  | nil => simp [reached]
  | cons e L ih =>
      obtain ⟨step', i'⟩ := e
      obtain ⟨hfirst, hrest⟩ := List.pairwise_cons.mp hL
      rw [reached, List.mem_cons, List.mem_cons]
      constructor
      · rintro (heq | hlater)
        · obtain ⟨rfl, rfl⟩ := Prod.mk.inj heq
          refine ⟨.inl rfl, fun e he hlt => ?_⟩
          rcases List.mem_cons.mp he with rfl | he
          · exact absurd hlt (lt_irrefl _)
          · exact absurd (hfirst e he) (not_lt.mpr hlt.le)
        · split at hlater
          · cases hlater
          next hends =>
            obtain ⟨hmem, hno⟩ := (ih hrest).mp hlater
            refine ⟨.inr hmem, fun e he hlt => ?_⟩
            rcases List.mem_cons.mp he with rfl | he
            · exact hends
            · exact hno e he hlt
      · rintro ⟨heq | hmem, hno⟩
        · exact .inl heq
        · have hends : ¬ http.Ends i' step' :=
            hno (step', i') List.mem_cons_self (hfirst _ hmem)
          rw [if_neg hends]
          exact .inr ((ih hrest).mpr ⟨hmem, fun e he => hno e (List.mem_cons_of_mem _ he)⟩)

/-- Fewer steps are reached. -/
theorem reached_sublist (L : List (WorkflowStep × ℕ)) : (http.reached L).Sublist L := by
  induction L with
  | nil => exact .slnil
  | cons e L ih =>
      rw [reached]
      split
      · exact (List.nil_sublist L).cons_cons e
      · exact ih.cons_cons e

/-- The attempts of a step among those of all. -/
theorem filter_attemptsOf (hL : L.Pairwise fun e e' => e.2 < e'.2) (h : (step, i) ∈ L) :
    (http.attemptsOf L).filter (·.step = i) = http.attempts i step := by
  -- The attempts of a step are kept or left out as a whole.
  have hall (e : WorkflowStep × ℕ) : (http.attempts e.2 e.1).filter (·.step = i) =
      if e.2 = i then http.attempts e.2 e.1 else [] := by
    split
    next heq =>
      exact List.filter_eq_self.mpr fun a ha => decide_eq_true ((mem_attempts ha).1.trans heq)
    next hne =>
      refine List.filter_eq_nil_iff.mpr fun a ha => ?_
      rw [(mem_attempts ha).1, decide_eq_true_eq]
      exact hne
  induction L with
  | nil => cases h
  | cons e L ih =>
      obtain ⟨hfirst, hrest⟩ := List.pairwise_cons.mp hL
      rw [attemptsOf, List.flatMap_cons, List.filter_append, hall]
      rcases List.mem_cons.mp h with rfl | h
      · have hnone : (http.attemptsOf L).filter (·.step = i) = [] := by
          refine List.filter_eq_nil_iff.mpr fun a ha => ?_
          obtain ⟨e, he, ha⟩ := List.mem_flatMap.mp ha
          rw [(mem_attempts ha).1, decide_eq_true_eq]
          exact (hfirst e he).ne'
        rw [if_pos rfl]
        exact (congrArg _ hnone).trans (List.append_nil _)
      · rw [if_neg (hfirst _ h).ne, List.nil_append]
        exact ih hrest h

end StepOutcomes

/-- What the loop over the steps does. -/
structure StepsSpec (http : StepOutcomes) (L : List (WorkflowStep × ℕ)) (s : WorkflowExecution)
    (error : Option String) (t : WorkflowExecution) : Prop where
  sent : t.sent = s.sent ++ http.attemptsOf (http.reached L)
  id : t.workflow.id = s.workflow.id
  ends : (∃ e ∈ L, http.Ends e.2 e.1) → error.isSome ∧ t.workflow.status = .failed
  passes : (∀ e ∈ L, ¬ http.Ends e.2 e.1) → error = none ∧ s.Keeps t ∧
    (t.firstFailure.isSome ↔ s.firstFailure.isSome ∨ ∃ e ∈ L, http.Skips e.2 e.1)

/-- What the loop over the steps does. -/
theorem runSteps_spec (http : StepOutcomes) (L : List (WorkflowStep × ℕ)) (s : WorkflowExecution) :
    StepsSpec http L s (runSteps http L s).1 (runSteps http L s).2 := by
  induction L generalizing s with
  | nil =>
      exact ⟨(List.append_nil _).symm, rfl, nofun,
        fun _ => ⟨rfl, ⟨rfl, rfl, rfl⟩, by simp [runSteps]⟩⟩
  | cons e L ih =>
      obtain ⟨step, i⟩ := e
      have hstep := runStep_spec http i step s
      rw [runSteps]
      generalize runStep http i step s = r at hstep
      obtain ⟨err, t⟩ := r
      change StepSpec http i step s err t at hstep
      by_cases hends : http.Ends i step
      · obtain ⟨herr, hstatus⟩ := hstep.ends hends
        obtain ⟨err, rfl⟩ := Option.isSome_iff_exists.mp herr
        refine ⟨?_, hstep.id, fun _ => ⟨rfl, hstatus⟩,
          fun hno => absurd hends (hno _ List.mem_cons_self)⟩
        rw [StepOutcomes.reached, if_pos hends]
        exact hstep.sent.trans (by simp [StepOutcomes.attemptsOf])
      · have hnone : err = none ∧ s.Keeps t ∧
            (t.firstFailure.isSome ↔ s.firstFailure.isSome ∨ http.Skips i step) := by
          by_cases hpasses : http.Passes i step
          · obtain ⟨herr, hkeeps, hfirst⟩ := hstep.passes hpasses
            exact ⟨herr, hkeeps, by simp [hfirst, StepOutcomes.Skips, hpasses]⟩
          · have hskips : http.Skips i step :=
              ⟨hpasses, not_not.mp fun hne => hends ⟨hpasses, hne⟩⟩
            obtain ⟨herr, hkeeps, hfirst⟩ := hstep.skips hskips
            exact ⟨herr, hkeeps, by simp [hfirst, hskips]⟩
        obtain ⟨rfl, hkeeps, hfirst⟩ := hnone
        obtain ⟨hsent, hid, hend, hpass⟩ := ih t
        refine ⟨?_, hid.trans hkeeps.id, ?_, fun hno => ?_⟩
        · rw [hsent, hstep.sent, StepOutcomes.reached, if_neg hends, StepOutcomes.attemptsOf,
            StepOutcomes.attemptsOf, List.flatMap_cons, List.append_assoc]
        · rintro ⟨e, he, hends'⟩
          rcases List.mem_cons.mp he with rfl | he
          · exact absurd hends' hends
          · exact hend ⟨e, he, hends'⟩
        · obtain ⟨herr, hkeeps', hfirst'⟩ := hpass fun e he => hno e (List.mem_cons_of_mem _ he)
          refine ⟨herr, ⟨hkeeps'.id.trans hkeeps.id, hkeeps'.status.trans hkeeps.status,
            hkeeps'.error.trans hkeeps.error⟩, hfirst'.trans ?_⟩
          rw [hfirst, List.exists_mem_cons_iff, or_assoc]

end XiraNet

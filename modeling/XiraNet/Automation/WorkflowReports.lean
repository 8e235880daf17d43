import XiraNet.Automation.Workflows

/-!
# What an execution reports

Whether the result of `WorkflowEngine::execute`, the workflow that it leaves and the requests that
it has sent agree.

* `WorkflowEngine.executeReports_iff`: for which steps and outcomes they do.
* `WorkflowEngine.executeReports_fails`: a step whose first attempt gets no response is not retried.
-/

namespace XiraNet

/-- The attempts of one step. -/
def attemptsAt (sent : List StepAttempt) (i : ℕ) : List StepAttempt := sent.filter (·.step = i)

/-- The last attempt of every step ended in a success status. -/
def AllSucceeded (wf : Workflow) (sent : List StepAttempt) : Prop :=
  ∀ i < wf.steps.length, (attemptsAt sent i).getLast?.any (·.succeeded) = true

/-- The result, the workflow afterwards and the requests agree. -/
structure Workflow.Reports (wf : Workflow) (result : Except String Unit) (wf' : Workflow)
    (sent : List StepAttempt) : Prop where
  ok : result.isOk = true ↔ wf'.status = .completed
  completed : wf'.status = .completed ↔ AllSucceeded wf sent
  error : wf'.status = .completed → wf'.error = none
  inOrder : sent.Pairwise fun a b => a.step ≤ b.step
  noGap : ∀ a ∈ sent, ∀ i < a.step, ∃ b ∈ sent, b.step = i
  requests : ∀ a ∈ sent, ∃ step, wf.steps[a.step]? = some step ∧ a.request = step.request
  stop : ∀ a ∈ sent, ∀ step, wf.steps[a.step]? = some step → step.onFailure = .stop →
    a.succeeded = false → ∀ b ∈ sent, b.step ≤ a.step
  retry : ∀ i step max, wf.steps[i]? = some step → step.onFailure = .retry max → 1 ≤ max →
    attemptsAt sent i ≠ [] → UntilSuccess (max + 1) (attemptsAt sent i)

/-- The steps that are reached. -/
def StepOutcomes.Reaches (http : StepOutcomes) (wf : Workflow) (i : ℕ) (step : WorkflowStep) :
    Prop :=
  wf.steps[i]? = some step ∧ ∀ j step', wf.steps[j]? = some step' → j < i → ¬ http.Ends j step'

/-- If no step ends the execution, none is skipped; if all steps pass, there is no error from an
earlier execution; and the first attempt of a step that is reached and is to be retried gets a
response. -/
structure Workflow.RunsAsMeant (wf : Workflow) (http : StepOutcomes) : Prop where
  noSkip : (∀ i step, wf.steps[i]? = some step → ¬ http.Ends i step) →
    ∀ i step, wf.steps[i]? = some step → ¬ http.Skips i step
  noError : (∀ i step, wf.steps[i]? = some step → http.Passes i step) → wf.error = none
  response : ∀ i step, http.Reaches wf i step → ∀ max, step.onFailure = .retry max → 1 ≤ max →
    ∃ status, http.outcome i 0 = .ok status

/-- What an execution does. -/
structure Workflow.ExecuteSpec (wf : Workflow) (http : StepOutcomes) (result : Except String Unit)
    (wf' : Workflow) (sent : List StepAttempt) : Prop where
  id : wf'.id = wf.id
  ends : (∃ i step, wf.steps[i]? = some step ∧ http.Ends i step) →
    result.isOk = false ∧ wf'.status = .failed
  skips : (∀ i step, wf.steps[i]? = some step → ¬ http.Ends i step) →
    (∃ i step, wf.steps[i]? = some step ∧ http.Skips i step) →
    result.isOk = true ∧ wf'.status = .failed
  passes : (∀ i step, wf.steps[i]? = some step → http.Passes i step) →
    result.isOk = true ∧ wf'.status = .completed ∧ wf'.error = wf.error
  inOrder : sent.Pairwise fun a b => a.step ≤ b.step
  reached : ∀ i step, http.Reaches wf i step → attemptsAt sent i = http.attempts i step
  own : ∀ a ∈ sent, ∃ step, http.Reaches wf a.step step ∧ a ∈ http.attempts a.step step

variable {http : StepOutcomes} {wf : Workflow}

/-- The steps come with ascending numbers. -/
theorem pairwise_zipIdx (steps : List WorkflowStep) :
    steps.zipIdx.Pairwise fun e e' => e.2 < e'.2 := by
  have h : (steps.zipIdx.map Prod.snd).Pairwise (· < ·) := by
    rw [List.zipIdx_map_snd]
    exact List.pairwise_lt_range'
  exact List.pairwise_map.mp h

/-- The steps that the loop reaches. -/
theorem mem_reached_zipIdx {i : ℕ} {step : WorkflowStep} :
    (step, i) ∈ http.reached wf.steps.zipIdx ↔ http.Reaches wf i step := by
  rw [StepOutcomes.mem_reached (pairwise_zipIdx _), List.mk_mem_zipIdx_iff_getElem?]
  refine and_congr_right fun _ => ⟨fun h j step' hj => ?_, fun h e he => ?_⟩
  · exact h (step', j) (List.mk_mem_zipIdx_iff_getElem?.mpr hj)
  · exact h e.2 e.1 (List.mk_mem_zipIdx_iff_getElem?.mp he)

/-- A property of the steps with their numbers. -/
theorem forall_mem_zipIdx {steps : List WorkflowStep} {P : ℕ → WorkflowStep → Prop} :
    (∀ e ∈ steps.zipIdx, P e.2 e.1) ↔ ∀ i step, steps[i]? = some step → P i step :=
  ⟨fun h i step hi => h (step, i) (List.mk_mem_zipIdx_iff_getElem?.mpr hi),
    fun h e he => h e.2 e.1 (List.mk_mem_zipIdx_iff_getElem?.mp he)⟩

/-- A step with a property. -/
theorem exists_mem_zipIdx {steps : List WorkflowStep} {P : ℕ → WorkflowStep → Prop} :
    (∃ e ∈ steps.zipIdx, P e.2 e.1) ↔ ∃ i step, steps[i]? = some step ∧ P i step := by
  constructor
  · rintro ⟨e, he, h⟩
    exact ⟨e.2, e.1, List.mk_mem_zipIdx_iff_getElem?.mp he, h⟩
  · rintro ⟨i, step, hi, h⟩
    exact ⟨(step, i), List.mk_mem_zipIdx_iff_getElem?.mpr hi, h⟩

/-- The attempts of the steps that are reached. -/
theorem attempts_spec (http : StepOutcomes) (wf : Workflow) :
    let sent := http.attemptsOf (http.reached wf.steps.zipIdx)
    (sent.Pairwise fun a b => a.step ≤ b.step) ∧
      (∀ i step, http.Reaches wf i step → attemptsAt sent i = http.attempts i step) ∧
      ∀ a ∈ sent, ∃ step, http.Reaches wf a.step step ∧ a ∈ http.attempts a.step step := by
  have hpairwise : (http.reached wf.steps.zipIdx).Pairwise fun e e' => e.2 < e'.2 :=
    (pairwise_zipIdx _).sublist (http.reached_sublist _)
  refine ⟨?_, fun i step h => ?_, fun a ha => ?_⟩
  · rw [StepOutcomes.attemptsOf, List.pairwise_flatMap]
    refine ⟨fun e _ => List.pairwise_of_forall_mem_list fun a ha b hb => ?_,
      hpairwise.imp fun hlt a ha b hb => ?_⟩
    · rw [(StepOutcomes.mem_attempts ha).1, (StepOutcomes.mem_attempts hb).1]
    · rw [(StepOutcomes.mem_attempts ha).1, (StepOutcomes.mem_attempts hb).1]
      exact hlt.le
  · exact StepOutcomes.filter_attemptsOf hpairwise (mem_reached_zipIdx.mpr h)
  · obtain ⟨⟨step, i⟩, he, ha⟩ := List.mem_flatMap.mp ha
    obtain rfl := (StepOutcomes.mem_attempts ha).1
    exact ⟨step, mem_reached_zipIdx.mp he, ha⟩

/-- What an execution does. -/
theorem Workflow.execute_spec (wf : Workflow) (http : StepOutcomes) :
    wf.ExecuteSpec http (wf.execute http).1 (wf.execute http).2.1 (wf.execute http).2.2 := by
  have hspec := runSteps_spec http wf.steps.zipIdx ⟨{ wf with status := .running }, none, []⟩
  obtain ⟨hinOrder, hreached, hown⟩ := attempts_spec http wf
  rw [Workflow.execute]
  generalize runSteps http wf.steps.zipIdx ⟨{ wf with status := .running }, none, []⟩ = r at hspec
  obtain ⟨err, t⟩ := r
  obtain ⟨hsent, hid, hends, hpasses⟩ := hspec
  replace hsent : t.sent = http.attemptsOf (http.reached wf.steps.zipIdx) := hsent
  rw [← hsent] at hinOrder hreached hown
  have hends' (h : ∃ i step, wf.steps[i]? = some step ∧ http.Ends i step) :=
    hends (exists_mem_zipIdx.mpr h)
  have hpasses' (h : ∀ i step, wf.steps[i]? = some step → ¬ http.Ends i step) :=
    hpasses (forall_mem_zipIdx.mpr h)
  cases err with
  | some err =>
      have hno (h : ∀ i step, wf.steps[i]? = some step → ¬ http.Ends i step) : False := by
        cases (hpasses' h).1
      refine ⟨hid, fun h => ⟨rfl, (hends' h).2⟩, fun h => (hno h).elim, fun h => ?_, ?_, ?_, ?_⟩
      · exact (hno fun i step hi hend => hend.1 (h i step hi)).elim
      · exact hinOrder
      · exact hreached
      · exact hown
  | none =>
      have hfinish : (t.finish http.now).id = wf.id := by
        rw [WorkflowExecution.finish]
        split <;> exact hid
      refine ⟨hfinish, fun h => ?_, fun h hskips => ?_, fun h => ?_, ?_, ?_, ?_⟩
      · cases (hends' h).1
      · obtain ⟨-, -, hfirst⟩ := hpasses' h
        obtain ⟨e, he⟩ := Option.isSome_iff_exists.mp
          (hfirst.mpr (.inr (exists_mem_zipIdx.mpr hskips)))
        refine ⟨rfl, ?_⟩
        change (t.finish http.now).status = _
        rw [WorkflowExecution.finish, he]
      · obtain ⟨-, hkeeps, hfirst⟩ := hpasses' fun i step hi hend => hend.1 (h i step hi)
        have hnone : t.firstFailure = none := by
          rw [← Option.not_isSome_iff_eq_none, hfirst]
          rintro (hsome | ⟨e, he, hskips⟩)
          · cases hsome
          · exact hskips.1 (forall_mem_zipIdx.mpr h e he)
        refine ⟨rfl, ?_, ?_⟩
        · change (t.finish http.now).status = _
          rw [WorkflowExecution.finish, hnone]
        · change (t.finish http.now).error = _
          rw [WorkflowExecution.finish, hnone]
          exact hkeeps.error
      · exact hinOrder
      · exact hreached
      · exact hown

namespace Workflow

variable {result : Except String Unit} {wf' : Workflow} {sent : List StepAttempt}

/-- An attempt belongs to a step that is reached. -/
theorem ExecuteSpec.reaches_of_mem (h : wf.ExecuteSpec http result wf' sent) {i : ℕ}
    {a : StepAttempt} (ha : a ∈ attemptsAt sent i) : ∃ step, http.Reaches wf i step := by
  obtain ⟨hmem, hstep⟩ := List.mem_filter.mp ha
  obtain ⟨step, hreaches, -⟩ := h.own a hmem
  exact ⟨step, of_decide_eq_true hstep ▸ hreaches⟩

/-- The last attempts of all steps are successes exactly if all steps pass. -/
theorem ExecuteSpec.allSucceeded_iff (h : wf.ExecuteSpec http result wf' sent) :
    AllSucceeded wf sent ↔ ∀ i step, wf.steps[i]? = some step → http.Passes i step := by
  have hlast {i : ℕ} {step : WorkflowStep} (hreaches : http.Reaches wf i step) :
      (attemptsAt sent i).getLast?.any (·.succeeded) = true ↔ http.Passes i step := by
    rw [h.reached i step hreaches, (StepOutcomes.untilSuccess_attempts i step).any_getLast?,
      StepOutcomes.any_attempts]
  constructor
  · intro hall i step hi
    have hsuccess := hall i (List.getElem?_eq_some_iff.mp hi).1
    cases hattempts : attemptsAt sent i with
    | nil =>
        rw [hattempts] at hsuccess
        cases hsuccess
    | cons a l =>
        obtain ⟨step', hreaches⟩ := h.reaches_of_mem (hattempts ▸ List.mem_cons_self)
        obtain rfl : step' = step := Option.some.inj (hreaches.1.symm.trans hi)
        exact (hlast hreaches).mp hsuccess
  · intro hpasses i hi
    have hstep := List.getElem?_eq_getElem hi
    exact (hlast ⟨hstep, fun j step' hj _ hends => hends.1 (hpasses j step' hj)⟩).mpr
      (hpasses i _ hstep)

/-- A step that is to be retried is retried unless its first attempt gets no response. -/
theorem untilSuccess_iff {i max : ℕ} {step : WorkflowStep} (haction : step.onFailure = .retry max)
    (hmax : 1 ≤ max) : UntilSuccess (max + 1) (http.attempts i step) ↔
      ∃ status, http.outcome i 0 = .ok status := by
  cases houtcome : http.outcome i 0 with
  | error e =>
      have hfails : (http.attempt i 0 step).succeeded = false := by
        simp [StepOutcomes.succeeded_attempt, StepOutcomes.succeeds, houtcome]
      rw [StepOutcomes.attempts_of_retriesOf (StepOutcomes.retriesOf_of_error houtcome)]
      refine iff_of_false (fun h => ?_) (by simp)
      cases h with
      | success _ hsucceeds => rw [hfails] at hsucceeds; cases hsucceeds
      | failure _ hrest => cases hrest; exact absurd hmax (by decide)
  | ok status =>
      refine iff_of_true ?_ ⟨status, rfl⟩
      cases hsuccess : isSuccessStatus status with
      | true =>
          have hsucceeds : http.succeeds i 0 = true := by
            rw [StepOutcomes.succeeds, houtcome]
            exact hsuccess
          rw [StepOutcomes.attempts_of_retriesOf (StepOutcomes.retriesOf_eq_zero hsucceeds)]
          exact .success max hsucceeds
      | false =>
          have h : UntilSuccess (http.retriesOf i step + 1) (http.attempts i step) :=
            StepOutcomes.untilSuccess_attempts i step
          rwa [StepOutcomes.retriesOf_of_status haction houtcome hsuccess,
            show Nat.max max 1 = max from Nat.max_eq_left hmax] at h

/-- The workflow is completed exactly if all steps pass. -/
theorem ExecuteSpec.completed_iff (h : wf.ExecuteSpec http result wf' sent) :
    wf'.status = .completed ↔ ∀ i step, wf.steps[i]? = some step → http.Passes i step := by
  constructor
  · intro hstatus i step hi
    by_contra hfails
    by_cases hends : ∃ i step, wf.steps[i]? = some step ∧ http.Ends i step
    · rw [(h.ends hends).2] at hstatus
      cases hstatus
    · have hno : ∀ i step, wf.steps[i]? = some step → ¬ http.Ends i step :=
        fun i step hi hend => hends ⟨i, step, hi, hend⟩
      have hskips : http.Skips i step :=
        ⟨hfails, not_not.mp fun hne => hno i step hi ⟨hfails, hne⟩⟩
      rw [(h.skips hno ⟨i, step, hi, hskips⟩).2] at hstatus
      cases hstatus
  · exact fun hpasses => (h.passes hpasses).2.1

/-- After a step with the action to stop has failed, no other one is sent. -/
theorem ExecuteSpec.stop (h : wf.ExecuteSpec http result wf' sent) {a : StepAttempt}
    (ha : a ∈ sent) {step : WorkflowStep} (hstep : wf.steps[a.step]? = some step)
    (haction : step.onFailure = .stop) (hfails : a.succeeded = false) :
    ∀ b ∈ sent, b.step ≤ a.step := by
  obtain ⟨step', hreaches, hattempt⟩ := h.own a ha
  obtain rfl : step' = step := Option.some.inj (hreaches.1.symm.trans hstep)
  have hretries : http.retriesOf a.step step' = 0 :=
    StepOutcomes.retriesOf_of_ne fun max => by simp [haction]
  have hends : http.Ends a.step step' := by
    rw [StepOutcomes.attempts_of_retriesOf hretries] at hattempt
    have hfirst := List.mem_singleton.mp hattempt
    rw [hfirst, StepOutcomes.succeeded_attempt] at hfails
    exact ⟨by simp [StepOutcomes.passes_iff_of_retriesOf hretries, hfails], by simp [haction]⟩
  intro b hb
  obtain ⟨-, ⟨-, hbefore⟩, -⟩ := h.own b hb
  exact not_lt.mp fun hlt => hbefore a.step step' hstep hlt hends

/-- Before an attempt of a step there are attempts of all earlier ones. -/
theorem ExecuteSpec.noGap (h : wf.ExecuteSpec http result wf' sent) {a : StepAttempt}
    (ha : a ∈ sent) {i : ℕ} (hi : i < a.step) : ∃ b ∈ sent, b.step = i := by
  obtain ⟨step, ⟨hstep, hbefore⟩, -⟩ := h.own a ha
  have hlength := hi.trans (List.getElem?_eq_some_iff.mp hstep).1
  have hreaches : http.Reaches wf i wf.steps[i] :=
    ⟨List.getElem?_eq_getElem hlength, fun j step' hj hlt => hbefore j step' hj (hlt.trans hi)⟩
  have hmem : http.attempt i 0 wf.steps[i] ∈ attemptsAt sent i := by
    rw [h.reached i _ hreaches]
    exact List.mem_cons_self
  exact ⟨_, List.mem_of_mem_filter hmem, rfl⟩

/-- The result, the workflow and the requests agree exactly for what runs as it is meant. -/
theorem ExecuteSpec.reports_iff (h : wf.ExecuteSpec http result wf' sent) :
    wf.Reports result wf' sent ↔ wf.RunsAsMeant http := by
  constructor
  · intro hreports
    refine ⟨fun hno i step hi hskips => ?_, fun hpasses => ?_,
      fun i step hreaches max haction hmax => ?_⟩
    · obtain ⟨hok, hstatus⟩ := h.skips hno ⟨i, step, hi, hskips⟩
      rw [hreports.ok.mp hok] at hstatus
      cases hstatus
    · obtain ⟨-, hstatus, herror⟩ := h.passes hpasses
      rw [← herror, hreports.error hstatus]
    · have hattempts := h.reached i step hreaches
      rw [← untilSuccess_iff haction hmax, ← hattempts]
      exact hreports.retry i step max hreaches.1 haction hmax
        (by simp [hattempts, StepOutcomes.attempts])
  · intro hmeant
    have hok : result.isOk = true ↔ wf'.status = .completed := by
      by_cases hends : ∃ i step, wf.steps[i]? = some step ∧ http.Ends i step
      · obtain ⟨hok, hstatus⟩ := h.ends hends
        rw [hok, hstatus]
        decide
      · have hno : ∀ i step, wf.steps[i]? = some step → ¬ http.Ends i step :=
          fun i step hi hend => hends ⟨i, step, hi, hend⟩
        have hpasses : ∀ i step, wf.steps[i]? = some step → http.Passes i step := by
          intro i step hi
          by_contra hfails
          exact hmeant.noSkip hno i step hi
            ⟨hfails, not_not.mp fun hne => hno i step hi ⟨hfails, hne⟩⟩
        obtain ⟨hok, hstatus, -⟩ := h.passes hpasses
        exact iff_of_true hok hstatus
    refine ⟨hok, h.completed_iff.trans h.allSucceeded_iff.symm, fun hstatus => ?_, h.inOrder,
      fun a ha i hi => h.noGap ha hi, fun a ha => ?_,
      fun a ha step hstep haction hfails => h.stop ha hstep haction hfails,
      fun i step max hi haction hmax hsent => ?_⟩
    · have hpasses := h.completed_iff.mp hstatus
      rw [(h.passes hpasses).2.2, hmeant.noError hpasses]
    · obtain ⟨step, hreaches, hattempt⟩ := h.own a ha
      exact ⟨step, hreaches.1, (StepOutcomes.mem_attempts hattempt).2⟩
    · obtain ⟨a, ha⟩ := List.exists_mem_of_ne_nil _ hsent
      obtain ⟨step', hreaches⟩ := h.reaches_of_mem ha
      obtain rfl : step' = step := Option.some.inj (hreaches.1.symm.trans hi)
      rw [h.reached i _ hreaches, untilSuccess_iff haction hmax]
      exact hmeant.response i _ hreaches max haction hmax

end Workflow

namespace WorkflowEngine

/-- What `execute` returns, the workflow and the requests agree exactly for what runs as it is
meant. -/
theorem executeReports_iff {engine : WorkflowEngine} {http : StepOutcomes} {workflowId : String}
    {wf : Workflow} (hfind : engine.find? (·.id = workflowId) = some wf) :
    (∃ wf', (engine.execute http workflowId).2.1.find? (·.id = workflowId) = some wf' ∧
      wf.Reports (engine.execute http workflowId).1 wf' (engine.execute http workflowId).2.2) ↔
      wf.RunsAsMeant http := by
  have hspec := wf.execute_spec http
  have hid : wf.id = workflowId := by simpa using List.find?_some hfind
  have hfound : (engine.set (engine.findIdx (·.id = workflowId)) (wf.execute http).2.1).find?
      (·.id = workflowId) = some (wf.execute http).2.1 :=
    KeyedList.find?_set_findIdx hfind (by simp [hspec.id, hid])
  simp only [execute, hfind]
  rw [← hspec.reports_iff]
  constructor
  · rintro ⟨wf', hwf', hreports⟩
    obtain rfl := Option.some.inj (hwf'.symm.trans hfound)
    exact hreports
  · exact fun hreports => ⟨_, hfound, hreports⟩

/-- A workflow with some steps. -/
def ofSteps (steps : List WorkflowStep) : Workflow where
  id := "wf-1"
  name := "deploy"
  steps := steps
  status := .pending
  currentStep := 0
  createdAt := 0
  finishedAt := none
  error := none

/-- A step that has not been sent. -/
def newStep (name method : String) (onFailure : FailureAction) : WorkflowStep where
  name := name
  url := "http://ops/" ++ name
  method := method
  body := none
  onFailure := onFailure
  status := .pending
  responseStatus := none

/-- A build that is retried, a notification that may fail, and a release. -/
def deploy : Workflow :=
  ofSteps [newStep "build" "post" (.retry 2), newStep "notify" "GET" .skip,
    newStep "release" "PUT" .stop]

/-- The build succeeds in its second retry. -/
def flakyBuild : StepOutcomes where
  outcome i k :=
    match i, k with
    | 0, 0 => .ok 503
    | 0, 1 => .error "operation timed out"
    | _, _ => .ok 200
  reason _ := "Service Unavailable"
  now := 9

/-- The first attempt of the build is refused. -/
def refusedBuild : StepOutcomes where
  outcome i k :=
    match i, k with
    | 0, 0 => .error "connection refused"
    | _, _ => .ok 200
  reason _ := "OK"
  now := 9

/-- The execution with a flaky build reports what has happened. -/
theorem executeReports_deploy :
    ∃ wf', (execute [deploy] flakyBuild "wf-1").2.1.find? (·.id = "wf-1") = some wf' ∧
      deploy.Reports (execute [deploy] flakyBuild "wf-1").1 wf'
        (execute [deploy] flakyBuild "wf-1").2.2 := by
  have hpasses : ∀ i step, deploy.steps[i]? = some step → flakyBuild.Passes i step :=
    forall_mem_zipIdx.mp (by decide)
  have hresponse : ∀ i (step : WorkflowStep), deploy.steps[i]? = some step →
      ∃ status, flakyBuild.outcome i 0 = .ok status := by
    intro i _ _
    cases i <;> exact ⟨_, rfl⟩
  exact (executeReports_iff rfl).mpr ⟨fun _ i step hi hskips => hskips.1 (hpasses i step hi),
    fun _ => rfl, fun i step hreaches _ _ _ => hresponse i step hreaches.1⟩

/-- An execution in which a step that is to be retried has one attempt, which gets no response. -/
theorem executeReports_fails :
    ¬ ∀ (engine : WorkflowEngine) http workflowId wf,
      engine.find? (·.id = workflowId) = some wf →
      ∃ wf', (engine.execute http workflowId).2.1.find? (·.id = workflowId) = some wf' ∧
        wf.Reports (engine.execute http workflowId).1 wf'
          (engine.execute http workflowId).2.2 := by
  intro h
  obtain ⟨wf', -, hreports⟩ := h [deploy] refusedBuild "wf-1" deploy rfl
  have hattempts : attemptsAt (execute [deploy] refusedBuild "wf-1").2.2 0 =
      [refusedBuild.attempt 0 0 (newStep "build" "post" (.retry 2))] := rfl
  have hretry := hreports.retry 0 _ 2 rfl rfl (by decide) (by simp [hattempts])
  rw [hattempts] at hretry
  cases hretry with
  | success _ h => cases h
  | failure _ hrest => cases hrest

end WorkflowEngine

end XiraNet

import XiraNet.Automation.CronRuns

/-!
# Executions of cron jobs

What `tick` of `automation/cron.rs` keeps apart: the ids in flight are added under the lock of the
list, and taken out by the tasks without it, while the list loses and gets jobs.

* `CronSystem.exclusive_of_runs`: at most one execution of a job is in progress.
* `CronSystem.orderly_of_runs`: what starts an execution, and how the executions are counted.
* `CronSystem.orderly_fails`: a counter that has reached the end of its type does not count.
-/

namespace XiraNet

namespace CronSystem

/-- The ids of the tasks that have not ended. -/
def runningIds (tasks : List CronTask) : List String :=
  (tasks.filter fun task => !task.stage.isDone).map CronTask.id

/-- The ids of the executions in progress. -/
def running (s : CronSystem) : List String := runningIds s.sched.tasks

/-- Executions are started for jobs that are enabled and due only, and each one that is recorded is
counted once in its job, where `count` gives the next value of a counter. -/
structure Orderly (count : ℕ → ℕ) (s : CronSystem) (a : CronSystemAction) (t : CronSystem) :
    Prop where
  starts : ∃ kept started, t.running = kept ++ started ∧ kept.Sublist s.running ∧
    ∀ id ∈ started, ∃ now, a = .tick now ∧
      ∃ job ∈ s.sched.jobs, job.id = id ∧ job.enabled = true ∧ job.nextRun ≤ now
  keeps : ∀ job ∈ s.sched.jobs, (s.recordedOutcome a job.id).isSome →
    job.id ∈ CronJob.ids t.sched.jobs
  counts : a ≠ .restart → ∀ job ∈ s.sched.jobs, ∀ job' ∈ t.sched.jobs, job'.id = job.id →
    match s.recordedOutcome a job.id with
    | some outcome => job'.runCount = count job.runCount ∧
        job'.failureCount = if outcome.isSuccess then job.failureCount else count job.failureCount
    | none => job'.runCount = job.runCount ∧ job'.failureCount = job.failureCount

/-- At most one execution of a job is in progress, and that of a job in the list is in flight. -/
structure Exclusive (s : CronSystem) : Prop extends s.Keyed where
  running : s.running.Nodup
  inFlight : ∀ id ∈ s.running, id ∈ CronJob.ids s.sched.jobs → id ∈ s.sched.inFlight

variable {urlLib : UrlLib} {lib : ScheduleLib} {s t : CronSystem} {a : CronSystemAction}

/-- The executions in progress of two lists of tasks. -/
theorem runningIds_append (tasks tasks' : List CronTask) :
    runningIds (tasks ++ tasks') = runningIds tasks ++ runningIds tasks' := by
  simp [runningIds]

/-- A task in front that has not ended. -/
theorem runningIds_cons_of_running {task : CronTask} (h : task.stage.isDone = false)
    (tasks : List CronTask) : runningIds (task :: tasks) = task.id :: runningIds tasks := by
  simp [runningIds, h]

/-- A task in front that has ended. -/
theorem runningIds_cons_of_done {task : CronTask} (h : task.stage.isDone = true)
    (tasks : List CronTask) : runningIds (task :: tasks) = runningIds tasks := by
  simp [runningIds, h]

/-- An execution in progress is a task. -/
theorem mem_tasks_of_mem_running {id : String} (h : id ∈ s.running) :
    id ∈ s.sched.tasks.map CronTask.id :=
  (List.filter_sublist.map CronTask.id).mem h

/-- The executions that a tick adds are those of the jobs that are due. -/
theorem running_ticked (s : CronSystem) (now : ℕ) :
    running { s with sched := s.sched.ticked now } =
      s.running ++ (s.sched.dueJobs now).map CronJob.id := by
  have hstarted : ∀ jobs : List CronJob,
      runningIds (jobs.map (CronJob.task now)) = jobs.map CronJob.id := by
    intro jobs
    induction jobs with
    | nil => rfl
    | cons job jobs ih => rw [List.map_cons, runningIds_cons_of_running rfl, ih]; rfl
  rw [running, CronState.ticked, runningIds_append, hstarted]
  rfl

/-- A step of a task starts nothing, and what it does not end stays in flight. -/
theorem TaskStep.running {i : ℕ} {task : CronTask} {a : CronTaskAction}
    (htask : s.sched.tasks[i]? = some task) (h : s.TaskStep i task a t) :
    t.running.Sublist s.running ∧
      (s.running.Nodup → ∀ id ∈ t.running, id ∈ s.sched.inFlight → id ∈ t.sched.inFlight) := by
  obtain ⟨before, after, hsplit, herase, hset⟩ := exists_split_of_getElem? htask
  cases h with
  | @moves _ sched stage hrunning hstage hjobs hinFlight htasks =>
      have hsame : running { s with sched } = s.running := by
        rw [CronSystem.running, CronSystem.running, htasks, hset, hsplit, runningIds_append,
          runningIds_append, runningIds_cons_of_running hrunning, runningIds_cons_of_running hstage]
      rw [hsame, hinFlight]
      exact ⟨List.Sublist.refl _, fun _ _ _ h => h⟩
  | @ends _ sched outcome hrunning hjobs hinFlight htasks =>
      have hbefore : s.running = runningIds before ++ task.id :: runningIds after := by
        rw [CronSystem.running, hsplit, runningIds_append, runningIds_cons_of_running hrunning]
      have hafter : running { s with sched } = runningIds before ++ runningIds after := by
        rw [CronSystem.running, htasks, hset, runningIds_append, runningIds_cons_of_done rfl]
      rw [hbefore, hafter, hinFlight]
      refine ⟨List.Sublist.append (List.Sublist.refl _) (List.sublist_cons_self _ _),
        fun hnodup id hid hflight => ?_⟩
      -- The one execution of the job was the one that has ended.
      rw [List.nodup_middle, List.nodup_cons] at hnodup
      refine (List.mem_erase_of_ne ?_).mpr hflight
      rintro rfl
      exact hnodup.1 hid
  | @records sched outcome hdone hjobs hinFlight htasks =>
      have hsame : runningIds sched.tasks = s.running := by
        rw [htasks, herase, CronSystem.running, hsplit, runningIds_append, runningIds_append,
          runningIds_cons_of_done (by rw [hdone]; rfl)]
      refine ⟨?_, fun _ id _ hflight => hinFlight ▸ hflight⟩
      exact hsame ▸ List.Sublist.refl _

/-- Nothing is in progress at the start. -/
theorem exclusive_initial : Exclusive initial where
  toKeyed := keyed_initial
  running := List.nodup_nil
  inFlight _ h := nomatch h

/-- Every section keeps executions apart. -/
theorem Exclusive.step (hs : s.Exclusive) (h : s.step urlLib lib a = some t) : t.Exclusive := by
  have hkeyed := hs.toKeyed.step h
  cases a with
  | persistNew now id name schedule url method =>
      obtain ⟨-, h⟩ := Option.ite_none_left_eq_some.mp h
      cases h
      exact { hs with toKeyed := hkeyed }
  | push i =>
      obtain ⟨job, hjob, rfl⟩ := Option.map_eq_some_iff.mp h
      refine { hs with toKeyed := hkeyed, inFlight := fun id hid hmem => ?_ }
      rw [CronJob.ids, List.map_append, List.mem_append] at hmem
      rcases hmem with hmem | hmem
      · exact hs.inFlight id hid hmem
      · -- No task is one of the job that is pushed.
        obtain rfl := List.mem_singleton.mp hmem
        have hfresh := hs.fresh job.id (List.mem_map_of_mem (List.mem_of_getElem? hjob))
        exact absurd (mem_tasks_of_mem_running hid) hfresh.2.2
  | delete id =>
      cases h
      exact { hs with toKeyed := hkeyed }
  | retain id =>
      obtain ⟨-, h⟩ := Option.ite_none_right_eq_some.mp h
      cases h
      refine { hs with toKeyed := hkeyed, inFlight := fun id' hid' hmem => ?_ }
      obtain ⟨job, hjob, rfl⟩ := List.mem_map.mp hmem
      obtain ⟨hjob, hne⟩ := List.mem_filter.mp hjob
      exact (List.mem_erase_of_ne (by simpa using hne)).mpr
        (hs.inFlight job.id hid' (List.mem_map_of_mem hjob))
  | tick now =>
      rw [step_tick hs.jobs now] at h
      cases h
      refine { hkeyed with running := ?_, inFlight := fun id hid hmem => ?_ }
      · rw [running_ticked, List.nodup_append]
        refine ⟨hs.running, hs.jobs.sublist (List.filter_sublist.map CronJob.id), ?_⟩
        -- A job that is due is not in flight, so it is not in progress.
        rintro id hid _ hdue rfl
        obtain ⟨job, hjob, rfl⟩ := List.mem_map.mp hdue
        obtain ⟨hjob, hdue⟩ := List.mem_filter.mp hjob
        exact (of_decide_eq_true hdue).2.2 (hs.inFlight job.id hid (List.mem_map_of_mem hjob))
      · rw [running_ticked, List.mem_append] at hid
        refine List.mem_append.mpr (hid.symm.imp List.mem_reverse.mpr fun hid => ?_)
        refine hs.inFlight id hid ?_
        rwa [← ids_advanced s.sched.jobs now s.sched.inFlight]
  | task i a =>
      obtain ⟨task, htask, hstep⟩ := exists_taskStep hs.jobs h
      obtain ⟨hsublist, hflight⟩ := hstep.running htask
      exact { hkeyed with
        running := hs.running.sublist hsublist
        inFlight := fun id hid hmem => hflight hs.running id hid
          (hs.inFlight id (hsublist.mem hid) (hstep.ids_jobs ▸ hmem)) }
  | persist i =>
      obtain ⟨job, hjob, rfl⟩ := Option.map_eq_some_iff.mp h
      exact { hs with toKeyed := hkeyed }
  | restart =>
      cases h
      exact { hkeyed with
        running := List.nodup_nil
        inFlight := fun id h => absurd h List.not_mem_nil }

/-- Executions are kept apart in every run. -/
theorem exclusive_of_runs {as : List CronSystemAction}
    (hrun : (machine urlLib lib).Runs Machine.unrestricted initial as s) : s.Exclusive :=
  hrun.invariant (fun _ _ _ hs _ h => hs.step h) exclusive_initial

/-- A section that is no tick starts nothing. -/
theorem running_sublist (hs : s.Exclusive) (h : s.step urlLib lib a = some t)
    (ha : ∀ now, a ≠ .tick now) : t.running.Sublist s.running := by
  cases a with
  | persistNew now id name schedule url method =>
      obtain ⟨-, h⟩ := Option.ite_none_left_eq_some.mp h
      cases h
      exact List.Sublist.refl _
  | push i | persist i =>
      obtain ⟨job, -, rfl⟩ := Option.map_eq_some_iff.mp h
      exact List.Sublist.refl _
  | delete id =>
      cases h
      exact List.Sublist.refl _
  | retain id =>
      obtain ⟨-, h⟩ := Option.ite_none_right_eq_some.mp h
      cases h
      exact List.Sublist.refl _
  | tick now => exact absurd rfl (ha now)
  | task i a =>
      obtain ⟨task, htask, hstep⟩ := exists_taskStep hs.jobs h
      exact (hstep.running htask).1
  | restart =>
      cases h
      exact List.nil_sublist _

/-- What a task records in the jobs of the list. -/
theorem TaskStep.counts (hnodup : (CronJob.ids s.sched.jobs).Nodup) {i : ℕ} {task : CronTask}
    {a : CronTaskAction} (htask : s.sched.tasks[i]? = some task) (h : s.TaskStep i task a t)
    {job job' : CronJob} (hjob : job ∈ s.sched.jobs) (hjob' : job' ∈ t.sched.jobs)
    (hid : job'.id = job.id) :
    match s.recordedOutcome (.task i a) job.id with
    | some outcome => job'.runCount = saturatingAddU64 job.runCount 1 ∧
        job'.failureCount = if outcome.isSuccess then job.failureCount
          else saturatingAddU64 job.failureCount 1
    | none => job'.runCount = job.runCount ∧ job'.failureCount = job.failureCount := by
  cases h with
  | @moves _ sched stage hrunning hstage hjobs hinFlight htasks =>
      rw [recordedOutcome_of_running htask hrunning, eq_of_id_eq hnodup hjob (hjobs ▸ hjob') hid]
      exact ⟨rfl, rfl⟩
  | @ends _ sched outcome hrunning hjobs hinFlight htasks =>
      rw [recordedOutcome_of_running htask hrunning, eq_of_id_eq hnodup hjob (hjobs ▸ hjob') hid]
      exact ⟨rfl, rfl⟩
  | @records sched outcome hdone hjobs hinFlight htasks =>
      -- The job is one of the list before, with the outcome recorded if it is its own.
      change job' ∈ sched.jobs at hjob'
      rw [hjobs] at hjob'
      obtain ⟨job₀, hjob₀, rfl⟩ := List.mem_map.mp hjob'
      have hsame : job₀.id = job.id := by
        rw [← hid]
        split
        · exact (id_record _ _ _).symm
        · rfl
      obtain rfl := eq_of_id_eq hnodup hjob hjob₀ hsame
      rw [recordedOutcome_eq htask hdone]
      by_cases htaskId : job₀.id = task.id
      · rw [if_pos htaskId, if_pos htaskId.symm]
        exact counts_record job₀ task.now outcome
      · rw [if_neg htaskId, if_neg (Ne.symm htaskId)]
        exact ⟨rfl, rfl⟩

/-- A section of no task leaves the counters of the jobs of the list. -/
theorem Keyed.counters_eq (hs : s.Keyed) (h : s.step urlLib lib a = some t) (ha : a ≠ .restart)
    (htask : ∀ i a', a ≠ .task i a') {job job' : CronJob} (hjob : job ∈ s.sched.jobs)
    (hjob' : job' ∈ t.sched.jobs) (hid : job'.id = job.id) :
    job'.runCount = job.runCount ∧ job'.failureCount = job.failureCount := by
  have hunchanged : job' ∈ s.sched.jobs →
      job'.runCount = job.runCount ∧ job'.failureCount = job.failureCount := by
    intro hmem
    rw [eq_of_id_eq hs.jobs hjob hmem hid]
    exact ⟨rfl, rfl⟩
  cases a with
  | persistNew now id name schedule url method =>
      obtain ⟨-, h⟩ := Option.ite_none_left_eq_some.mp h
      cases h
      exact hunchanged hjob'
  | push i =>
      -- The job that is pushed has an id of its own.
      have hkeyed := hs.step h
      obtain ⟨new, -, rfl⟩ := Option.map_eq_some_iff.mp h
      obtain rfl := eq_of_id_eq hkeyed.jobs (List.mem_append_left _ hjob) hjob' hid
      exact ⟨rfl, rfl⟩
  | persist i =>
      obtain ⟨snap, -, rfl⟩ := Option.map_eq_some_iff.mp h
      exact hunchanged hjob'
  | delete id =>
      cases h
      exact hunchanged hjob'
  | retain id =>
      obtain ⟨-, h⟩ := Option.ite_none_right_eq_some.mp h
      cases h
      exact hunchanged (List.mem_of_mem_filter hjob')
  | tick now =>
      -- Only next runs are set.
      rw [step_tick hs.jobs now] at h
      cases h
      obtain ⟨job₀, hjob₀, rfl⟩ := List.mem_map.mp hjob'
      have hsame : job₀.id = job.id := by
        rw [← hid]
        split <;> rfl
      obtain rfl := eq_of_id_eq hs.jobs hjob hjob₀ hsame
      by_cases hdue : job₀.Due now s.sched.inFlight
      · rw [if_pos hdue]
        exact ⟨rfl, rfl⟩
      · rw [if_neg hdue]
        exact ⟨rfl, rfl⟩
  | task i a => exact absurd rfl (htask i a)
  | restart => exact absurd rfl ha

/-- Every section is orderly, with counters that stay at the end of their type. -/
theorem Exclusive.orderly (hs : s.Exclusive) (h : s.step urlLib lib a = some t) :
    Orderly (saturatingAddU64 · 1) s a t := by
  constructor
  · by_cases htick : ∃ now, a = .tick now
    · obtain ⟨now, rfl⟩ := htick
      rw [step_tick hs.jobs now] at h
      cases h
      refine ⟨s.running, (s.sched.dueJobs now).map CronJob.id, running_ticked s now,
        List.Sublist.refl _, fun id hid => ⟨now, rfl, ?_⟩⟩
      obtain ⟨job, hjob, rfl⟩ := List.mem_map.mp hid
      obtain ⟨hjob, hdue⟩ := List.mem_filter.mp hjob
      obtain ⟨henabled, hnext, -⟩ := of_decide_eq_true hdue
      exact ⟨job, hjob, rfl, henabled, hnext⟩
    · refine ⟨t.running, [], (List.append_nil _).symm, ?_, fun _ h => nomatch h⟩
      exact running_sublist hs h fun now ha => htick ⟨now, ha⟩
  · intro job hjob hrecorded
    cases a with
    | task i a =>
        obtain ⟨task, -, hstep⟩ := exists_taskStep hs.jobs h
        rw [hstep.ids_jobs]
        exact List.mem_map_of_mem hjob
    | persistNew | push | delete | retain | tick | persist | restart => cases hrecorded
  · intro hrestart job hjob job' hjob' hid
    have hcounters := fun htask => hs.toKeyed.counters_eq h hrestart htask hjob hjob' hid
    cases a with
    | task i a =>
        obtain ⟨task, htask, hstep⟩ := exists_taskStep hs.jobs h
        exact hstep.counts hs.jobs htask hjob hjob' hid
    | persistNew | push | delete | retain | tick | persist | restart => exact hcounters nofun

/-- In every run, at most one execution of a job is in progress, only jobs that are enabled and due
are started, and each execution of a job in the list is counted once, up to the end of the
counters. -/
theorem orderly_of_runs {as : List CronSystemAction}
    (hrun : (machine urlLib lib).Runs Machine.unrestricted initial as s) :
    s.running.Nodup ∧ ∀ a t, s.step urlLib lib a = some t →
      Orderly (saturatingAddU64 · 1) s a t := by
  have hs := exclusive_of_runs hrun
  exact ⟨hs.running, fun a t h => hs.orderly h⟩

/-- A job is added whose interval wraps to nothing. -/
def addFailing : List CronSystemAction :=
  [.persistNew 100 "j1" "job" (.everyMinutes (2 ^ 62)) "" "GET", .push 0]

/-- A run of the job, up to its outcome: its URL is not one. -/
def failingRun : List CronSystemAction :=
  [.tick 100, .task 0 (.check 100), .task 0 (.finish 100 publicResolver)]

/-- The outcome is recorded and persisted. -/
def recordFirst : List CronSystemAction := [.task 0 .collect, .persist 0]

/-- The first run of the job is counted. -/
theorem orderly_first :
    ∃ s t, (machine .plain .plain).Runs Machine.unrestricted initial (addFailing ++ failingRun) s ∧
      s.step .plain .plain (.task 0 .collect) = some t ∧
        Orderly (saturatingAddU64 · 1) s (.task 0 .collect) t := by
  have hrun : (machine .plain .plain).Runs Machine.unrestricted initial
      (addFailing ++ failingRun) _ := Machine.runs_of_exec rfl
  exact ⟨_, _, hrun, rfl, (orderly_of_runs hrun).2 _ _ rfl⟩

/-- The job after a number of runs. -/
def failingJob (runs : ℕ) : CronJob :=
  ⟨"j1", "job", .everyMinutes (2 ^ 62), "", "GET", true, 100, 100, runs, none, runs⟩

/-- The scheduler with this job. -/
def failing (runs : ℕ) : CronSystem :=
  { initial with
    sched := .initial [failingJob runs]
    table := CronTable.persistJob .plain [] (failingJob runs)
    known := ["j1"] }

/-- A run of the job is counted. -/
theorem runs_failing (runs : ℕ) :
    (machine .plain .plain).Runs Machine.unrestricted (failing runs) (failingRun ++ recordFirst)
      (failing (saturatingAddU64 runs 1)) :=
  Machine.runs_of_exec rfl

/-- Any number of runs is reached, up to the end of the counter. -/
theorem exists_runs_failing (runs : ℕ) (hruns : runs + 1 < 2 ^ 64) :
    ∃ as, (machine .plain .plain).Runs Machine.unrestricted initial as (failing (runs + 1)) := by
  induction runs with
  | zero =>
      have hfirst : (machine .plain .plain).Runs Machine.unrestricted initial
          (addFailing ++ (failingRun ++ recordFirst)) (failing 1) := Machine.runs_of_exec rfl
      exact ⟨_, hfirst⟩
  | succ runs ih =>
      obtain ⟨as, hrun⟩ := ih (by omega)
      have hnext : saturatingAddU64 (runs + 1) 1 = runs + 1 + 1 := Nat.min_eq_left (by omega)
      exact ⟨_, hnext ▸ hrun.append (runs_failing (runs + 1))⟩

/-- After 2^64 - 1 runs, the next one is not counted. -/
theorem orderly_fails :
    ¬∀ (urlLib : UrlLib) (lib : ScheduleLib) (as : List CronSystemAction) (s : CronSystem),
      (machine urlLib lib).Runs Machine.unrestricted initial as s →
        s.running.Nodup ∧ ∀ a t, s.step urlLib lib a = some t → Orderly (· + 1) s a t := by
  intro hall
  obtain ⟨as, hreach⟩ := exists_runs_failing (2 ^ 64 - 2) (by decide)
  have hrun : (machine .plain .plain).Runs Machine.unrestricted (failing (2 ^ 64 - 2 + 1))
      failingRun _ := Machine.runs_of_exec rfl
  have horderly := (hall .plain .plain _ _ (hreach.append hrun)).2 (.task 0 .collect) _ rfl
  have hcounts := horderly.counts nofun (failingJob (2 ^ 64 - 2 + 1)) List.mem_cons_self _
    List.mem_cons_self rfl
  exact absurd hcounts.1 (by decide)

end CronSystem

end XiraNet

import XiraNet.Automation.CronStorage
import XiraNet.Lib.KeyedList

/-!
# Runs of the scheduler with its table

The sections of `tick`, `add_job` and `remove_job` of `automation/cron.rs` that are atomic, in every
order: the list of jobs is changed under its lock, and the table by statements of its own before or
after that. A restart loads the table, and what was running is gone.

* `collectDue_eq`: the jobs that a tick starts.
* `keyed_of_runs`: an id stands for one job, and for one that is still running at most.
-/

namespace XiraNet

namespace CronJob

/-- The job is enabled, its next run has been reached, and it is not in flight. -/
def Due (now : ℕ) (inFlight : List String) (job : CronJob) : Prop :=
  job.enabled = true ∧ job.nextRun ≤ now ∧ job.id ∉ inFlight

instance (now : ℕ) (inFlight : List String) (job : CronJob) : Decidable (job.Due now inFlight) :=
  inferInstanceAs (Decidable (_ ∧ _))

/-- The job with its next run set. -/
def advanced (now : ℕ) (job : CronJob) : CronJob :=
  { job with nextRun := job.schedule.nextAfter now }

/-- The task of the job. -/
def task (now : ℕ) (job : CronJob) : CronTask := ⟨job.id, job.url, job.method, now, .spawned⟩

/-- The ids of jobs. -/
def ids (jobs : List CronJob) : List String := jobs.map CronJob.id

end CronJob

/-- A status of success. -/
def CronOutcome.isSuccess : CronOutcome → Bool
  | .ok status => 200 ≤ status.val && status.val < 300
  | .error _ => false

/-- A recorded outcome is counted. -/
theorem counts_record (job : CronJob) (now : ℕ) (outcome : CronOutcome) :
    (job.record now outcome).runCount = saturatingAddU64 job.runCount 1 ∧
      (job.record now outcome).failureCount =
        if outcome.isSuccess then job.failureCount else saturatingAddU64 job.failureCount 1 := by
  cases outcome with
  | error e => exact ⟨rfl, rfl⟩
  | ok status =>
      simp only [CronJob.record, CronOutcome.isSuccess, Bool.and_eq_true, decide_eq_true_eq]
      split <;> exact ⟨rfl, rfl⟩

/-- The start of a tick goes over the jobs that are due at its start. -/
theorem collectDue_eq {now : ℕ} {jobs : List CronJob} {inFlight : List String}
    (hnodup : (CronJob.ids jobs).Nodup) :
    collectDue now jobs inFlight =
      (jobs.map fun job => if job.Due now inFlight then job.advanced now else job,
        ((jobs.filter fun job => job.Due now inFlight).map CronJob.id).reverse ++ inFlight,
        (jobs.filter fun job => job.Due now inFlight).map (CronJob.task now)) := by
  induction jobs generalizing inFlight with
  | nil => rfl
  | cons job jobs ih =>
      obtain ⟨hfirst, hrest⟩ := List.nodup_cons.mp hnodup
      have hskip : (job.enabled = false ∨ now < job.nextRun ∨ job.id ∈ inFlight) ↔
          ¬job.Due now inFlight := by
        simp only [CronJob.Due, not_and_or, Bool.not_eq_true, not_le, not_not]
      rw [collectDue, ih hrest, ih hrest]
      by_cases hdue : job.Due now inFlight
      · have hcons : ((job :: jobs).filter fun job' => job'.Due now inFlight) =
            job :: jobs.filter fun job' => job'.Due now inFlight :=
          List.filter_cons_of_pos (by simpa using hdue)
        rw [if_neg fun h => hskip.mp h hdue, hcons, List.map_cons, if_pos hdue]
        -- The other jobs have other ids.
        have hsame : ∀ job' ∈ jobs, job'.Due now (job.id :: inFlight) ↔ job'.Due now inFlight := by
          intro job' hjob'
          have hne : job'.id ≠ job.id := fun heq => hfirst (List.mem_map.mpr ⟨job', hjob', heq⟩)
          simp [CronJob.Due, hne]
        have hfilter : (jobs.filter fun job' => job'.Due now (job.id :: inFlight)) =
            jobs.filter fun job' => job'.Due now inFlight :=
          List.filter_congr fun job' hjob' => by simp [hsame job' hjob']
        have hmap : (jobs.map fun job' =>
              if job'.Due now (job.id :: inFlight) then job'.advanced now else job') =
            jobs.map fun job' => if job'.Due now inFlight then job'.advanced now else job' :=
          List.map_congr_left fun job' hjob' => by simp [hsame job' hjob']
        rw [hfilter, hmap]
        simp [CronJob.advanced, CronJob.task]
      · have hcons : ((job :: jobs).filter fun job' => job'.Due now inFlight) =
            jobs.filter fun job' => job'.Due now inFlight :=
          List.filter_cons_of_neg (by simpa using hdue)
        rw [if_pos (hskip.mpr hdue), hcons, List.map_cons, if_neg hdue]

namespace CronStage

/-- The task has ended. -/
def isDone : CronStage → Bool
  | .done _ => true
  | _ => false

end CronStage

namespace CronState

/-- The jobs that a tick starts. -/
def dueJobs (s : CronState) (now : ℕ) : List CronJob :=
  s.jobs.filter fun job => job.Due now s.inFlight

/-- After a tick has started its jobs. -/
def ticked (s : CronState) (now : ℕ) : CronState :=
  { s with
    jobs := s.jobs.map fun job => if job.Due now s.inFlight then job.advanced now else job
    inFlight := ((s.dueJobs now).map CronJob.id).reverse ++ s.inFlight
    tasks := s.tasks ++ (s.dueJobs now).map (CronJob.task now) }

variable {urlLib : UrlLib} {s t : CronState} {i : ℕ} {task : CronTask} {a : CronTaskAction}

/-- What a step of a task does: the task moves on, it ends, or its outcome is recorded. -/
theorem stepTask_cases (h : s.stepTask urlLib i task a = some t) :
    (∃ stage, task.stage.isDone = false ∧ stage.isDone = false ∧ a ≠ .collect ∧
      t.jobs = s.jobs ∧ t.inFlight = s.inFlight ∧ t.tasks = s.tasks.set i { task with stage }) ∨
    (∃ outcome, task.stage.isDone = false ∧ a ≠ .collect ∧ t.jobs = s.jobs ∧
      t.inFlight = s.inFlight.erase task.id ∧
      t.tasks = s.tasks.set i { task with stage := .done outcome }) ∨
    (∃ outcome, task.stage = .done outcome ∧ a = .collect ∧
      t.jobs = (match s.jobs.findIdx? (·.id = task.id) with
        | some k => s.jobs.modify k fun job => job.record task.now outcome
        | none => s.jobs) ∧
      t.inFlight = s.inFlight ∧ t.tasks = s.tasks.eraseIdx i) := by
  unfold stepTask at h
  split at h
  case h_1 now hstage =>
    cases h
    refine .inl ⟨_, by rw [hstage]; rfl, ?_, nofun, rfl, rfl, rfl⟩
    cases s.pinCache.cached now task.url <;> rfl
  case h_2 now resolve hstage =>
    have hrunning : task.stage.isDone = false := by
      rw [hstage]
      rfl
    split at h
    · cases h
      exact .inl ⟨_, hrunning, rfl, nofun, rfl, rfl, rfl⟩
    · cases h
      exact .inr (.inl ⟨_, hrunning, nofun, rfl, rfl, rfl⟩)
  case h_3 p e hstage | h_4 p net response hstage =>
    have hrunning : task.stage.isDone = false := by
      rw [hstage]
      rfl
    cases h
    exact .inr (.inl ⟨_, hrunning, nofun, rfl, rfl, rfl⟩)
  case h_5 outcome hstage =>
    cases h
    exact .inr (.inr ⟨outcome, hstage, rfl, rfl, rfl, rfl⟩)
  case h_6 => cases h

end CronState

/-- The scheduler with its table, and the calls and ticks that are on their way. -/
structure CronSystem where
  sched : CronState
  table : Table CronRow
  /-- Jobs of `add_job` that are in the table, and not yet in the list. -/
  adding : List CronJob
  /-- Copies of jobs that `tick` has made under the lock, and not yet persisted. -/
  snapshots : List CronJob
  /-- Ids that `remove_job` has deleted from the table, and not yet from the list. -/
  removing : List String
  /-- Ids for which `remove_job` has returned. -/
  removed : List String
  /-- All ids so far. -/
  known : List String

/-- The sections. A call that is on its way is known by its place in the list of such calls. -/
inductive CronSystemAction
  | persistNew (now : ℕ) (id name : String) (schedule : CronSchedule) (url method : String)
  | push (i : ℕ)
  | delete (id : String)
  | retain (id : String)
  | tick (now : ℕ)
  | task (i : ℕ) (a : CronTaskAction)
  | persist (i : ℕ)
  | restart

namespace CronSystem

/-- The start, with an empty table. -/
def initial : CronSystem := ⟨.initial [], [], [], [], [], [], []⟩

variable (urlLib : UrlLib) (lib : ScheduleLib)

/-- One section. -/
def step (s : CronSystem) : CronSystemAction → Option CronSystem
  | .persistNew now id name schedule url method =>
      -- The id is a new UUID.
      if id ∈ s.known then none
      else
        let job := CronJob.new now id name schedule url method
        some { s with
          table := CronTable.persistJob lib s.table job
          adding := s.adding ++ [job]
          known := id :: s.known }
  | .push i =>
      s.adding[i]?.map fun job =>
        { s with
          sched := { s.sched with jobs := s.sched.jobs ++ [job] }
          adding := s.adding.eraseIdx i }
  | .delete id =>
      some { s with
        table := CronTable.deleteJob s.table id
        removing := id :: s.removing
        known := id :: s.known }
  | .retain id =>
      if id ∈ s.removing then
        (s.sched.step urlLib (.removeJob id)).map fun sched =>
          { s with sched, removing := s.removing.erase id, removed := id :: s.removed }
      else none
  | .tick now => (s.sched.step urlLib (.tick now)).map fun sched => { s with sched }
  | .task i a =>
      s.sched.tasks[i]?.bind fun task =>
        (s.sched.stepTask urlLib i task a).map fun sched =>
          match a with
          | .collect =>
              -- The job is copied under the lock.
              let snap := sched.jobs.find? (·.id = task.id)
              { s with sched, snapshots := s.snapshots ++ snap.toList }
          | _ => { s with sched }
  | .persist i =>
      s.snapshots[i]?.map fun job =>
        { s with
          table := CronTable.persistJob lib s.table job
          snapshots := s.snapshots.eraseIdx i }
  | .restart =>
      some { s with
        sched := .initial (CronTable.loadedJobs lib s.table)
        adding := []
        snapshots := []
        removing := [] }

/-- The outcome of an execution of this job that a section records. -/
def recordedOutcome (s : CronSystem) (a : CronSystemAction) (id : String) : Option CronOutcome :=
  match a with
  | .task i .collect =>
      s.sched.tasks[i]?.bind fun task =>
        match task.stage with
        | .done outcome => if task.id = id then some outcome else none
        | _ => none
  | _ => none

/-- Every interleaving of the sections. -/
def machine : Machine CronSystem CronSystemAction := ⟨step urlLib lib⟩

variable {urlLib lib} {s t : CronSystem}

/-- What a step of a task does to the system. -/
inductive TaskStep (s : CronSystem) (i : ℕ) (task : CronTask) : CronTaskAction → CronSystem → Prop
  | moves {a : CronTaskAction} {sched : CronState} {stage : CronStage}
      (hrunning : task.stage.isDone = false) (hstage : stage.isDone = false)
      (hjobs : sched.jobs = s.sched.jobs) (hinFlight : sched.inFlight = s.sched.inFlight)
      (htasks : sched.tasks = s.sched.tasks.set i { task with stage }) :
      TaskStep s i task a { s with sched }
  | ends {a : CronTaskAction} {sched : CronState} {outcome : CronOutcome}
      (hrunning : task.stage.isDone = false)
      (hjobs : sched.jobs = s.sched.jobs)
      (hinFlight : sched.inFlight = s.sched.inFlight.erase task.id)
      (htasks : sched.tasks = s.sched.tasks.set i { task with stage := .done outcome }) :
      TaskStep s i task a { s with sched }
  | records {sched : CronState} {outcome : CronOutcome} (hdone : task.stage = .done outcome)
      (hjobs : sched.jobs = s.sched.jobs.map fun job =>
        if job.id = task.id then job.record task.now outcome else job)
      (hinFlight : sched.inFlight = s.sched.inFlight)
      (htasks : sched.tasks = s.sched.tasks.eraseIdx i) :
      TaskStep s i task .collect
        { s with sched, snapshots := s.snapshots ++ (sched.jobs.find? (·.id = task.id)).toList }

/-- The outcome of a task that has ended is recorded in its job. -/
theorem recordedOutcome_eq {i : ℕ} {task : CronTask} {outcome : CronOutcome}
    (htask : s.sched.tasks[i]? = some task) (hdone : task.stage = .done outcome) (id : String) :
    s.recordedOutcome (.task i .collect) id = if task.id = id then some outcome else none := by
  rw [recordedOutcome, htask, Option.bind_some, hdone]

/-- Nothing is recorded of a task that has not ended. -/
theorem recordedOutcome_of_running {i : ℕ} {task : CronTask} (htask : s.sched.tasks[i]? = some task)
    (hrunning : task.stage.isDone = false) (a : CronTaskAction) (id : String) :
    s.recordedOutcome (.task i a) id = none := by
  cases a with
  | collect =>
      rw [recordedOutcome, htask, Option.bind_some]
      cases hstage : task.stage with
      | done outcome =>
          rw [hstage] at hrunning
          cases hrunning
      | spawned | resolving | pinned => rfl
  | check | finish | refuse | send => rfl

/-- A step of a task moves it on, ends it, or records its outcome. -/
theorem exists_taskStep (hnodup : (CronJob.ids s.sched.jobs).Nodup) {i : ℕ} {a : CronTaskAction}
    (h : s.step urlLib lib (.task i a) = some t) :
    ∃ task, s.sched.tasks[i]? = some task ∧ s.TaskStep i task a t := by
  obtain ⟨task, htask, h⟩ := Option.bind_eq_some_iff.mp h
  obtain ⟨sched, hsched, rfl⟩ := Option.map_eq_some_iff.mp h
  refine ⟨task, htask, ?_⟩
  obtain ⟨stage, hrunning, hstage, ha, hjobs, hinFlight, htasks⟩ |
    ⟨outcome, hrunning, ha, hjobs, hinFlight, htasks⟩ |
    ⟨outcome, hdone, rfl, hjobs, hinFlight, htasks⟩ := CronState.stepTask_cases hsched
  · have hmoves := TaskStep.moves (a := a) hrunning hstage hjobs hinFlight htasks
    cases a with
    | collect => exact absurd rfl ha
    | check | finish | refuse | send => exact hmoves
  · have hends := TaskStep.ends (a := a) hrunning hjobs hinFlight htasks
    cases a with
    | collect => exact absurd rfl ha
    | check | finish | refuse | send => exact hends
  · have hmap := KeyedList.modify_findIdx?_eq_map hnodup task.id fun job =>
      job.record task.now outcome
    exact .records hdone (hjobs.trans hmap) hinFlight htasks

/-- The jobs that are due are started by a tick. -/
theorem step_tick (hnodup : (CronJob.ids s.sched.jobs).Nodup) (now : ℕ) :
    s.step urlLib lib (.tick now) = some { s with sched := s.sched.ticked now } := by
  simp only [step, CronState.step, collectDue_eq hnodup, Option.map_some]
  rfl

/-- All ids are among the known ones. -/
structure Known (s : CronSystem) (known : List String) : Prop where
  jobs : ∀ id ∈ CronJob.ids s.sched.jobs, id ∈ known
  adding : ∀ id ∈ CronJob.ids s.adding, id ∈ known
  snapshots : ∀ id ∈ CronJob.ids s.snapshots, id ∈ known
  table : ∀ id ∈ CronTable.ids s.table, id ∈ known
  inFlight : ∀ id ∈ s.sched.inFlight, id ∈ known
  tasks : ∀ id ∈ s.sched.tasks.map CronTask.id, id ∈ known
  removing : ∀ id ∈ s.removing, id ∈ known
  removed : ∀ id ∈ s.removed, id ∈ known

/-- Ids are keys of the list and of the table, and a job that is being added is in neither the list
nor the tasks. -/
structure Keyed (s : CronSystem) : Prop where
  jobs : (CronJob.ids s.sched.jobs).Nodup
  table : (CronTable.ids s.table).Nodup
  adding : (CronJob.ids s.adding).Nodup
  fresh : ∀ id ∈ CronJob.ids s.adding, id ∉ CronJob.ids s.sched.jobs ∧ id ∉ s.sched.inFlight ∧
    id ∉ s.sched.tasks.map CronTask.id
  known : s.Known s.known

/-- More ids may be known. -/
theorem Known.mono {known known' : List String} (h : s.Known known)
    (hsubset : ∀ id ∈ known, id ∈ known') : s.Known known' where
  jobs id hid := hsubset id (h.jobs id hid)
  adding id hid := hsubset id (h.adding id hid)
  snapshots id hid := hsubset id (h.snapshots id hid)
  table id hid := hsubset id (h.table id hid)
  inFlight id hid := hsubset id (h.inFlight id hid)
  tasks id hid := hsubset id (h.tasks id hid)
  removing id hid := hsubset id (h.removing id hid)
  removed id hid := hsubset id (h.removed id hid)

/-- Where ids are keys, an id stands for one job. -/
theorem eq_of_id_eq {jobs : List CronJob} (hnodup : (CronJob.ids jobs).Nodup) {job job' : CronJob}
    (hjob : job ∈ jobs) (hjob' : job' ∈ jobs) (hid : job'.id = job.id) : job' = job :=
  List.inj_on_of_nodup_map hnodup hjob' hjob hid

/-- A change of jobs keeps their ids. -/
theorem ids_map {jobs : List CronJob} {f : CronJob → CronJob} (hf : ∀ job, (f job).id = job.id) :
    CronJob.ids (jobs.map f) = CronJob.ids jobs := by
  simp [CronJob.ids, hf]

/-- A recorded outcome keeps the id. -/
theorem id_record (job : CronJob) (now : ℕ) (outcome : CronOutcome) :
    (job.record now outcome).id = job.id := by
  unfold CronJob.record
  cases outcome with
  | error e => rfl
  | ok status =>
      dsimp only
      split <;> rfl

/-- Outcomes are recorded without a change of ids. -/
theorem ids_records (jobs : List CronJob) (task : CronTask) (outcome : CronOutcome) :
    CronJob.ids (jobs.map fun job =>
      if job.id = task.id then job.record task.now outcome else job) = CronJob.ids jobs := by
  refine ids_map fun job => ?_
  split
  · exact id_record job task.now outcome
  · rfl

/-- Next runs are set without a change of ids. -/
theorem ids_advanced (jobs : List CronJob) (now : ℕ) (inFlight : List String) :
    CronJob.ids (jobs.map fun job => if job.Due now inFlight then job.advanced now else job) =
      CronJob.ids jobs := by
  refine ids_map fun job => ?_
  split <;> rfl

/-- A step of a task keeps the ids of the jobs. -/
theorem TaskStep.ids_jobs {i : ℕ} {task : CronTask} {a : CronTaskAction}
    (h : s.TaskStep i task a t) : CronJob.ids t.sched.jobs = CronJob.ids s.sched.jobs := by
  cases h with
  | moves hrunning hstage hjobs hinFlight htasks => exact congrArg CronJob.ids hjobs
  | ends hrunning hjobs hinFlight htasks => exact congrArg CronJob.ids hjobs
  | @records sched outcome hdone hjobs hinFlight htasks =>
      exact (congrArg CronJob.ids hjobs).trans (ids_records _ _ _)

/-- A step of a task leaves the table and the other calls as they are. -/
theorem TaskStep.frame {i : ℕ} {task : CronTask} {a : CronTaskAction}
    (h : s.TaskStep i task a t) :
    t.table = s.table ∧ t.adding = s.adding ∧ t.removing = s.removing ∧ t.removed = s.removed := by
  cases h <;> exact ⟨rfl, rfl, rfl, rfl⟩

/-- A place of a list, and what is before and after it. -/
theorem exists_split_of_getElem? {α : Type} {l : List α} {i : ℕ} {x : α} (h : l[i]? = some x) :
    ∃ before after, l = before ++ x :: after ∧ l.eraseIdx i = before ++ after ∧
      ∀ y, l.set i y = before ++ y :: after := by
  obtain ⟨hi, rfl⟩ := List.getElem?_eq_some_iff.mp h
  refine ⟨l.take i, l.drop (i + 1), ?_, List.eraseIdx_eq_take_drop_succ _ _, fun y => ?_⟩
  · rw [← List.drop_eq_getElem_cons hi, List.take_append_drop]
  · rw [List.set_eq_take_append_cons_drop, if_pos hi]

/-- A task that moves on keeps its id. -/
theorem map_id_set {tasks : List CronTask} {i : ℕ} {task : CronTask}
    (htask : tasks[i]? = some task) (stage : CronStage) :
    (tasks.set i { task with stage }).map CronTask.id = tasks.map CronTask.id := by
  obtain ⟨before, after, hsplit, -, hset⟩ := exists_split_of_getElem? htask
  rw [hset, hsplit, List.map_append, List.map_append, List.map_cons, List.map_cons]

/-- The start is keyed. -/
theorem keyed_initial : Keyed initial := by
  constructor <;> simp [initial, CronState.initial, CronJob.ids, CronTable.ids]
  constructor <;> simp [CronJob.ids, CronTable.ids]

/-- Ids stay keys where no jobs are added, and nothing is started. -/
theorem Keyed.withSched (hs : s.Keyed) {sched : CronState} {snapshots : List CronJob}
    (hjobs : (CronJob.ids sched.jobs).Sublist (CronJob.ids s.sched.jobs))
    (hinFlight : ∀ id ∈ sched.inFlight, id ∈ s.sched.inFlight)
    (htasks : ∀ id ∈ sched.tasks.map CronTask.id, id ∈ s.sched.tasks.map CronTask.id)
    (hsnapshots : ∀ id ∈ CronJob.ids snapshots, id ∈ s.known) :
    Keyed { s with sched, snapshots } where
  jobs := hs.jobs.sublist hjobs
  table := hs.table
  adding := hs.adding
  fresh id hid := by
    obtain ⟨hjob, hflight, htask⟩ := hs.fresh id hid
    exact ⟨fun h => hjob (hjobs.mem h), fun h => hflight (hinFlight id h),
      fun h => htask (htasks id h)⟩
  known := { hs.known with
    jobs := fun id hid => hs.known.jobs id (hjobs.mem hid)
    snapshots := hsnapshots
    inFlight := fun id hid => hs.known.inFlight id (hinFlight id hid)
    tasks := fun id hid => hs.known.tasks id (htasks id hid) }

/-- A step of a task keeps ids as keys. -/
theorem Keyed.taskStep (hs : s.Keyed) {i : ℕ} {task : CronTask} {a : CronTaskAction}
    (htask : s.sched.tasks[i]? = some task) (h : s.TaskStep i task a t) : t.Keyed := by
  cases h with
  | moves hrunning hstage hjobs hinFlight htasks =>
      refine hs.withSched (hjobs ▸ List.Sublist.refl _) (fun id hid => hinFlight ▸ hid)
        (fun id hid => ?_) hs.known.snapshots
      rwa [htasks, map_id_set htask] at hid
  | ends hrunning hjobs hinFlight htasks =>
      refine hs.withSched (hjobs ▸ List.Sublist.refl _) (fun id hid => ?_) (fun id hid => ?_)
        hs.known.snapshots
      · rw [hinFlight] at hid
        exact List.mem_of_mem_erase hid
      · rwa [htasks, map_id_set htask] at hid
  | @records sched outcome hdone hjobs hinFlight htasks =>
      have hids : CronJob.ids sched.jobs = CronJob.ids s.sched.jobs := hjobs ▸ ids_records _ _ _
      refine hs.withSched (hids ▸ List.Sublist.refl _) (fun id hid => hinFlight ▸ hid)
        (fun id hid => ?_) fun id hid => ?_
      · rw [htasks] at hid
        exact ((List.eraseIdx_sublist _ _).map CronTask.id).mem hid
      · -- The copy is one of a job of the list.
        rw [CronJob.ids, List.map_append, List.mem_append] at hid
        rcases hid with hid | hid
        · exact hs.known.snapshots id hid
        · obtain ⟨job, hjob, rfl⟩ := List.mem_map.mp hid
          have hmem := List.mem_of_find?_eq_some (Option.mem_toList.mp hjob)
          exact hs.known.jobs _ (hids ▸ List.mem_map_of_mem hmem)

/-- A job with a new id may be added. -/
theorem Keyed.announce (hs : s.Keyed) {job : CronJob} (hnew : job.id ∉ s.known) :
    Keyed { s with
      table := CronTable.persistJob lib s.table job
      adding := s.adding ++ [job]
      known := job.id :: s.known } := by
  have hknown := hs.known.mono fun id hid => List.mem_cons_of_mem job.id hid
  have hadding : ∀ id ∈ CronJob.ids (s.adding ++ [job]),
      id ∈ CronJob.ids s.adding ∨ id = job.id := by
    simp [CronJob.ids]
  refine { hs with table := CronTable.nodup_ids_persistJob hs.table, adding := ?_, fresh := ?_,
                   known := { hknown with adding := ?_, table := ?_ } }
  · rw [CronJob.ids, List.map_append, List.nodup_append]
    refine ⟨hs.adding, List.nodup_singleton _, fun id hid id' hid' => ?_⟩
    rw [List.mem_singleton.mp hid']
    rintro rfl
    exact hnew (hs.known.adding _ hid)
  · intro id hid
    rcases hadding id hid with hid | rfl
    · exact hs.fresh id hid
    · exact ⟨mt (hs.known.jobs _) hnew, mt (hs.known.inFlight _) hnew, mt (hs.known.tasks _) hnew⟩
  · intro id hid
    rcases hadding id hid with hid | rfl
    · exact hknown.adding id hid
    · exact List.mem_cons_self
  · intro id hid
    rcases CronTable.mem_ids_persistJob.mp hid with ⟨hid, -⟩ | rfl
    · exact hknown.table id hid
    · exact List.mem_cons_self

/-- A job that is being added may be pushed. -/
theorem Keyed.push (hs : s.Keyed) {i : ℕ} {job : CronJob} (hjob : s.adding[i]? = some job) :
    Keyed { s with
      sched := { s.sched with jobs := s.sched.jobs ++ [job] }
      adding := s.adding.eraseIdx i } := by
  -- It is none of the others that are being added.
  obtain ⟨before, after, hsplit, herase, -⟩ := exists_split_of_getElem? hjob
  have hnodup := hs.adding
  rw [hsplit, CronJob.ids, List.map_append, List.map_cons, List.nodup_middle, ← List.map_append,
    ← herase, List.nodup_cons] at hnodup
  have hmem : job.id ∈ CronJob.ids s.adding := List.mem_map_of_mem (List.mem_of_getElem? hjob)
  obtain ⟨hjob', hflight, htask⟩ := hs.fresh _ hmem
  have hrest : ∀ id ∈ CronJob.ids (s.adding.eraseIdx i), id ∈ CronJob.ids s.adding :=
    fun id hid => ((List.eraseIdx_sublist _ _).map CronJob.id).mem hid
  have hjobs : ∀ id, id ∈ CronJob.ids (s.sched.jobs ++ [job]) ↔
      id ∈ CronJob.ids s.sched.jobs ∨ id = job.id := by
    simp [CronJob.ids]
  refine { hs with jobs := ?_, adding := hnodup.2, fresh := fun id hid => ?_,
                   known := { hs.known with jobs := fun id hid => ?_,
                                            adding := fun id hid => ?_ } }
  · rw [CronJob.ids, List.map_append, List.nodup_append]
    refine ⟨hs.jobs, List.nodup_singleton _, fun id hid id' hid' => ?_⟩
    rw [List.mem_singleton.mp hid']
    rintro rfl
    exact hjob' hid
  · obtain ⟨hid', hflight', htask'⟩ := hs.fresh id (hrest id hid)
    refine ⟨fun h => ?_, hflight', htask'⟩
    rcases (hjobs id).mp h with h | rfl
    · exact hid' h
    · exact hnodup.1 hid
  · rcases (hjobs id).mp hid with hid | rfl
    · exact hs.known.jobs id hid
    · exact hs.known.adding _ hmem
  · exact hs.known.adding id (hrest id hid)

/-- A removal may begin. -/
theorem Keyed.delete (hs : s.Keyed) (id : String) :
    Keyed { s with
      table := CronTable.deleteJob s.table id
      removing := id :: s.removing
      known := id :: s.known } := by
  have hknown := hs.known.mono fun id' hid' => List.mem_cons_of_mem id hid'
  refine { hs with table := CronTable.nodup_ids_deleteJob hs.table,
                   known := { hknown with table := ?_, removing := ?_ } }
  · exact fun id' hid' => hknown.table id' (CronTable.mem_ids_deleteJob.mp hid').1
  · intro id' hid'
    rcases List.mem_cons.mp hid' with rfl | hid'
    · exact List.mem_cons_self
    · exact hknown.removing id' hid'

/-- A removal that has begun may return. -/
theorem Keyed.returned (hs : s.Keyed) {id : String} (hremoving : id ∈ s.removing) :
    Keyed { s with removing := s.removing.erase id, removed := id :: s.removed } := by
  refine { hs with known := { hs.known with removing := fun id' hid' => ?_,
                                            removed := fun id' hid' => ?_ } }
  · exact hs.known.removing id' (List.mem_of_mem_erase hid')
  · rcases List.mem_cons.mp hid' with rfl | hid'
    · exact hs.known.removing _ hremoving
    · exact hs.known.removed id' hid'

/-- Jobs of the list may be started. -/
theorem Keyed.ticked (hs : s.Keyed) (now : ℕ) : Keyed { s with sched := s.sched.ticked now } := by
  have hids : CronJob.ids (s.sched.ticked now).jobs = CronJob.ids s.sched.jobs :=
    ids_advanced s.sched.jobs now s.sched.inFlight
  -- What is started has been in the list.
  have hstarted : ∀ id ∈ (s.sched.dueJobs now).map CronJob.id, id ∈ CronJob.ids s.sched.jobs :=
    fun id hid => (List.filter_sublist.map CronJob.id).mem hid
  have hflight : ∀ id ∈ (s.sched.ticked now).inFlight,
      id ∈ CronJob.ids s.sched.jobs ∨ id ∈ s.sched.inFlight := by
    intro id hid
    exact (List.mem_append.mp hid).imp_left fun hid => hstarted id (List.mem_reverse.mp hid)
  have htasks : ∀ id ∈ (s.sched.ticked now).tasks.map CronTask.id,
      id ∈ CronJob.ids s.sched.jobs ∨ id ∈ s.sched.tasks.map CronTask.id := by
    intro id hid
    rw [CronState.ticked, List.map_append, List.mem_append, List.map_map] at hid
    exact hid.symm.imp_left (hstarted id)
  refine { hs with jobs := hids ▸ hs.jobs, fresh := fun id hid => ?_, known := { hs.known with
    jobs := fun id hid => hs.known.jobs id (hids ▸ hid)
    inFlight := fun id hid => (hflight id hid).elim (hs.known.jobs id) (hs.known.inFlight id)
    tasks := fun id hid => (htasks id hid).elim (hs.known.jobs id) (hs.known.tasks id) } }
  obtain ⟨hjob, hflight', htask⟩ := hs.fresh id hid
  exact ⟨hids ▸ hjob, fun h => (hflight id h).elim hjob hflight',
    fun h => (htasks id h).elim hjob htask⟩

/-- A copy of a job may be persisted. -/
theorem Keyed.persist (hs : s.Keyed) {i : ℕ} {job : CronJob} (hjob : s.snapshots[i]? = some job) :
    Keyed { s with
      table := CronTable.persistJob lib s.table job
      snapshots := s.snapshots.eraseIdx i } := by
  have hmem := List.mem_of_getElem? hjob
  refine { hs with table := CronTable.nodup_ids_persistJob hs.table,
                   known := { hs.known with snapshots := ?_, table := ?_ } }
  · exact fun id hid => hs.known.snapshots id (((List.eraseIdx_sublist _ _).map CronJob.id).mem hid)
  · intro id hid
    rcases CronTable.mem_ids_persistJob.mp hid with ⟨hid, -⟩ | rfl
    · exact hs.known.table id hid
    · exact hs.known.snapshots _ (List.mem_map_of_mem hmem)

/-- The table may be loaded. -/
theorem Keyed.restart (hs : s.Keyed) :
    Keyed { s with
      sched := .initial (CronTable.loadedJobs lib s.table)
      adding := []
      snapshots := []
      removing := [] } := by
  let sched := CronState.initial (CronTable.loadedJobs lib s.table)
  have hids : CronJob.ids sched.jobs = CronTable.ids s.table := CronTable.ids_loadedJobs
  have hjobs : (CronJob.ids sched.jobs).Nodup := hids ▸ hs.table
  have hnone : ∀ {p : String → Prop}, ∀ id ∈ ([] : List String), p id :=
    fun id hid => nomatch hid
  exact { hs with
    jobs := hjobs
    adding := List.nodup_nil
    fresh := hnone
    known := { hs.known with
      jobs := fun id hid => hs.known.table id (hids ▸ hid)
      adding := hnone
      snapshots := hnone
      inFlight := hnone
      tasks := hnone
      removing := hnone } }

/-- Every section keeps ids as keys. -/
theorem Keyed.step (hs : s.Keyed) {a : CronSystemAction} (h : s.step urlLib lib a = some t) :
    t.Keyed := by
  cases a with
  | persistNew now id name schedule url method =>
      obtain ⟨hnew, h⟩ := Option.ite_none_left_eq_some.mp h
      cases h
      have hjob : (CronJob.new now id name schedule url method).id ∉ s.known := hnew
      exact hs.announce hjob
  | push i =>
      obtain ⟨job, hjob, rfl⟩ := Option.map_eq_some_iff.mp h
      exact hs.push hjob
  | delete id =>
      cases h
      exact hs.delete id
  | retain id =>
      obtain ⟨hremoving, h⟩ := Option.ite_none_right_eq_some.mp h
      cases h
      exact (hs.returned hremoving).withSched (List.filter_sublist.map CronJob.id)
        (fun id' hid' => List.mem_of_mem_erase hid') (fun id' hid' => hid') hs.known.snapshots
  | tick now =>
      rw [step_tick hs.jobs now] at h
      cases h
      exact hs.ticked now
  | task i a =>
      obtain ⟨task, htask, hstep⟩ := exists_taskStep hs.jobs h
      exact hs.taskStep htask hstep
  | persist i =>
      obtain ⟨job, hjob, rfl⟩ := Option.map_eq_some_iff.mp h
      exact hs.persist hjob
  | restart =>
      cases h
      exact hs.restart

/-- Ids are keys in every run. -/
theorem keyed_of_runs {as : List CronSystemAction}
    (hrun : (machine urlLib lib).Runs Machine.unrestricted initial as s) : s.Keyed :=
  hrun.invariant (fun _ _ _ hs _ h => hs.step h) keyed_initial

end CronSystem

end XiraNet

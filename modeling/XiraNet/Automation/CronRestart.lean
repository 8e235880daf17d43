import XiraNet.Automation.CronRuns

/-!
# Restarts of the scheduler

What `with_storage` of `automation/cron.rs` makes of what `persist_job` has written, for the jobs of
every run: the numbers of a job are `u64`, and those of its row are `i64`.

* `CronSystem.allSurvive_iff`: in which runs all jobs are loaded as they are.
* `CronSystem.allSurvive_fails`: a job whose next run is too late is loaded with one that is due.
-/

namespace XiraNet

namespace CronSystem

/-- Every job would be loaded as it is, if it were persisted now. -/
def AllSurvive (lib : ScheduleLib) (s : CronSystem) : Prop :=
  ∀ job ∈ s.sched.jobs ++ s.adding, job.Survives lib s.table

/-- What the section writes into jobs is not too large for `i64`: the next run of a job that is
added or started, and the time and the counters of one that has run. -/
def KeepsI64 (s : CronSystem) (a : CronSystemAction) : Prop :=
  match a with
  | .persistNew now _ _ schedule _ _ => schedule.nextAfter now < 2 ^ 63
  | .tick now => ∀ job ∈ s.sched.dueJobs now, job.schedule.nextAfter now < 2 ^ 63
  | .task i _ =>
      ∀ task ∈ s.sched.tasks[i]?, ∀ job ∈ s.sched.jobs, ∀ outcome ∈ s.recordedOutcome a job.id,
        task.now < 2 ^ 63 ∧ job.runCount + 1 < 2 ^ 63 ∧
          (outcome.isSuccess = false → job.failureCount + 1 < 2 ^ 63)
  | _ => True

instance (s : CronSystem) : ∀ a, Decidable (s.KeepsI64 a)
  | .persistNew now _ _ schedule _ _ =>
      inferInstanceAs (Decidable (schedule.nextAfter now < 2 ^ 63))
  | .tick now =>
      inferInstanceAs
        (Decidable (∀ job ∈ s.sched.dueJobs now, job.schedule.nextAfter now < 2 ^ 63))
  | .task i _ =>
      inferInstanceAs (Decidable (∀ task ∈ s.sched.tasks[i]?, _))
  | .push _ | .delete _ | .retain _ | .persist _ | .restart => .isTrue trivial

/-- All numbers of jobs are ones of `i64`, in the list, on their way and in the table. -/
structure Bounded (lib : ScheduleLib) (s : CronSystem) : Prop extends s.Keyed where
  storable_jobs : ∀ job ∈ s.sched.jobs, job.Storable
  storable_adding : ∀ job ∈ s.adding, job.Storable
  storable_snapshots : ∀ job ∈ s.snapshots, job.Storable
  storable_table : ∀ job ∈ CronTable.loadedJobs lib s.table, job.Storable

variable {urlLib : UrlLib} {lib : ScheduleLib} {s t : CronSystem} {a : CronSystemAction}

/-- Jobs whose numbers fit survive. -/
theorem allSurvive_iff_storable :
    s.AllSurvive lib ↔ ∀ job ∈ s.sched.jobs ++ s.adding, job.Storable :=
  forall₂_congr fun job _ => job.survives_iff s.table

/-- Jobs survive if their numbers fit. -/
theorem Bounded.allSurvive (hs : s.Bounded lib) : s.AllSurvive lib := by
  rw [allSurvive_iff_storable]
  intro job hjob
  exact (List.mem_append.mp hjob).elim (hs.storable_jobs job) (hs.storable_adding job)

/-- There are no jobs at the start. -/
theorem bounded_initial : Bounded lib initial where
  toKeyed := keyed_initial
  storable_jobs _ h := nomatch h
  storable_adding _ h := nomatch h
  storable_snapshots _ h := nomatch h
  storable_table _ h := nomatch h

/-- A new job is one of `i64` exactly if its next run is. -/
theorem storable_new_iff {now : ℕ} {id name : String} {schedule : CronSchedule}
    {url method : String} :
    (CronJob.new now id name schedule url method).Storable ↔ schedule.nextAfter now < 2 ^ 63 :=
  ⟨fun h => h.nextRun, fun h => ⟨Nat.two_pow_pos 63, h, Nat.two_pow_pos 63, Nat.two_pow_pos 63⟩⟩

/-- A job that is started is one of `i64` exactly if its next run is. -/
theorem storable_advanced_iff {now : ℕ} {job : CronJob} (h : job.Storable) :
    (job.advanced now).Storable ↔ job.schedule.nextAfter now < 2 ^ 63 :=
  ⟨fun h => h.nextRun, fun hnext => { h with nextRun := hnext }⟩

/-- A job with an outcome recorded is one of `i64` exactly if the time and the counters are. -/
theorem storable_record_iff {job : CronJob} {now : ℕ} {outcome : CronOutcome}
    (h : job.Storable) :
    (job.record now outcome).Storable ↔ now < 2 ^ 63 ∧ job.runCount + 1 < 2 ^ 63 ∧
      (outcome.isSuccess = false → job.failureCount + 1 < 2 ^ 63) := by
  obtain ⟨hruns, hfailures⟩ := counts_record job now outcome
  obtain ⟨hlast, hnext⟩ : (job.record now outcome).lastRun = now ∧
      (job.record now outcome).nextRun = job.nextRun := by
    unfold CronJob.record
    cases outcome with
    | error e => exact ⟨rfl, rfl⟩
    | ok status =>
        dsimp only
        split <;> exact ⟨rfl, rfl⟩
  have hadd : ∀ n, saturatingAddU64 n 1 < 2 ^ 63 ↔ n + 1 < 2 ^ 63 := by
    intro n
    unfold saturatingAddU64
    omega
  have hfailed : (job.record now outcome).failureCount < 2 ^ 63 ↔
      (outcome.isSuccess = false → job.failureCount + 1 < 2 ^ 63) := by
    rw [hfailures]
    cases outcome.isSuccess with
    | true => exact iff_of_true h.failureCount nofun
    | false =>
        rw [if_neg Bool.false_ne_true, hadd]
        exact ⟨fun h _ => h, fun h => h rfl⟩
  constructor
  · intro hstorable
    exact ⟨hlast ▸ hstorable.lastRun, (hadd _).mp (hruns ▸ hstorable.runCount),
      hfailed.mp hstorable.failureCount⟩
  · rintro ⟨hnow, hcount, hfailure⟩
    constructor
    · rwa [hlast]
    · rw [hnext]
      exact h.nextRun
    · rw [hruns]
      exact (hadd _).mpr hcount
    · exact hfailed.mpr hfailure

/-- What was persisted is loaded, and what was in the table before. -/
theorem storable_persistJob {table : Table CronRow} {job : CronJob} (hjob : job.Storable)
    (htable : ∀ job ∈ CronTable.loadedJobs lib table, job.Storable) :
    ∀ job' ∈ CronTable.loadedJobs lib (CronTable.persistJob lib table job), job'.Storable := by
  intro job' hjob'
  obtain ⟨row, hrow, rfl⟩ := List.mem_map.mp hjob'
  rcases Table.mem_insertOrReplace.mp hrow with ⟨hrow, -⟩ | rfl
  · exact htable _ (List.mem_map_of_mem hrow)
  · rwa [job.toJob_toRow_iff.mpr hjob]

/-- A step of a task keeps to `i64` if the outcome that it records does. -/
theorem Bounded.taskStep (hs : s.Bounded lib) {i : ℕ} {task : CronTask} {a : CronTaskAction}
    (hok : s.KeepsI64 (.task i a)) (hkeyed : t.Keyed) (htask : s.sched.tasks[i]? = some task)
    (h : s.TaskStep i task a t) : t.Bounded lib := by
  cases h with
  | moves hrunning hstage hjobs hinFlight htasks | ends hrunning hjobs hinFlight htasks =>
      exact { hs with
        toKeyed := hkeyed
        storable_jobs := fun job hjob => hs.storable_jobs job (hjobs ▸ hjob) }
  | @records sched outcome hdone hjobs hinFlight htasks =>
      have hstorable : ∀ job ∈ sched.jobs, job.Storable := by
        intro job' hjob'
        rw [hjobs] at hjob'
        obtain ⟨job, hjob, rfl⟩ := List.mem_map.mp hjob'
        split
        next hid =>
          have hrecorded : s.recordedOutcome (.task i .collect) job.id = some outcome := by
            rw [recordedOutcome_eq htask hdone, if_pos hid.symm]
          exact (storable_record_iff (hs.storable_jobs job hjob)).mpr
            (hok task htask job hjob outcome hrecorded)
        next => exact hs.storable_jobs job hjob
      refine { hs with
        toKeyed := hkeyed
        storable_jobs := hstorable
        storable_snapshots := fun job hjob => ?_ }
      rcases List.mem_append.mp hjob with hjob | hjob
      · exact hs.storable_snapshots job hjob
      · exact hstorable job (List.mem_of_find?_eq_some (Option.mem_toList.mp hjob))

/-- A section that keeps to `i64` leaves all jobs within it. -/
theorem Bounded.step (hs : s.Bounded lib) (hok : s.KeepsI64 a)
    (h : s.step urlLib lib a = some t) : t.Bounded lib := by
  have hkeyed := hs.toKeyed.step h
  cases a with
  | persistNew now id name schedule url method =>
      obtain ⟨-, h⟩ := Option.ite_none_left_eq_some.mp h
      cases h
      have hnew : (CronJob.new now id name schedule url method).Storable := storable_new_iff.mpr hok
      refine { hs with
        toKeyed := hkeyed
        storable_adding := fun job hjob => ?_
        storable_table := storable_persistJob hnew hs.storable_table }
      rcases List.mem_append.mp hjob with hjob | hjob
      · exact hs.storable_adding job hjob
      · rwa [List.mem_singleton.mp hjob]
  | push i =>
      obtain ⟨job, hjob, rfl⟩ := Option.map_eq_some_iff.mp h
      refine { hs with
        toKeyed := hkeyed
        storable_jobs := fun job' hjob' => ?_
        storable_adding := fun job' hjob' =>
          hs.storable_adding job' (List.mem_of_mem_eraseIdx hjob') }
      rcases List.mem_append.mp hjob' with hjob' | hjob'
      · exact hs.storable_jobs job' hjob'
      · rw [List.mem_singleton.mp hjob']
        exact hs.storable_adding job (List.mem_of_getElem? hjob)
  | delete id =>
      cases h
      refine { hs with
        toKeyed := hkeyed
        storable_table := fun job hjob => ?_ }
      obtain ⟨row, hrow, rfl⟩ := List.mem_map.mp hjob
      exact hs.storable_table _ (List.mem_map_of_mem (Table.mem_delete.mp hrow).1)
  | retain id =>
      obtain ⟨-, h⟩ := Option.ite_none_right_eq_some.mp h
      cases h
      exact { hs with
        toKeyed := hkeyed
        storable_jobs := fun job hjob => hs.storable_jobs job (List.mem_of_mem_filter hjob) }
  | tick now =>
      rw [step_tick hs.jobs now] at h
      cases h
      refine { hs with
        toKeyed := hkeyed
        storable_jobs := fun job' hjob' => ?_ }
      obtain ⟨job, hjob, rfl⟩ := List.mem_map.mp hjob'
      split
      next hdue =>
        exact (storable_advanced_iff (hs.storable_jobs job hjob)).mpr
          (hok job (List.mem_filter.mpr ⟨hjob, decide_eq_true hdue⟩))
      next => exact hs.storable_jobs job hjob
  | task i a =>
      obtain ⟨task, htask, hstep⟩ := exists_taskStep hs.jobs h
      exact hs.taskStep hok hkeyed htask hstep
  | persist i =>
      obtain ⟨job, hjob, rfl⟩ := Option.map_eq_some_iff.mp h
      have hsnap := hs.storable_snapshots job (List.mem_of_getElem? hjob)
      exact { hs with
        toKeyed := hkeyed
        storable_snapshots := fun job' hjob' =>
          hs.storable_snapshots job' (List.mem_of_mem_eraseIdx hjob')
        storable_table := storable_persistJob hsnap hs.storable_table }
  | restart =>
      cases h
      exact { hs with
        toKeyed := hkeyed
        storable_jobs := hs.storable_table
        storable_adding := fun _ h => nomatch h
        storable_snapshots := fun _ h => nomatch h }

/-- A section that does not keep to `i64` leaves a job that would not be loaded as it is. -/
theorem Bounded.not_allSurvive (hs : s.Bounded lib) (hbad : ¬s.KeepsI64 a)
    (h : s.step urlLib lib a = some t) : ¬t.AllSurvive lib := by
  rw [allSurvive_iff_storable]
  cases a with
  | persistNew now id name schedule url method =>
      obtain ⟨-, h⟩ := Option.ite_none_left_eq_some.mp h
      cases h
      intro hall
      refine hbad (storable_new_iff.mp (hall (.new now id name schedule url method) ?_))
      exact List.mem_append_right _ (List.mem_append_right _ List.mem_cons_self)
  | tick now =>
      rw [step_tick hs.jobs now] at h
      cases h
      intro hall
      refine hbad fun job hjob => ?_
      obtain ⟨hmem, hdue⟩ := List.mem_filter.mp hjob
      refine (storable_advanced_iff (hs.storable_jobs job hmem)).mp (hall _ ?_)
      refine List.mem_append_left _ (List.mem_map.mpr ⟨job, hmem, ?_⟩)
      exact if_pos (of_decide_eq_true hdue)
  | task i a =>
      obtain ⟨task, htask, hstep⟩ := exists_taskStep hs.jobs h
      cases hstep with
      | @records sched outcome hdone hjobs hinFlight htasks =>
          intro hall
          refine hbad fun task' htask' job hjob outcome' houtcome => ?_
          cases htask.symm.trans htask'
          rw [recordedOutcome_eq htask hdone] at houtcome
          obtain ⟨hid, ⟨⟩⟩ := Option.ite_none_right_eq_some.mp houtcome
          refine (storable_record_iff (hs.storable_jobs job hjob)).mp (hall _ ?_)
          rw [hjobs]
          refine List.mem_append_left _ (List.mem_map.mpr ⟨job, hjob, ?_⟩)
          exact if_pos hid.symm
      | moves hrunning hstage hjobs hinFlight htasks | ends hrunning hjobs hinFlight htasks =>
          -- Nothing is recorded before the end.
          refine absurd (fun task' htask' job _ outcome houtcome => ?_) hbad
          rw [recordedOutcome_of_running htask hrunning] at houtcome
          cases houtcome
  | push | delete | retain | persist | restart => exact absurd trivial hbad

/-- In every run, all jobs would be loaded as they are exactly if every section keeps to `i64`. -/
theorem allSurvive_iff {as : List CronSystemAction}
    (hrun : (machine urlLib lib).Runs Machine.unrestricted initial as s) :
    (machine urlLib lib).Throughout (AllSurvive lib) initial as ↔
      (machine urlLib lib).Runs KeepsI64 initial as s :=
  hrun.throughout_iff (fun _ hs => hs.allSurvive) (fun _ _ _ hs hok h => hs.step hok h)
    (fun _ _ _ hs hbad h => hs.not_allSurvive hbad h) bounded_initial

/-- A daily job is added and run, and it is loaded after that. -/
def dailyRestarted : List CronSystemAction :=
  [.persistNew 100 "j1" "backup" (.daily 3 30) "http://api.test/" "POST", .push 0, .tick 12600,
    .task 0 (.check 12600), .task 0 (.finish 12600 publicResolver),
    .task 0 (.send (redirecting ⟨"http", some "www.test", none, some 80⟩) (.ok 503)),
    .task 0 .collect, .persist 0, .restart, .tick 12660]

/-- All jobs survive in a run of a daily job. -/
theorem allSurvive_daily :
    (machine .plain .plain).Throughout (AllSurvive .plain) initial dailyRestarted := by
  have hkeeps : (machine .plain .plain).Runs KeepsI64 initial dailyRestarted _ :=
    Machine.runs_of_exec rfl
  exact (allSurvive_iff (hkeeps.mono fun _ _ _ => trivial)).mpr hkeeps

/-- A job whose next run is at the end of time is loaded with one that has been reached. -/
theorem allSurvive_fails :
    ¬∀ (urlLib : UrlLib) (lib : ScheduleLib) (as : List CronSystemAction) (s : CronSystem),
      (machine urlLib lib).Runs Machine.unrestricted initial as s → s.AllSurvive lib := by
  intro hall
  have hrun : (machine .plain .plain).Runs Machine.unrestricted initial
      [.persistNew 100 "j1" "job" (.everySeconds (2 ^ 64 - 1)) "http://api.test/" "GET",
        .push 0] _ := Machine.runs_of_exec rfl
  have hstorable := allSurvive_iff_storable.mp (hall .plain .plain _ _ hrun) _ List.mem_cons_self
  exact absurd hstorable.nextRun (by decide)

end CronSystem

end XiraNet

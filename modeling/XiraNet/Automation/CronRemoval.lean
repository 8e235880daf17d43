import XiraNet.Automation.CronRuns

/-!
# Removal of cron jobs

`remove_job` of `automation/cron.rs` against the sections that may come between its two, or after
them: a copy of the job that a tick has made before is persisted without a look at the list.

* `CronSystem.staysRemoved_iff`: in which runs a removed job stays removed.
* `CronSystem.staysRemoved_fails`: a run in which it comes back.
-/

namespace XiraNet

namespace CronSystem

/-- No tick starts a removed job, and no restart loads one. -/
structure StaysRemoved (lib : ScheduleLib) (s : CronSystem) : Prop where
  starts : ∀ now, ∀ task ∈ (collectDue now s.sched.jobs s.sched.inFlight).2.2, task.id ∉ s.removed
  loads : ∀ job ∈ CronTable.loadedJobs lib s.table, job.id ∉ s.removed

/-- Nothing is written for a removed job, and `remove_job` does not return while the table has the
job. -/
def WritesNothingBack (s : CronSystem) : CronSystemAction → Prop
  | .push i => ∀ job ∈ s.adding[i]?, job.id ∉ s.removed
  | .persist i => ∀ job ∈ s.snapshots[i]?, job.id ∉ s.removed
  | .retain id => id ∉ CronTable.ids s.table
  | _ => True

instance (s : CronSystem) (a : CronSystemAction) : Decidable (s.WritesNothingBack a) := by
  cases a <;> unfold WritesNothingBack <;> infer_instance

/-- Removed jobs are in neither the list nor the table, and jobs that are being added are
enabled. -/
structure Gone (s : CronSystem) : Prop extends s.Keyed where
  jobs_removed : ∀ id ∈ CronJob.ids s.sched.jobs, id ∉ s.removed
  table_removed : ∀ id ∈ CronTable.ids s.table, id ∉ s.removed
  enabled : ∀ job ∈ s.adding, job.enabled = true

variable {urlLib : UrlLib} {lib : ScheduleLib} {s t : CronSystem} {a : CronSystemAction}

/-- What is started is in the list, and what is loaded is in the table. -/
theorem Gone.staysRemoved (hs : s.Gone) : s.StaysRemoved lib := by
  constructor
  · intro now task htask
    rw [collectDue_eq hs.jobs] at htask
    obtain ⟨job, hjob, rfl⟩ := List.mem_map.mp htask
    exact hs.jobs_removed job.id (List.mem_map_of_mem (List.mem_of_mem_filter hjob))
  · intro job hjob
    have hids : CronJob.ids (CronTable.loadedJobs lib s.table) = CronTable.ids s.table :=
      CronTable.ids_loadedJobs
    exact hs.table_removed job.id (hids ▸ List.mem_map_of_mem hjob)

/-- At the start, nothing has been removed. -/
theorem gone_initial : Gone initial where
  toKeyed := keyed_initial
  jobs_removed _ h := nomatch h
  table_removed _ h := nomatch h
  enabled _ h := nomatch h

/-- Every section that writes nothing back leaves removed jobs gone. -/
theorem Gone.step (hs : s.Gone) (hok : s.WritesNothingBack a)
    (h : s.step urlLib lib a = some t) : t.Gone := by
  have hkeyed := hs.toKeyed.step h
  cases a with
  | persistNew now id name schedule url method =>
      obtain ⟨hnew, h⟩ := Option.ite_none_left_eq_some.mp h
      cases h
      refine { hs with toKeyed := hkeyed, table_removed := ?_, enabled := ?_ }
      · intro id' hid'
        rcases CronTable.mem_ids_persistJob.mp hid' with ⟨hid', -⟩ | rfl
        · exact hs.table_removed id' hid'
        · exact mt (hs.known.removed _) hnew
      · intro job hjob
        rcases List.mem_append.mp hjob with hjob | hjob
        · exact hs.enabled job hjob
        · rw [List.mem_singleton.mp hjob]
          rfl
  | push i =>
      obtain ⟨job, hjob, rfl⟩ := Option.map_eq_some_iff.mp h
      refine { hs with toKeyed := hkeyed, jobs_removed := ?_, enabled := ?_ }
      · intro id hid
        rw [CronJob.ids, List.map_append, List.mem_append] at hid
        rcases hid with hid | hid
        · exact hs.jobs_removed id hid
        · rw [List.mem_singleton.mp hid]
          exact hok job hjob
      · exact fun job' hjob' => hs.enabled job' (List.mem_of_mem_eraseIdx hjob')
  | delete id =>
      cases h
      exact { hs with
        toKeyed := hkeyed
        table_removed := fun id' hid' =>
          hs.table_removed id' (CronTable.mem_ids_deleteJob.mp hid').1 }
  | retain id =>
      obtain ⟨-, h⟩ := Option.ite_none_right_eq_some.mp h
      cases h
      refine { hs with toKeyed := hkeyed, jobs_removed := ?_, table_removed := ?_ }
      · intro id' hid'
        obtain ⟨job, hjob, rfl⟩ := List.mem_map.mp hid'
        obtain ⟨hjob, hne⟩ := List.mem_filter.mp hjob
        rw [List.mem_cons, not_or]
        exact ⟨by simpa using hne, hs.jobs_removed _ (List.mem_map_of_mem hjob)⟩
      · intro id' hid'
        rw [List.mem_cons, not_or]
        refine ⟨?_, hs.table_removed id' hid'⟩
        rintro rfl
        exact hok hid'
  | tick now =>
      rw [step_tick hs.jobs now] at h
      cases h
      have hids : CronJob.ids (s.sched.ticked now).jobs = CronJob.ids s.sched.jobs :=
        ids_advanced s.sched.jobs now s.sched.inFlight
      exact { hs with
        toKeyed := hkeyed
        jobs_removed := fun id hid => hs.jobs_removed id (hids ▸ hid) }
  | task i a =>
      obtain ⟨task, -, hstep⟩ := exists_taskStep hs.jobs h
      obtain ⟨htable, hadding, -, hremoved⟩ := hstep.frame
      exact { hkeyed with
        jobs_removed := fun id hid => hremoved ▸ hs.jobs_removed id (hstep.ids_jobs ▸ hid)
        table_removed := fun id hid => hremoved ▸ hs.table_removed id (htable ▸ hid)
        enabled := fun job hjob => hs.enabled job (hadding ▸ hjob) }
  | persist i =>
      obtain ⟨job, hjob, rfl⟩ := Option.map_eq_some_iff.mp h
      refine { hs with toKeyed := hkeyed, table_removed := ?_ }
      intro id hid
      rcases CronTable.mem_ids_persistJob.mp hid with ⟨hid, -⟩ | rfl
      · exact hs.table_removed id hid
      · exact hok job hjob
  | restart =>
      cases h
      have hids : CronJob.ids (CronTable.loadedJobs lib s.table) = CronTable.ids s.table :=
        CronTable.ids_loadedJobs
      exact { hs with
        toKeyed := hkeyed
        jobs_removed := fun id hid => hs.table_removed id (hids ▸ hid)
        enabled := fun job h => absurd h List.not_mem_nil }

/-- A section that writes something back undoes a removal at once. -/
theorem Gone.not_staysRemoved (hs : s.Gone) (hbad : ¬s.WritesNothingBack a)
    (h : s.step urlLib lib a = some t) : ¬t.StaysRemoved lib := by
  have hkeyed := hs.toKeyed.step h
  -- A row of a removed job is loaded.
  have hloads : ∀ id ∈ CronTable.ids t.table, id ∈ t.removed → ¬t.StaysRemoved lib := by
    intro id hid hremoved hstays
    have hids : CronJob.ids (CronTable.loadedJobs lib t.table) = CronTable.ids t.table :=
      CronTable.ids_loadedJobs
    rw [← hids] at hid
    obtain ⟨job, hjob, rfl⟩ := List.mem_map.mp hid
    exact hstays.loads job hjob hremoved
  cases a with
  | push i =>
      obtain ⟨job, hjob, rfl⟩ := Option.map_eq_some_iff.mp h
      have hremoved : job.id ∈ s.removed := by
        by_contra hne
        refine hbad fun job' hjob' => ?_
        rwa [← Option.some.inj (hjob.symm.trans hjob')]
      -- The next tick at its time starts the job.
      intro hstays
      refine hstays.starts job.nextRun (job.task job.nextRun) ?_ hremoved
      have hmem := List.mem_of_getElem? hjob
      have hdue : job.Due job.nextRun s.sched.inFlight :=
        ⟨hs.enabled job hmem, le_rfl, (hs.fresh job.id (List.mem_map_of_mem hmem)).2.1⟩
      rw [collectDue_eq hkeyed.jobs]
      exact List.mem_map_of_mem
        (List.mem_filter.mpr ⟨List.mem_append_right _ List.mem_cons_self, decide_eq_true hdue⟩)
  | persist i =>
      obtain ⟨job, hjob, rfl⟩ := Option.map_eq_some_iff.mp h
      have hremoved : job.id ∈ s.removed := by
        by_contra hne
        refine hbad fun job' hjob' => ?_
        rwa [← Option.some.inj (hjob.symm.trans hjob')]
      exact hloads job.id (CronTable.mem_ids_persistJob.mpr (.inr rfl)) hremoved
  | retain id =>
      obtain ⟨-, h⟩ := Option.ite_none_right_eq_some.mp h
      cases h
      exact hloads id (not_not.mp hbad) List.mem_cons_self
  | persistNew | delete | tick | task | restart => exact absurd trivial hbad

/-- In every run, removed jobs stay removed exactly if nothing is written for a removed job, and no
removal returns while the table has its job. -/
theorem staysRemoved_iff {as : List CronSystemAction}
    (hrun : (machine urlLib lib).Runs Machine.unrestricted initial as s) :
    (machine urlLib lib).Throughout (StaysRemoved lib) initial as ↔
      (machine urlLib lib).Runs WritesNothingBack initial as s :=
  hrun.throughout_iff (fun _ hs => hs.staysRemoved) (fun _ _ _ hs hok h => hs.step hok h)
    (fun _ _ _ hs hbad h => hs.not_staysRemoved hbad h) gone_initial

/-- A job is added, and its first run has ended. -/
def firstRun : List CronSystemAction :=
  [.persistNew 100 "j1" "report" (.everySeconds 60) "http://api.test/" "GET", .push 0, .tick 160,
    .task 0 (.check 160), .task 0 (.finish 160 publicResolver),
    .task 0 (.send (redirecting ⟨"http", some "www.test", none, some 80⟩) (.ok 200)),
    .task 0 .collect]

/-- A job is removed after its run has been persisted. -/
def removedAfter : List CronSystemAction :=
  firstRun ++ [.persist 0, .delete "j1", .retain "j1", .tick 300, .restart]

/-- A job is removed before its run is persisted. -/
def removedBetween : List CronSystemAction :=
  firstRun ++ [.delete "j1", .retain "j1", .persist 0, .restart]

/-- A job that is removed later stays removed. -/
theorem staysRemoved_after :
    (machine .plain .plain).Throughout (StaysRemoved .plain) initial removedAfter := by
  have hmeets : (machine .plain .plain).Runs WritesNothingBack initial removedAfter _ :=
    Machine.runs_of_exec rfl
  exact (staysRemoved_iff (hmeets.mono fun _ _ _ => trivial)).mpr hmeets

/-- A job that is removed between comes back. -/
theorem staysRemoved_fails :
    ¬∀ (urlLib : UrlLib) (lib : ScheduleLib) (as : List CronSystemAction) (s : CronSystem),
      (machine urlLib lib).Runs Machine.unrestricted initial as s → s.StaysRemoved lib := by
  intro hall
  have hrun : (machine .plain .plain).Runs Machine.unrestricted initial removedBetween _ :=
    Machine.runs_of_exec rfl
  exact absurd (hall .plain .plain _ _ hrun).loads (by decide +kernel)

end CronSystem

end XiraNet

import XiraNet.Automation.Cron
import XiraNet.Lib.Table

/-!
# The table of cron jobs

`persist_job`, `remove_job` and `with_storage` of `automation/cron.rs` on the table `cron_jobs`. The
table has the numbers of a job as `i64`, and its schedule as JSON, for which the library is known
by what it reads back.

* `toJob_toRow_iff`: which jobs are read back from their rows.
* `survives_iff`: which jobs are loaded as they were persisted.
-/

namespace XiraNet

/-- `serde_json` for schedules. -/
structure ScheduleLib where
  toString : CronSchedule → String
  fromStr : String → Option CronSchedule
  /-- A schedule is read back. -/
  fromStr_toString : ∀ schedule, fromStr (toString schedule) = some schedule

/-- A row of `cron_jobs`. -/
structure CronRow where
  id : String
  name : String
  schedule : String
  url : String
  method : String
  enabled : ℤ
  lastRun : ℤ
  nextRun : ℤ
  runCount : ℤ
  lastStatus : Option ℤ
  failureCount : ℤ
  deriving DecidableEq

variable (lib : ScheduleLib)

/-- The parameters of the statement of `persist_job`. -/
def CronJob.toRow (job : CronJob) : CronRow where
  id := job.id
  name := job.name
  schedule := lib.toString job.schedule
  url := job.url
  method := job.method
  enabled := if job.enabled then 1 else 0
  lastRun := asI64 job.lastRun
  nextRun := asI64 job.nextRun
  runCount := asI64 job.runCount
  lastStatus := job.lastStatus.map fun s => (s.val : ℤ)
  failureCount := asI64 job.failureCount

/-- The job that `with_storage` makes of a row. -/
def CronRow.toJob (row : CronRow) : CronJob where
  id := row.id
  name := row.name
  schedule := (lib.fromStr row.schedule).getD
    (.everySeconds ((Text.parseUnsigned (2 ^ 64 - 1) row.schedule.toList).getD 3600))
  url := row.url
  method := row.method
  enabled := if row.enabled < 0 then true else asU64 row.enabled = 1
  lastRun := asU64 row.lastRun
  nextRun := asU64 row.nextRun
  runCount := asU64 row.runCount
  lastStatus := row.lastStatus.bind fun v => if v < 0 then none else some (Fin.ofNat _ (asU64 v))
  failureCount := asU64 row.failureCount

namespace CronTable

/-- `persist_job`. -/
def persistJob (table : Table CronRow) (job : CronJob) : Table CronRow :=
  table.insertOrReplace (fun row row' => row'.id = row.id) (job.toRow lib)

/-- The statement of `remove_job`. -/
def deleteJob (table : Table CronRow) (id : String) : Table CronRow :=
  table.delete fun row => row.id = id

/-- The jobs that `with_storage` loads. -/
def loadedJobs (table : Table CronRow) : List CronJob := table.map (CronRow.toJob lib)

/-- The ids in the table. -/
def ids (table : Table CronRow) : List String := table.map CronRow.id

end CronTable

/-- The numbers of the job are not negative as `i64`. -/
structure CronJob.Storable (job : CronJob) : Prop where
  lastRun : job.lastRun < 2 ^ 63
  nextRun : job.nextRun < 2 ^ 63
  runCount : job.runCount < 2 ^ 63
  failureCount : job.failureCount < 2 ^ 63

/-- After `persist_job`, `with_storage` loads the job as it is. -/
def CronJob.Survives (job : CronJob) (table : Table CronRow) : Prop :=
  (CronTable.loadedJobs lib (CronTable.persistJob lib table job)).find? (·.id = job.id) = some job

variable {lib}

/-- A job is read back from its row exactly if none of its numbers becomes negative. -/
theorem CronJob.toJob_toRow_iff (job : CronJob) :
    (job.toRow lib).toJob lib = job ↔ job.Storable := by
  have hschedule : ((job.toRow lib).toJob lib).schedule = job.schedule := by
    simp [toRow, CronRow.toJob, lib.fromStr_toString]
  have henabled : ((job.toRow lib).toJob lib).enabled = job.enabled := by
    cases henabled : job.enabled <;> simp [toRow, CronRow.toJob, asU64, henabled]
  have hstatus : ((job.toRow lib).toJob lib).lastStatus = job.lastStatus := by
    simp only [toRow, CronRow.toJob]
    cases job.lastStatus with
    | none => rfl
    | some status => simp [asU64]
  constructor
  · intro h
    refine ⟨?_, ?_, ?_, ?_⟩
    · exact (asU64_asI64_iff _).mp (congrArg CronJob.lastRun h)
    · exact (asU64_asI64_iff _).mp (congrArg CronJob.nextRun h)
    · exact (asU64_asI64_iff _).mp (congrArg CronJob.runCount h)
    · exact (asU64_asI64_iff _).mp (congrArg CronJob.failureCount h)
  · rintro ⟨hlast, hnext, hcount, hfailures⟩
    have hlast' := (asU64_asI64_iff _).mpr hlast
    have hnext' := (asU64_asI64_iff _).mpr hnext
    have hcount' := (asU64_asI64_iff _).mpr hcount
    have hfailures' := (asU64_asI64_iff _).mpr hfailures
    rw [CronJob.mk.injEq]
    exact ⟨rfl, rfl, hschedule, rfl, rfl, henabled, hlast', hnext', hcount', hstatus, hfailures'⟩

namespace CronTable

variable {table : Table CronRow} {job : CronJob} {id : String}

/-- A persisted job takes the place of the row with its id. -/
theorem persistJob_eq : persistJob lib table job = deleteJob table job.id ++ [job.toRow lib] := rfl

/-- The jobs that are loaded have the ids of the table. -/
@[simp]
theorem ids_loadedJobs : (loadedJobs lib table).map CronJob.id = ids table := by
  simp [loadedJobs, ids, CronRow.toJob, Function.comp_def]

/-- The row is gone, and the other rows are kept. -/
theorem mem_ids_deleteJob {id' : String} :
    id' ∈ ids (deleteJob table id) ↔ id' ∈ ids table ∧ id' ≠ id := by
  simp only [ids, List.mem_map, deleteJob, Table.mem_delete, decide_eq_false_iff_not]
  constructor
  · rintro ⟨row, ⟨hrow, hid⟩, rfl⟩
    exact ⟨⟨row, hrow, rfl⟩, hid⟩
  · rintro ⟨⟨row, hrow, rfl⟩, hid⟩
    exact ⟨row, ⟨hrow, hid⟩, rfl⟩

/-- A persisted job has a row, and the other rows are kept. -/
theorem mem_ids_persistJob :
    id ∈ ids (persistJob lib table job) ↔ (id ∈ ids table ∧ id ≠ job.id) ∨ id = job.id := by
  rw [persistJob_eq, ids, List.map_append, List.mem_append, ← ids, mem_ids_deleteJob]
  simp [CronJob.toRow]

/-- The id stays the key of the table. -/
theorem nodup_ids_deleteJob (h : (ids table).Nodup) : (ids (deleteJob table id)).Nodup :=
  h.sublist (List.filter_sublist.map CronRow.id)

/-- The id stays the key of the table. -/
theorem nodup_ids_persistJob (h : (ids table).Nodup) : (ids (persistJob lib table job)).Nodup := by
  rw [persistJob_eq, ids, List.map_append, List.nodup_append]
  refine ⟨nodup_ids_deleteJob h, List.nodup_singleton _, fun id hid id' hid' => ?_⟩
  rw [List.mem_singleton.mp hid']
  exact (mem_ids_deleteJob.mp hid).2

end CronTable

/-- A job is loaded as it was persisted exactly if none of its numbers becomes negative. -/
theorem CronJob.survives_iff (job : CronJob) (table : Table CronRow) :
    job.Survives lib table ↔ job.Storable := by
  have hnone : (CronTable.loadedJobs lib (CronTable.deleteJob table job.id)).find?
      (·.id = job.id) = none := by
    rw [List.find?_eq_none]
    intro job' hjob'
    have hmem := List.mem_map_of_mem (f := CronJob.id) hjob'
    rw [CronTable.ids_loadedJobs, CronTable.mem_ids_deleteJob] at hmem
    simpa using hmem.2
  have hfind : (CronTable.loadedJobs lib (CronTable.persistJob lib table job)).find?
      (·.id = job.id) = some ((job.toRow lib).toJob lib) := by
    rw [CronTable.persistJob_eq, CronTable.loadedJobs, List.map_append, List.find?_append,
      ← CronTable.loadedJobs, hnone, Option.none_or]
    exact List.find?_cons_of_pos (decide_eq_true rfl)
  rw [Survives, hfind, Option.some.injEq, toJob_toRow_iff]

namespace ScheduleLib

/-- What stands before the minute of a time of day. -/
def beforeMinute : List Char := ",\"minute\":".toList

/-- The name of a variant, and the JSON of what it has. -/
def plainParts : CronSchedule → String × List Char
  | .everySeconds s => ("EverySeconds", Nat.toDigits 10 s)
  | .everyMinutes m => ("EveryMinutes", Nat.toDigits 10 m)
  | .everyHours h => ("EveryHours", Nat.toDigits 10 h)
  | .daily hour minute =>
      ("Daily", "\x7b\"hour\":".toList ++ (Nat.toDigits 10 hour ++
        (beforeMinute ++ (Nat.toDigits 10 minute ++ "\x7d".toList))))
  | .custom expression => ("Custom", "\"".toList ++ (expression.toList ++ "\"".toList))

/-- The schedule of a variant. -/
def ofPlainParts (tag : String) (body : List Char) : Option CronSchedule :=
  match tag with
  | "EverySeconds" => some (.everySeconds (IpAddr.ofDigits 10 body))
  | "EveryMinutes" => some (.everyMinutes (IpAddr.ofDigits 10 body))
  | "EveryHours" => some (.everyHours (IpAddr.ofDigits 10 body))
  | "Daily" =>
      let hour := (body.drop 8).takeWhile (IpAddr.isRadixDigit 10)
      let minute := ((body.drop 8).dropWhile (IpAddr.isRadixDigit 10)).drop 10
      some (.daily (IpAddr.ofDigits 10 hour) (IpAddr.ofDigits 10 minute.dropLast))
  | "Custom" => some (.custom (String.ofList body.tail.dropLast))
  | _ => none

/-- A schedule is read back from its parts. -/
theorem ofPlainParts_plainParts (schedule : CronSchedule) :
    ofPlainParts (plainParts schedule).1 (plainParts schedule).2 = some schedule := by
  have hvalue : ∀ n, IpAddr.ofDigits 10 (Nat.toDigits 10 n) = n :=
    fun n => (IpAddr.ofDigits_toDigits (.inl rfl) n).2
  cases schedule with
  | everySeconds n | everyMinutes n | everyHours n =>
      simp only [plainParts, ofPlainParts, hvalue]
  | custom expression => simp [plainParts, ofPlainParts]
  | daily hour minute =>
      have hstops : IpAddr.StopsNumber 10
          (beforeMinute ++ (Nat.toDigits 10 minute ++ "\x7d".toList)) := by
        rintro _ ⟨⟩
        decide
      obtain ⟨htake, hdrop⟩ := IpAddr.takeWhile_digits
        (IpAddr.ofDigits_toDigits (.inl rfl) hour).1 hstops
      have hhour : ∀ rest, ("\x7b\"hour\":".toList ++ rest).drop 8 = rest :=
        fun rest => List.drop_left' rfl
      have hminute : ∀ rest, (beforeMinute ++ rest).drop 10 = rest :=
        fun rest => List.drop_left' rfl
      have hlast : (Nat.toDigits 10 minute ++ "\x7d".toList).dropLast = Nat.toDigits 10 minute :=
        List.dropLast_concat
      simp only [plainParts, ofPlainParts, hhour, htake, hdrop, hminute, hlast, hvalue]

/-- No name has a quotation mark in it. -/
theorem quote_notMem_plainParts (schedule : CronSchedule) :
    '"' ∉ (plainParts schedule).1.toList := by
  cases schedule <;> simp [plainParts]

/-- The library, for texts in which nothing has to be escaped. -/
def plain : ScheduleLib where
  toString schedule := String.ofList ("\x7b\"".toList ++ ((plainParts schedule).1.toList ++
    ("\":".toList ++ ((plainParts schedule).2 ++ "\x7d".toList))))
  fromStr text :=
    let rest := text.toList.drop 2
    let tag := rest.takeWhile (· ≠ '"')
    ofPlainParts (String.ofList tag) ((rest.dropWhile (· ≠ '"')).drop 2).dropLast
  fromStr_toString schedule := by
    have hall : ∀ c ∈ (plainParts schedule).1.toList, decide (c ≠ '"') = true := fun c hc =>
      decide_eq_true fun heq => quote_notMem_plainParts schedule (heq ▸ hc)
    have hstart : ∀ rest, ("\x7b\"".toList ++ rest).drop 2 = rest :=
      fun rest => List.drop_left' rfl
    have htake : ∀ rest, ("\":".toList ++ rest).takeWhile (· ≠ '"') = [] := fun rest => rfl
    have hdrop : ∀ rest, ("\":".toList ++ rest).dropWhile (· ≠ '"') = "\":".toList ++ rest :=
      fun rest => rfl
    have hbody : ∀ rest, ("\":".toList ++ rest).drop 2 = rest := fun rest => List.drop_left' rfl
    have hlast : ∀ body : List Char, (body ++ "\x7d".toList).dropLast = body :=
      fun body => List.dropLast_concat
    simp only [String.toList_ofList, hstart, List.takeWhile_append_of_pos hall,
      List.dropWhile_append_of_pos hall, htake, hdrop, hbody, hlast, List.append_nil,
      String.ofList_toList]
    exact ofPlainParts_plainParts schedule

example : plain.toString (.daily 3 30) =
    "\x7b\"Daily\":\x7b\"hour\":3,\"minute\":30\x7d\x7d" := by
  decide +kernel

end ScheduleLib

end XiraNet

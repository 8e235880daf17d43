import XiraNet.Alerting.Connections

/-!
# Cron jobs

`automation/cron.rs`: due jobs are snapshotted by `tick`, and each runs in a task of its own, which
pins the URL of the job over the cache of pins and sends one request with a client for the pinned
host. Ticks, tasks and changes of the list of jobs interleave.

* `inv_of_runs`: a task sends only with a pin of the URL of its job.
* `connections_allowed_iff`: when the requests stay at allowed addresses.
-/

namespace XiraNet

/-- `PinnedUrl::build_client`: the pinned host is overridden, and redirects keep their default. -/
def PinnedUrl.buildClient (p : PinnedUrl) : HttpClient :=
  ⟨[(p.host, p.ip)], HttpClient.defaultRedirects⟩

/-- `CronSchedule`. -/
inductive CronSchedule
  | everySeconds (s : ℕ)
  | everyMinutes (m : ℕ)
  | everyHours (h : ℕ)
  | daily (hour minute : ℕ)
  | custom (expression : String)
  deriving DecidableEq

namespace CronSchedule

/-- `interval_secs`. -/
def intervalSecs : CronSchedule → ℕ
  | .everySeconds s => max s 1
  | .everyMinutes m => max m 1 * 60 % 2 ^ 64
  | .everyHours h => max h 1 * 3600 % 2 ^ 64
  | .daily _ _ => 86400
  | .custom _ => 3600

/-- `next_after`. -/
def nextAfter (schedule : CronSchedule) (now : ℕ) : ℕ :=
  match schedule with
  | .daily hour minute =>
      let targetToday := (now - now % 86400 + hour * 3600 + minute * 60) % 2 ^ 64
      if now < targetToday then targetToday else (targetToday + 86400) % 2 ^ 64
  | other => saturatingAddU64 now other.intervalSecs

end CronSchedule

/-- `CronJob`. -/
structure CronJob where
  id : String
  name : String
  schedule : CronSchedule
  url : String
  method : String
  enabled : Bool
  lastRun : ℕ
  nextRun : ℕ
  runCount : ℕ
  lastStatus : Option (Fin (2 ^ 16))
  failureCount : ℕ
  deriving DecidableEq

/-- Why a task has no response. -/
inductive CronError
  | pin (e : UrlGuardError)
  | client (e : String)
  | send (e : String)
  deriving DecidableEq

/-- The status of the response, or an error. -/
abbrev CronOutcome := Except CronError (Fin (2 ^ 16))

namespace CronJob

/-- The job that `add_job` pushes. -/
def new (now : ℕ) (id name : String) (schedule : CronSchedule) (url method : String) : CronJob :=
  ⟨id, name, schedule, url, method, true, 0, schedule.nextAfter now, 0, none, 0⟩

/-- The end of `tick`: what a task leaves in its job. -/
def record (job : CronJob) (now : ℕ) (outcome : CronOutcome) : CronJob :=
  let job := { job with lastRun := now, runCount := saturatingAddU64 job.runCount 1 }
  let failed := { job with failureCount := saturatingAddU64 job.failureCount 1 }
  match outcome with
  | .ok status =>
      if 200 ≤ status.val ∧ status.val < 300 then { job with lastStatus := some status }
      else { failed with lastStatus := some status }
  | .error _ => failed

end CronJob

/-- How far a task is. -/
inductive CronStage
  | spawned
  | resolving
  | pinned (p : PinnedUrl)
  | done (outcome : CronOutcome)

/-- A task, with what `tick` has copied from the job, and the time of the tick. -/
structure CronTask where
  id : String
  url : String
  method : String
  now : ℕ
  stage : CronStage

/-- The method with which a task sends. -/
def sentCronMethod (method : String) : String :=
  let upper := Text.toUppercase method
  if upper ∈ ["POST", "PUT", "DELETE"] then upper else "GET"

/-- A request that a task has sent, with what its client has met. -/
structure CronRequest where
  pinned : PinnedUrl
  url : String
  method : String
  net : Network

namespace CronRequest

/-- The client of the task. -/
def client (r : CronRequest) : HttpClient := r.pinned.buildClient

/-- The addresses to which the client connects. -/
def connections (lib : UrlLib) (r : CronRequest) : List IpAddr :=
  match lib.parse r.url with
  | .ok url => r.client.connections r.net url
  | .error _ => []

end CronRequest

/-- The scheduler with its tasks. -/
structure CronState where
  jobs : List CronJob
  inFlight : List String
  pinCache : PinCache
  tasks : List CronTask
  /-- All requests so far. -/
  sent : List CronRequest

/-- The steps of a task. -/
inductive CronTaskAction
  | check (now : ℕ)
  | finish (now : ℕ) (resolve : Resolver)
  | refuse (e : String)
  | send (net : Network) (response : Except String (Fin (2 ^ 16)))
  | collect

/-- The steps. A task is known by its place in the list of tasks. -/
inductive CronAction
  | addJob (now : ℕ) (id name : String) (schedule : CronSchedule) (url method : String)
  | removeJob (id : String)
  | tick (now : ℕ)
  | task (i : ℕ) (a : CronTaskAction)

/-- The start of `tick`: due jobs that are not in flight go to tasks, and their next run is set. -/
def collectDue (now : ℕ) : List CronJob → List String → List CronJob × List String × List CronTask
  | [], inFlight => ([], inFlight, [])
  | job :: jobs, inFlight =>
      if job.enabled = false ∨ now < job.nextRun ∨ job.id ∈ inFlight then
        let (jobs, inFlight, due) := collectDue now jobs inFlight
        (job :: jobs, inFlight, due)
      else
        let (jobs, inFlight, due) := collectDue now jobs (job.id :: inFlight)
        ({ job with nextRun := job.schedule.nextAfter now } :: jobs, inFlight,
          ⟨job.id, job.url, job.method, now, .spawned⟩ :: due)

namespace CronState

/-- A task moves on. -/
def advance (s : CronState) (i : ℕ) (task : CronTask) (stage : CronStage) : CronState :=
  { s with tasks := s.tasks.set i { task with stage } }

/-- A task ends, and its job is no longer in flight. -/
def leave (s : CronState) (i : ℕ) (task : CronTask) (outcome : CronOutcome) : CronState :=
  { s.advance i task (.done outcome) with inFlight := s.inFlight.erase task.id }

/-- The answer of the cache of pins to a task. -/
def stageOfCached : Option PinnedUrl → CronStage
  | some p => .pinned p
  | none => .resolving

/-- One step of one task. -/
def stepTask (lib : UrlLib) (s : CronState) (i : ℕ) (task : CronTask) (a : CronTaskAction) :
    Option CronState :=
  match task.stage, a with
  | .spawned, .check now =>
      some (s.advance i task (stageOfCached (s.pinCache.cached now task.url)))
  | .resolving, .finish now resolve =>
      match pinUpstreamUrl lib resolve task.url with
      | .ok p =>
          some { s.advance i task (.pinned p) with pinCache := s.pinCache.keep now task.url p }
      | .error e => some (s.leave i task (.error (.pin e)))
  -- No client is built.
  | .pinned _, .refuse e => some (s.leave i task (.error (.client e)))
  | .pinned p, .send net response =>
      some { s.leave i task (response.mapError .send) with
        sent := ⟨p, task.url, sentCronMethod task.method, net⟩ :: s.sent }
  | .done outcome, .collect =>
      some { s with
        -- The first job with the id, unless it has been removed.
        jobs :=
          match s.jobs.findIdx? (·.id = task.id) with
          | some k => s.jobs.modify k fun job => job.record task.now outcome
          | none => s.jobs
        tasks := s.tasks.eraseIdx i }
  | _, _ => none

/-- One step. -/
def step (lib : UrlLib) (s : CronState) : CronAction → Option CronState
  | .addJob now id name schedule url method =>
      some { s with jobs := s.jobs ++ [.new now id name schedule url method] }
  | .removeJob id =>
      some { s with jobs := s.jobs.filter (·.id ≠ id), inFlight := s.inFlight.erase id }
  | .tick now =>
      let (jobs, inFlight, due) := collectDue now s.jobs s.inFlight
      some { s with jobs, inFlight, tasks := s.tasks ++ due }
  | .task i a => s.tasks[i]?.bind fun task => s.stepTask lib i task a

/-- Every interleaving of ticks, tasks and changes of the list of jobs. -/
def machine (lib : UrlLib) : Machine CronState CronAction := ⟨step lib⟩

/-- The scheduler with the jobs that were loaded. -/
def initial (jobs : List CronJob) : CronState := ⟨jobs, [], .new 60, [], []⟩

/-- What a task sends with was pinned for its URL. -/
def PinnedBy (lib : UrlLib) (url : String) (p : PinnedUrl) : Prop :=
  ∃ resolve, pinUpstreamUrl lib resolve url = .ok p

/-- Pins belong to the URLs of the entries, the tasks and the requests that have them. -/
structure Inv (lib : UrlLib) (s : CronState) : Prop where
  entries : ∀ url p exp, s.pinCache.inner.lookup url = some (p, exp) → PinnedBy lib url p
  tasks : ∀ task ∈ s.tasks, ∀ p, task.stage = .pinned p → PinnedBy lib task.url p
  sent : ∀ r ∈ s.sent, PinnedBy lib r.url r.pinned

variable {lib : UrlLib} {s t : CronState}

/-- Tasks start without a pin. -/
theorem stage_of_mem_collectDue {now : ℕ} {jobs : List CronJob} {inFlight : List String} :
    ∀ task ∈ (collectDue now jobs inFlight).2.2, task.stage = .spawned := by
  induction jobs generalizing inFlight with
  | nil => exact fun _ h => nomatch h
  | cons job jobs ih =>
      rw [collectDue]
      split
      · exact ih
      · intro task htask
        obtain rfl | htask := List.mem_cons.mp htask
        · rfl
        · exact ih task htask

/-- What the cache answers was pinned for the URL. -/
theorem pinnedBy_of_cached (hs : s.Inv lib) {now : ℕ} {url : String} {p : PinnedUrl}
    (hcached : s.pinCache.cached now url = some p) : PinnedBy lib url p := by
  unfold PinCache.cached at hcached
  split at hcached
  next p' exp hlookup =>
    obtain ⟨-, ⟨⟩⟩ := Option.ite_none_right_eq_some.mp hcached
    exact hs.entries url p exp hlookup
  next => cases hcached

/-- A task that moves on keeps the invariant if its stage has no pin but one of its URL. -/
theorem Inv.advance (hs : s.Inv lib) {i : ℕ} {task : CronTask} {stage : CronStage}
    (hstage : ∀ p, stage = .pinned p → PinnedBy lib task.url p) :
    (s.advance i task stage).Inv lib := by
  refine { hs with tasks := fun task' htask' p hp => ?_ }
  obtain htask' | rfl := List.mem_or_eq_of_mem_set htask'
  · exact hs.tasks task' htask' p hp
  · exact hstage p hp

/-- A task that ends keeps the invariant. -/
theorem Inv.leave (hs : s.Inv lib) {i : ℕ} {task : CronTask} {outcome : CronOutcome} :
    (s.leave i task outcome).Inv lib := by
  have h : (s.advance i task (.done outcome)).Inv lib := hs.advance fun _ h => nomatch h
  exact { h with }

/-- Every step of a task keeps the invariant. -/
theorem inv_stepTask {i : ℕ} {task : CronTask} {a : CronTaskAction} (hs : s.Inv lib)
    (htask : task ∈ s.tasks) (h : s.stepTask lib i task a = some t) : t.Inv lib := by
  unfold stepTask at h
  split at h
  case h_1 now hstage =>
    -- The cache is asked first.
    cases h
    refine hs.advance fun p hp => ?_
    cases hcached : s.pinCache.cached now task.url with
    | none =>
        rw [hcached] at hp
        cases hp
    | some p' =>
        rw [hcached] at hp
        cases hp
        exact pinnedBy_of_cached hs hcached
  case h_2 now resolve hstage =>
    -- The URL is pinned, and the cache keeps the pin.
    cases hpin : pinUpstreamUrl lib resolve task.url with
    | error e =>
        rw [hpin] at h
        cases h
        exact hs.leave
    | ok p =>
        rw [hpin] at h
        cases h
        have hpinned : PinnedBy lib task.url p := ⟨resolve, hpin⟩
        have h : (s.advance i task (.pinned p)).Inv lib := by
          refine hs.advance ?_
          rintro _ ⟨⟩
          exact hpinned
        refine { h with entries := fun url p' exp hlookup => ?_ }
        rcases DashMap.lookup_insert_cases hlookup with ⟨hurl, hnew⟩ | ⟨-, hold⟩
        · obtain ⟨rfl, -⟩ := Prod.mk.inj hnew
          exact hurl ▸ hpinned
        · exact hs.entries url p' exp hold
  case h_3 p e hstage =>
    cases h
    exact hs.leave
  case h_4 p net response hstage =>
    -- The request goes out with what the stage has pinned.
    cases h
    refine { hs.leave with sent := fun r hr => ?_ }
    obtain rfl | hr := List.mem_cons.mp hr
    · exact hs.tasks task htask p hstage
    · exact hs.sent r hr
  case h_5 outcome hstage =>
    cases h
    exact { hs with tasks := fun task' htask' => hs.tasks task' (List.mem_of_mem_eraseIdx htask') }
  case h_6 => cases h

/-- Every step keeps the invariant. -/
theorem inv_step {a : CronAction} (hs : s.Inv lib) (h : s.step lib a = some t) : t.Inv lib := by
  cases a with
  | addJob now id name schedule url method =>
      cases h
      exact { hs with }
  | removeJob id =>
      cases h
      exact { hs with }
  | tick now =>
      cases h
      refine { hs with tasks := fun task htask p hp => ?_ }
      obtain htask | htask := List.mem_append.mp htask
      · exact hs.tasks task htask p hp
      · rw [stage_of_mem_collectDue task htask] at hp
        cases hp
  | task i a =>
      obtain ⟨task, htask, h⟩ := Option.bind_eq_some_iff.mp h
      exact inv_stepTask hs (List.mem_of_getElem? htask) h

/-- A task sends only with a pin of its URL, in every run. -/
theorem inv_of_runs {jobs : List CronJob} {as : List CronAction}
    (hrun : (machine lib).Runs Machine.unrestricted (initial jobs) as s) : s.Inv lib := by
  refine hrun.invariant (I := Inv lib) (fun _ _ _ hs _ h => inv_step hs h) ?_
  refine ⟨fun url p exp hlookup => ?_, fun _ h => (nomatch h), fun _ h => nomatch h⟩
  simp [initial, PinCache.new] at hlookup

end CronState

/-- A request stays at allowed addresses exactly if the redirects that its client follows lead to
allowed hosts. -/
theorem CronRequest.connections_allowed_iff {lib : UrlLib} {r : CronRequest}
    (hpinned : CronState.PinnedBy lib r.url r.pinned) :
    (∀ ip ∈ r.connections lib, isIpAllowed ip .upstreamOnly = true) ↔
      ∀ q ∈ r.client.redirects r.net, r.client.HostAllowed r.net .upstreamOnly q := by
  obtain ⟨resolve, hpin⟩ := hpinned
  have hpin := ((upstream_iff.2 _).mp hpin).2
  obtain ⟨url, hparse, hguarded, -⟩ := pinUrl_eq_ok_iff.mp hpin
  have hresolveTo : ∀ p ∈ r.client.resolveTo, isIpAllowed p.2 .upstreamOnly = true := by
    intro p hp
    obtain rfl := List.mem_singleton.mp hp
    exact (safePin_of_pinUrl hpin).allowed
  rw [connections, hparse]
  dsimp only
  rw [HttpClient.connections_allowed_iff hresolveTo hguarded.isWeb, and_iff_right]
  intro host hhost
  cases hguarded.hostStr.symm.trans hhost
  refine ⟨fun ip hip _ => hguarded.literalAddr ip hip, fun _ hlookup => ?_⟩
  -- The name of the URL is overridden, so it is not resolved again.
  simp [client, PinnedUrl.buildClient] at hlookup

/-- In every run, cron requests stay at allowed addresses exactly if all redirects that are followed
lead to allowed hosts. -/
theorem CronState.cronConnections_allowed_iff {lib : UrlLib} {jobs : List CronJob}
    {as : List CronAction} {s : CronState}
    (hrun : (machine lib).Runs Machine.unrestricted (initial jobs) as s) :
    (∀ r ∈ s.sent, ∀ ip ∈ r.connections lib, isIpAllowed ip .upstreamOnly = true) ↔
      ∀ r ∈ s.sent, ∀ q ∈ r.client.redirects r.net, r.client.HostAllowed r.net .upstreamOnly q :=
  forall₂_congr fun r hr => CronRequest.connections_allowed_iff ((inv_of_runs hrun).sent r hr)

/-- A network in which the server answers the first request with a redirect to a URL. -/
def redirecting (location : ParsedUrl) : Network where
  resolve _ _ := [.v4 93 184 216 34]
  tries _ _ := true
  location i := if i = 0 then some location else none

/-- A scheduler that has loaded one job for a public URL. -/
def oneJob : CronState :=
  .initial [⟨"j1", "job", .everySeconds 60, "http://api.test/", "get", true, 0, 0, 0, none, 0⟩]

/-- The job runs once, and the server answers with a redirect. -/
def redirectedJob (location : ParsedUrl) : List CronAction :=
  [.tick 100, .task 0 (.check 100), .task 0 (.finish 100 publicResolver),
    .task 0 (.send (redirecting location) (.ok 200)), .task 0 .collect]

/-- A redirect to another public host leads to an allowed one. -/
theorem cronConnections_allowed_iff_public :
    ∃ s, (CronState.machine .plain).Runs Machine.unrestricted oneJob
        (redirectedJob ⟨"http", some "www.test", none, some 80⟩) s ∧
      s.sent.length = 1 ∧
        ∀ r ∈ s.sent, ∀ q ∈ r.client.redirects r.net,
          r.client.HostAllowed r.net .upstreamOnly q := by
  have hrun : (CronState.machine .plain).Runs Machine.unrestricted oneJob
      (redirectedJob ⟨"http", some "www.test", none, some 80⟩) _ := Machine.runs_of_exec rfl
  refine ⟨_, hrun, rfl, (CronState.cronConnections_allowed_iff hrun).mp ?_⟩
  decide +kernel

/-- A redirect leads a cron request to the metadata of the host. -/
theorem cronConnections_forbidden :
    ∃ s, (CronState.machine .plain).Runs Machine.unrestricted oneJob
        (redirectedJob ⟨"http", some "169.254.169.254", none, some 80⟩) s ∧
      ¬ ∀ r ∈ s.sent, ∀ ip ∈ r.connections .plain, isIpAllowed ip .upstreamOnly = true := by
  refine ⟨_, Machine.runs_of_exec rfl, ?_⟩
  decide +kernel

end XiraNet

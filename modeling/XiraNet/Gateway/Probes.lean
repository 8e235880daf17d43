import Mathlib.Data.List.Basic
import XiraNet.Lib.Runs
import XiraNet.Gateway.Handler

/-!
# Probe accounting of the gateway handler

The breakers together with the executions of `gateway_handler` (`gateway/mod.rs`) that passed
`allow_request` and have not returned. After the admission an execution either answers from the
cache and returns, or contacts an upstream, records the result and then returns through one of
the later return paths. Only the recording touches the breaker.

* `probesAccounted_of_runs`: if no execution leaves through the cache HIT while every
  unfinished execution of the service is counted as a probe, then a half-open breaker without
  unfinished executions counts no probe and admits the next request.
* `runs_handlerSteps`: what `gateway_handler` does to the breakers is a run of this system.
* `probesAccounted_fails`: a cache HIT of the only probe leaves the breaker half-open with one
  probe in flight and nothing that could ever take it off the count.
-/

namespace XiraNet

/-- Where an execution of `gateway_handler` stands after `allow_request` returned `Ok`. -/
inductive ExecPhase
  /-- Before the cache decision. -/
  | admitted
  /-- The upstream has been selected and contacted. -/
  | forwarding
  /-- `record_success` or `record_failure` has been called. -/
  | recorded
  deriving DecidableEq, Repr

/-- The return paths of `gateway_handler` that lie behind the recording of the result. -/
inductive ReturnPath
  /-- A plugin's `on_response` hook blocks the response. -/
  | blockedByPlugin
  /-- The response built with the service's transform rules. -/
  | transformed
  /-- The final response. -/
  | completed
  deriving DecidableEq, Repr

/-- The breakers and the unfinished executions, each with its service and phase. -/
structure ProbeState where
  manager : CircuitBreakerManager
  running : List (Uuid × ExecPhase)

/-- One step of an execution, or a configuration change by the admin API. -/
inductive ProbeAction
  /-- A request reaches `allow_request`; a rejected one is answered with 503 at once. -/
  | arrive (now : Instant) (service : Uuid)
  /-- The cache HIT return. -/
  | cacheHit (service : Uuid)
  /-- The upstream is contacted. -/
  | forward (service : Uuid)
  /-- The result of the upstream, of this status, is recorded. -/
  | record (now : Instant) (service : Uuid) (status : ℕ)
  /-- The execution returns. -/
  | respond (service : Uuid) (path : ReturnPath)
  /-- `update_config`. -/
  | updateConfig (failureThreshold resetTimeoutSecs halfOpenMaxRequests : ℕ)
  deriving DecidableEq, Repr

namespace ProbeState

/-- The number of unfinished executions of a service. -/
def unfinished (s : ProbeState) (service : Uuid) : ℕ :=
  s.running.countP fun e => e.1 = service

/-- The number of executions of a service whose result is not recorded yet. -/
def pending (s : ProbeState) (service : Uuid) : ℕ :=
  s.running.countP fun e => e.1 = service ∧ e.2 ≠ .recorded

/-- Replace one execution of `service` in phase `phase` by `next`. -/
def move (s : ProbeState) (service : Uuid) (phase : ExecPhase) (next : Option ExecPhase) :
    Option ProbeState :=
  if (service, phase) ∈ s.running then
    some { s with
      running := (next.map (service, ·)).toList ++ s.running.erase (service, phase) }
  else none

/-- The recorded result: a status of at least 500 is a failure. -/
def recordResult (s : ProbeState) (now : Instant) (service : Uuid) (status : ℕ) : ProbeState :=
  { s with
    manager :=
      if 500 ≤ status then s.manager.recordFailure now service
      else s.manager.recordSuccess now service }

/-- One step. -/
def step (s : ProbeState) : ProbeAction → Option ProbeState
  -- A rejection may still have inserted the breaker of a new service.
  | .arrive now service =>
      match s.manager.allowRequest now service with
      | (.ok (), manager) => some { manager, running := (service, .admitted) :: s.running }
      | (.error _, manager) => some { s with manager }
  | .cacheHit service => s.move service .admitted none
  | .forward service => s.move service .admitted (some .forwarding)
  | .record now service status =>
      (s.move service .forwarding (some .recorded)).map (·.recordResult now service status)
  | .respond service _ => s.move service .recorded none
  | .updateConfig failureThreshold resetTimeoutSecs halfOpenMaxRequests =>
      some { s with
        manager :=
          s.manager.updateConfig failureThreshold resetTimeoutSecs halfOpenMaxRequests }

/-- The breakers right after the start. -/
def initial (failureThreshold resetTimeoutSecs halfOpenMaxRequests : ℕ) : ProbeState where
  manager := .new failureThreshold resetTimeoutSecs halfOpenMaxRequests
  running := []

/-- Every interleaving of executions and configuration changes. -/
def machine : Machine ProbeState ProbeAction := ⟨step⟩

/-- What probe accounting promises of a service: with no execution unfinished, a half-open
breaker counts no probe in flight and admits the next request. -/
def ProbesAccounted (s : ProbeState) (service : Uuid) : Prop :=
  ∀ entry, s.manager.breakers.lookup service = some entry → entry.state = .halfOpen →
    s.unfinished service = 0 →
      entry.inFlightProbes = 0 ∧ ∀ now, (s.manager.allowRequest now service).1 = .ok ()

/-- The steps that keep the accounting: a cache HIT return out of a half-open breaker leaves at
least as many executions that will still record their result as there are probes counted. -/
def KeepsAccounting (s : ProbeState) : ProbeAction → Prop
  | .cacheHit service =>
      ∀ entry ∈ s.manager.breakers.lookup service, entry.state = .halfOpen →
        entry.inFlightProbes < s.pending service
  | _ => True

instance (s : ProbeState) (a : ProbeAction) : Decidable (s.KeepsAccounting a) := by
  cases a <;> unfold KeepsAccounting <;> infer_instance

/-- The invariant: a half-open breaker counts at most the executions still to be recorded. -/
def Bounded (s : ProbeState) : Prop :=
  ∀ service entry, s.manager.breakers.lookup service = some entry → entry.state = .halfOpen →
    entry.inFlightProbes ≤ s.pending service

/-- An admitted execution counts once for its own service. -/
theorem pending_cons (manager : CircuitBreakerManager) (running : List (Uuid × ExecPhase))
    (service service' : Uuid) :
    (ProbeState.mk manager ((service, .admitted) :: running)).pending service' =
      (ProbeState.mk manager running).pending service' + if service = service' then 1 else 0 := by
  simp [pending, List.countP_cons]

/-- Phase changes and returns leave the breakers alone. -/
theorem manager_move {s s' : ProbeState} {service : Uuid} {phase : ExecPhase}
    {next : Option ExecPhase} (h : s.move service phase next = some s') :
    s'.manager = s.manager := by
  unfold move at h
  split at h
  next =>
    cases h
    rfl
  next => cases h

/-- What a phase change or return does to the executions still to be recorded. -/
theorem pending_move {s s' : ProbeState} {service : Uuid} {phase : ExecPhase}
    {next : Option ExecPhase} (h : s.move service phase next = some s') (service' : Uuid) :
    s'.pending service' + (if service = service' ∧ phase ≠ .recorded then 1 else 0) =
      s.pending service' +
        (if service = service' ∧ ∃ p ∈ next, p ≠ .recorded then 1 else 0) := by
  unfold move at h
  split at h
  next hmem =>
    cases h
    -- The running executions are the one that moves and the others, in some order.
    have hperm := (List.perm_cons_erase hmem).countP_eq
      fun e => decide (e.1 = service' ∧ e.2 ≠ .recorded)
    unfold pending
    rw [hperm]
    cases next with
    | none => simp [List.countP_cons]
    | some p =>
        simp [List.countP_cons]
        omega
  next => cases h

/-- An admission keeps the invariant: a new probe is a new execution to be recorded. -/
theorem bounded_arrive {s s' : ProbeState} {now : Instant} {service : Uuid}
    (h : s.step (.arrive now service) = some s') (hs : s.Bounded) : s'.Bounded := by
  intro service' entry hentry hhalf
  have hlookup := s.manager.lookup_allowRequest now service service'
  have hresult : (s.manager.allowRequest now service).1 =
      ((s.manager.entryOrInsert now service).allowRequest s.manager.config now).1 := rfl
  have hcases := CircuitBreakerEntry.allowRequest_halfOpen s.manager.config now
    (s.manager.entryOrInsert now service)
  simp only [step] at h
  split at h
  next manager hallow =>
    cases h
    have hcount : (ProbeState.mk manager s.running).pending service' = s.pending service' := rfl
    rw [pending_cons, hcount]
    rw [hallow] at hlookup
    rw [hlookup] at hentry
    split at hentry
    next heq =>
      subst heq
      cases hentry
      rw [if_pos rfl]
      rcases hcases hhalf with ⟨_, hone⟩ | ⟨hold, _, hle⟩ | ⟨hold, hsame⟩
      · omega
      -- One more probe, and one more execution to be recorded.
      · have := hs _ _ (CircuitBreakerManager.lookup_of_halfOpen hold) hold
        omega
      · have := hs _ _ (CircuitBreakerManager.lookup_of_halfOpen hold) hold
        rw [hsame]
        omega
    next =>
      have := hs service' entry hentry hhalf
      omega
  next error manager hallow =>
    cases h
    rw [hallow] at hlookup hresult
    rw [hlookup] at hentry
    split at hentry
    next heq =>
      subst heq
      cases hentry
      -- A rejected request leaves the entry as it was.
      rcases hcases hhalf with ⟨hok, _⟩ | ⟨_, hok, _⟩ | ⟨hold, hsame⟩
      · rw [← hresult] at hok
        cases hok
      · rw [← hresult] at hok
        cases hok
      · rw [hsame]
        exact hs _ _ (CircuitBreakerManager.lookup_of_halfOpen hold) hold
    next => exact hs service' entry hentry hhalf

/-- Recording a result takes one execution off and, in a half-open period that goes on, one
probe off the count. -/
theorem recordResult_halfOpen {s : ProbeState} {now : Instant} {service service' : Uuid}
    {status : ℕ} {entry : CircuitBreakerEntry}
    (hentry : (s.recordResult now service status).manager.breakers.lookup service' = some entry)
    (hhalf : entry.state = .halfOpen) :
    ∃ old, s.manager.breakers.lookup service' = some old ∧ old.state = .halfOpen ∧
      entry.inFlightProbes = old.inFlightProbes - if service = service' then 1 else 0 := by
  unfold recordResult at hentry
  split at hentry
  next =>
    rw [CircuitBreakerManager.lookup_recordFailure] at hentry
    split at hentry
    next =>
      cases hentry
      exact absurd hhalf (CircuitBreakerEntry.recordFailure_not_halfOpen _ _ _)
    next hne => exact ⟨entry, hentry, hhalf, by simp [Ne.symm hne]⟩
  next =>
    rw [CircuitBreakerManager.lookup_recordSuccess] at hentry
    split at hentry
    next heq =>
      subst heq
      obtain ⟨old, hold, rfl⟩ := Option.map_eq_some_iff.mp hentry
      obtain ⟨holdHalf, hflight⟩ := CircuitBreakerEntry.recordSuccess_halfOpen _ _ _ hhalf
      exact ⟨old, hold, holdHalf, by simpa using hflight⟩
    next hne => exact ⟨entry, hentry, hhalf, by simp [Ne.symm hne]⟩

/-- Every step that keeps the accounting keeps the invariant. -/
theorem bounded_step (s : ProbeState) (a : ProbeAction) (s' : ProbeState) (hs : s.Bounded)
    (hok : s.KeepsAccounting a) (h : s.step a = some s') : s'.Bounded := by
  cases a with
  | arrive now service => exact bounded_arrive h hs
  | cacheHit service =>
      intro service' entry hentry hhalf
      rw [manager_move h] at hentry
      have hcount := pending_move h service'
      have hle := hs service' entry hentry hhalf
      -- The returning execution will not record anything, so the bound must have been strict.
      by_cases heq : service = service'
      · subst heq
        have hlt := hok entry hentry hhalf
        simp at hcount
        omega
      · simp [heq] at hcount
        omega
  | forward service =>
      intro service' entry hentry hhalf
      rw [manager_move h] at hentry
      have hcount := pending_move h service'
      have hle := hs service' entry hentry hhalf
      simp at hcount
      omega
  | record now service status =>
      obtain ⟨mid, hmid, rfl⟩ := Option.map_eq_some_iff.mp h
      intro service' entry hentry hhalf
      obtain ⟨old, hold, holdHalf, hflight⟩ := recordResult_halfOpen hentry hhalf
      rw [manager_move hmid] at hold
      have hcount := pending_move hmid service'
      have hle := hs service' old hold holdHalf
      have hsame : (mid.recordResult now service status).pending service' =
        mid.pending service' := rfl
      rw [hsame]
      -- An execution of the service leaves both counts, one of another service neither.
      by_cases heq : service = service'
      · simp [heq] at hcount hflight
        omega
      · simp [heq] at hcount hflight
        omega
  | respond service path =>
      intro service' entry hentry hhalf
      rw [manager_move h] at hentry
      have hcount := pending_move h service'
      have hle := hs service' entry hentry hhalf
      simp at hcount
      omega
  | updateConfig t r m =>
      cases h
      exact hs

/-- An execution still to be recorded is unfinished. -/
theorem pending_le_unfinished (s : ProbeState) (service : Uuid) :
    s.pending service ≤ s.unfinished service := by
  apply List.countP_mono_left
  intro e _ he
  simp only [decide_eq_true_eq] at he ⊢
  exact he.1

/-- Under the invariant the probes are accounted for. -/
theorem Bounded.probesAccounted {s : ProbeState} (hs : s.Bounded) (service : Uuid) :
    s.ProbesAccounted service := by
  intro entry hentry hhalf hnone
  have hzero : entry.inFlightProbes = 0 := by
    have hle := hs service entry hentry hhalf
    have hpending := s.pending_le_unfinished service
    omega
  refine ⟨hzero, fun now => ?_⟩
  have horInsert : s.manager.entryOrInsert now service = entry := by
    simp [CircuitBreakerManager.entryOrInsert, hentry]
  -- Whatever the configuration, a half-open breaker has room for one probe.
  have hroom : 0 < max s.manager.config.halfOpenMaxRequests 1 := by omega
  simp [CircuitBreakerManager.allowRequest, horInsert, CircuitBreakerEntry.allowRequest, hhalf,
    hzero, hroom]

/-- Nothing runs and no breaker is half-open at the start. -/
theorem bounded_initial (failureThreshold resetTimeoutSecs halfOpenMaxRequests : ℕ) :
    (initial failureThreshold resetTimeoutSecs halfOpenMaxRequests).Bounded := by
  intro service entry hentry
  simp [initial, CircuitBreakerManager.new] at hentry

section Handler

/-- The execution that is unfinished after an outcome of the handler: it has chosen an upstream,
even if the method is one that is not forwarded. -/
def contacted : GatewayOutcome → List (Uuid × ExecPhase)
  | .respond _ => []
  | .cacheHit _ => []
  | .forward f => [(f.service.id, .forwarding)]
  | .notSupported service _ => [(service.id, .forwarding)]

/-- The steps of one execution of `gateway_handler`, up to its contact with an upstream. -/
def handlerSteps (env : GatewayEnv) (g : Gateway) (req : HttpRequest) : List ProbeAction :=
  match Gateway.runChecks env g req with
  | .error _ => []
  | .ok service =>
      .arrive env.now service.id ::
        match (Gateway.gatewayHandler env g req).1 with
        | .respond _ => []
        | .cacheHit _ => [.cacheHit service.id]
        | .forward _ => [.forward service.id]
        | .notSupported _ _ => [.forward service.id]

/-- The choice of an upstream leaves the breakers alone and an execution behind. -/
theorem forward_contacted (env : GatewayEnv) (g : Gateway) (service : ServiceEntry)
    (req : HttpRequest) : (Gateway.forward env g service req).2.cbManager = g.cbManager ∧
      ((∃ f, (Gateway.forward env g service req).1 = .forward f ∧ f.service = service) ∨
        ∃ upstream, (Gateway.forward env g service req).1 = .notSupported service upstream) := by
  unfold Gateway.forward
  dsimp only
  split
  next => exact ⟨rfl, .inl ⟨_, rfl, rfl⟩⟩
  next => exact ⟨rfl, .inr ⟨_, rfl⟩⟩

/-- What an execution of `gateway_handler` does to the breakers, and whether it goes on after
its contact with an upstream, is a run of this system. -/
theorem runs_handlerSteps (env : GatewayEnv) (g : Gateway) (req : HttpRequest)
    (running : List (Uuid × ExecPhase)) :
    machine.Runs Machine.unrestricted ⟨g.cbManager, running⟩ (handlerSteps env g req)
      ⟨(Gateway.gatewayHandler env g req).2.cbManager,
        contacted (Gateway.gatewayHandler env g req).1 ++ running⟩ := by
  unfold handlerSteps Gateway.gatewayHandler
  cases Gateway.runChecks env g req with
  | error res => exact .nil _
  | ok service =>
      dsimp only
      cases hallow : g.cbManager.allowRequest env.now service.id with
      | mk result cbManager =>
          cases result with
          | error state =>
              refine .cons trivial ?_ (.nil _)
              simp only [machine, step, hallow]
              rfl
          | ok admission =>
              have harrive : machine.step ⟨g.cbManager, running⟩ (.arrive env.now service.id) =
                  some ⟨cbManager, (service.id, .admitted) :: running⟩ := by
                simp only [machine, step, hallow]
              refine .cons trivial harrive ?_
              -- The admitted execution leaves its phase, through the cache or to an upstream.
              have hmove : ∀ next,
                  (ProbeState.mk cbManager ((service.id, .admitted) :: running)).move
                    service.id .admitted next =
                      some ⟨cbManager, (next.map (service.id, ·)).toList ++ running⟩ := by
                intro next
                simp [move]
              dsimp only
              generalize hcounted : ({ g with
                cbManager
                registry := g.registry.incrementRequestCount service.id } : Gateway) = counted
              have hsame : counted.cbManager = cbManager := by rw [← hcounted]
              cases Gateway.cacheLookup env counted req with
              | some reply =>
                  simp only [hsame]
                  exact .cons trivial (hmove none) (.nil _)
              | none =>
                  obtain ⟨hforward, ⟨f, hf, rfl⟩ | ⟨upstream, hf⟩⟩ :=
                    forward_contacted env counted service req
                  · simp only [hf, hforward, hsame]
                    exact .cons trivial (hmove (some .forwarding)) (.nil _)
                  · simp only [hf, hforward, hsame]
                    exact .cons trivial (hmove (some .forwarding)) (.nil _)

end Handler

/-- In every run whose cache HIT returns keep the accounting, a half-open breaker of a service
without unfinished executions counts no probe in flight and admits the next request. -/
theorem probesAccounted_of_runs (failureThreshold resetTimeoutSecs halfOpenMaxRequests : ℕ)
    (as : List ProbeAction) (s : ProbeState)
    (hrun : machine.Runs KeepsAccounting
      (initial failureThreshold resetTimeoutSecs halfOpenMaxRequests) as s)
    (service : Uuid) : s.ProbesAccounted service :=
  (hrun.invariant bounded_step (bounded_initial _ _ _)).probesAccounted service

/-- Two requests are admitted, one fails and opens the breaker of service 7; the timeout passes,
a probe is admitted and the other request is then answered from the cache. -/
def recoveringRun : List ProbeAction :=
  [.arrive 0 7, .arrive 0 7, .forward 7, .record 1 7 502, .respond 7 .completed,
    .arrive 2000000000 7, .cacheHit 7]

/-- The accounting on a run that takes the cache HIT return while the breaker is half-open. -/
theorem probesAccounted_recoveringRun :
    ∃ s, machine.Runs KeepsAccounting (initial 1 1 1) recoveringRun s ∧
      s.ProbesAccounted 7 := by
  obtain ⟨s, hs⟩ : ∃ s, machine.exec KeepsAccounting (initial 1 1 1) recoveringRun = some s :=
    Option.isSome_iff_exists.mp (by decide)
  have hrun := Machine.runs_of_exec hs
  exact ⟨s, hrun, probesAccounted_of_runs 1 1 1 recoveringRun s hrun 7⟩

/-- A failing request opens the breaker of service 7, and the probe admitted after the timeout is
answered from the cache. -/
def cachedProbeRun : List ProbeAction :=
  [.arrive 0 7, .forward 7, .record 1 7 502, .respond 7 .completed,
    .arrive 2000000001 7, .cacheHit 7]

/-- Without a condition on the cache HIT return the accounting fails: nothing is unfinished, the
breaker is half-open, one probe is counted and every request is rejected. -/
theorem probesAccounted_fails :
    ¬ ∀ (failureThreshold resetTimeoutSecs halfOpenMaxRequests : ℕ) (as : List ProbeAction)
      (s : ProbeState), machine.Runs Machine.unrestricted
        (initial failureThreshold resetTimeoutSecs halfOpenMaxRequests) as s →
      ∀ service, s.ProbesAccounted service := by
  intro hall
  have hend : ∃ s, machine.exec Machine.unrestricted (initial 1 1 1) cachedProbeRun = some s ∧
      s.manager.breakers.lookup 7 = some ⟨.halfOpen, 1, 0, 1, some 1, 2000000001⟩ ∧
      s.unfinished 7 = 0 := ⟨_, rfl, rfl, rfl⟩
  obtain ⟨s, hs, hlookup, hnone⟩ := hend
  have := hall 1 1 1 cachedProbeRun s (Machine.runs_of_exec hs) 7 _ hlookup rfl hnone
  exact absurd this.1 (by decide)

end ProbeState

end XiraNet

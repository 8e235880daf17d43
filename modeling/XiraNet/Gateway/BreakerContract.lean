import XiraNet.Lib.Runs
import XiraNet.Gateway.CircuitBreaker

/-!
# Thresholds and timeouts of the breaker

The breakers at a fixed configuration, under any sequence of `allow_request`, `record_success`
and `record_failure` calls for any services (`gateway/circuit_breaker.rs`). Beside the breakers
stands the history of each service, which is computed from the calls and from the states an
observer sees before and after them, never from the counters of an entry.

* `Tracks`: the counters of an entry agree with the history of its service.
* `CircuitBreakerEntry.state_apply`: what a call does to the state of an entry that tracks its
  history, by the history alone.
* `breakerContract_of_runs`: after any calls, the next call changes the states exactly as the
  thresholds and the timeout say.
-/

namespace XiraNet

/-- The calls of the breaker's interface. -/
inductive BreakerCall
  | allowRequest
  | recordSuccess
  | recordFailure
  deriving DecidableEq, Repr

/-- The effect of a call on an entry. -/
def CircuitBreakerEntry.apply (cfg : CircuitBreakerConfigState) (now : Instant)
    (entry : CircuitBreakerEntry) : BreakerCall → CircuitBreakerEntry
  | .allowRequest => (entry.allowRequest cfg now).2
  | .recordSuccess => entry.recordSuccess cfg now
  | .recordFailure => entry.recordFailure cfg now

/-- The effect of a call on the breakers. -/
def CircuitBreakerManager.apply (m : CircuitBreakerManager) (now : Instant) (id : Uuid) :
    BreakerCall → CircuitBreakerManager
  | .allowRequest => (m.allowRequest now id).2
  | .recordSuccess => m.recordSuccess now id
  | .recordFailure => m.recordFailure now id

/-- What has been observed of one service. -/
structure BreakerHistory where
  /-- Recorded failures since the breaker last became closed, or since the start. -/
  failuresSinceClosed : ℕ
  /-- The time of the latest recorded failure. -/
  latestFailure : Option Instant
  /-- Recorded successes since the breaker last became half-open, or since the start. -/
  successesSinceHalfOpen : ℕ
  deriving DecidableEq, Repr

namespace BreakerHistory

/-- Nothing has been observed. -/
def empty : BreakerHistory := ⟨0, none, 0⟩

/-- The history after a call that took the breaker from `before` to `after`. -/
def observe (hist : BreakerHistory) (now : Instant) (call : BreakerCall)
    (before after : CircuitState) : BreakerHistory where
  failuresSinceClosed :=
    if before ≠ .closed ∧ after = .closed then 0
    else hist.failuresSinceClosed + if call = .recordFailure then 1 else 0
  latestFailure := if call = .recordFailure then some now else hist.latestFailure
  successesSinceHalfOpen :=
    if before ≠ .halfOpen ∧ after = .halfOpen then 0
    else hist.successesSinceHalfOpen + if call = .recordSuccess then 1 else 0

/-- The state that a call leads to, by the history of the service. -/
def nextState (cfg : CircuitBreakerConfigState) (hist : BreakerHistory) (now : Instant) :
    CircuitState → BreakerCall → CircuitState
  | .closed, .recordFailure =>
      if hist.failuresSinceClosed + 1 = cfg.failureThreshold then .open else .closed
  | .closed, _ => .closed
  | .open, .allowRequest =>
      if ∃ last ∈ hist.latestFailure, fromSecs cfg.resetTimeoutSecs ≤ elapsed now last then
        .halfOpen
      else .open
  | .open, _ => .open
  | .halfOpen, .recordFailure => .open
  | .halfOpen, .recordSuccess =>
      if hist.successesSinceHalfOpen + 1 = cfg.halfOpenMaxRequests then .closed else .halfOpen
  | .halfOpen, .allowRequest => .halfOpen

/-- There are four transitions. -/
theorem nextState_transition (cfg : CircuitBreakerConfigState) (hist : BreakerHistory)
    (now : Instant) (before : CircuitState) (call : BreakerCall) :
    hist.nextState cfg now before call = before ∨
      (before, hist.nextState cfg now before call) ∈
        [(CircuitState.closed, CircuitState.open), (.open, .halfOpen), (.halfOpen, .open),
          (.halfOpen, .closed)] := by
  unfold nextState
  split <;> (try split) <;> decide

end BreakerHistory

/-- The counters of an entry agree with the history of its service, where they matter. -/
structure Tracks (cfg : CircuitBreakerConfigState) (entry : CircuitBreakerEntry)
    (hist : BreakerHistory) : Prop where
  latest : entry.lastFailureTime = hist.latestFailure
  failures : entry.state = .closed → entry.failureCount = hist.failuresSinceClosed
  below_threshold : entry.state = .closed → hist.failuresSinceClosed < cfg.failureThreshold
  some_failure : entry.state = .open → hist.latestFailure.isSome
  successes : entry.state = .halfOpen →
    entry.successCountHalfOpen = hist.successesSinceHalfOpen
  below_limit : entry.state = .halfOpen → hist.successesSinceHalfOpen < cfg.halfOpenMaxRequests

namespace CircuitBreakerEntry

variable {cfg : CircuitBreakerConfigState} {entry : CircuitBreakerEntry} {hist : BreakerHistory}

/-- The state after a call is the one that the history gives. -/
theorem state_apply (hcfg : cfg.Sane) (htracks : Tracks cfg entry hist) (now : Instant)
    (call : BreakerCall) :
    (entry.apply cfg now call).state = hist.nextState cfg now entry.state call := by
  obtain ⟨htpos, htle, hhpos, hhle⟩ := hcfg
  cases hstate : entry.state with
  | closed =>
      have hcount := htracks.failures hstate
      have hbelow := htracks.below_threshold hstate
      cases call with
      | allowRequest => simp [apply, allowRequest, BreakerHistory.nextState, hstate]
      | recordSuccess => simp [apply, recordSuccess, BreakerHistory.nextState, hstate]
      | recordFailure =>
          have hsat := saturatingAdd_one hbelow htle
          simp only [apply, recordFailure, BreakerHistory.nextState, hstate, hcount, hsat]
          -- The count has not passed the threshold, so reaching it is being equal to it.
          by_cases hreached : hist.failuresSinceClosed + 1 = cfg.failureThreshold
          · rw [if_pos (by omega), if_pos hreached]
          · rw [if_neg (by omega), if_neg hreached]
  | «open» =>
      -- An open breaker always has a time to wait from.
      obtain ⟨last, hlast⟩ := Option.isSome_iff_exists.mp (htracks.some_failure hstate)
      have htime : entry.lastFailureTime = some last := htracks.latest.trans hlast
      cases call with
      | allowRequest =>
          simp only [apply, allowRequest, BreakerHistory.nextState, hstate, htime, hlast]
          by_cases hdue : fromSecs cfg.resetTimeoutSecs ≤ elapsed now last
          · simp [hdue]
          · simp [hdue, hstate]
      | recordSuccess => simp [apply, recordSuccess, BreakerHistory.nextState, hstate]
      | recordFailure => simp [apply, recordFailure, BreakerHistory.nextState, hstate]
  | halfOpen =>
      have hcount := htracks.successes hstate
      have hbelow := htracks.below_limit hstate
      cases call with
      | allowRequest =>
          simp only [apply, allowRequest, BreakerHistory.nextState, hstate]
          split
          next => rfl
          next => exact hstate
      | recordFailure => simp [apply, recordFailure, BreakerHistory.nextState, hstate]
      | recordSuccess =>
          have hsat := saturatingAdd_one hbelow hhle
          -- The source takes a limit of zero for one, and the stored one is positive.
          have hmax : max cfg.halfOpenMaxRequests 1 = cfg.halfOpenMaxRequests := by omega
          simp only [apply, recordSuccess, BreakerHistory.nextState, hstate, hcount, hsat, hmax]
          by_cases hreached : hist.successesSinceHalfOpen + 1 = cfg.halfOpenMaxRequests
          · rw [if_pos (by omega), if_pos hreached]
          · rw [if_neg (by omega), if_neg hreached]

/-- Only a recorded failure changes the time of the last failure. -/
theorem lastFailureTime_apply (now : Instant) (call : BreakerCall) :
    (entry.apply cfg now call).lastFailureTime =
      if call = .recordFailure then some now else entry.lastFailureTime := by
  cases call with
  | allowRequest =>
      simp only [apply, allowRequest]
      split
      next => rfl
      next => split <;> (try split) <;> simp_all
      next => split <;> rfl
  | recordSuccess =>
      simp only [apply, recordSuccess]
      split
      next => split <;> rfl
      next => rfl
      next => rfl
  | recordFailure =>
      simp only [apply, recordFailure]
      split
      next => split <;> rfl
      next => rfl
      next => rfl

/-- A breaker that is closed after a call has counted this call's failure, or has just closed and
counts none. -/
theorem failureCount_apply (now : Instant) (call : BreakerCall)
    (h : (entry.apply cfg now call).state = .closed) :
    (entry.apply cfg now call).failureCount =
      if entry.state = .closed then
        if call = .recordFailure then saturatingAdd entry.failureCount 1 else entry.failureCount
      else 0 := by
  cases hstate : entry.state with
  | closed =>
      cases call with
      | allowRequest => simp [apply, allowRequest, hstate]
      | recordSuccess => simp [apply, recordSuccess, hstate]
      | recordFailure =>
          simp only [apply, recordFailure, hstate, if_true]
          split <;> rfl
  | «open» =>
      -- No call closes an open breaker.
      cases call with
      | allowRequest =>
          simp only [apply, allowRequest, hstate] at h
          split at h
          next => split at h <;> simp_all
          next => simp_all
      | recordSuccess => simp [apply, recordSuccess, hstate] at h
      | recordFailure => simp [apply, recordFailure, hstate] at h
  -- Only a success closes a half-open breaker, and it resets the count.
  | halfOpen =>
      cases call with
      | allowRequest =>
          simp only [apply, allowRequest, hstate] at h
          split at h <;> simp_all
      | recordFailure => simp [apply, recordFailure, hstate] at h
      | recordSuccess =>
          simp only [apply, recordSuccess, hstate] at h ⊢
          split
          next => simp
          next hlt => simp [hlt] at h

/-- A breaker that is half-open after a call has counted this call's success, or has just become
half-open and counts none. -/
theorem successCount_apply (now : Instant) (call : BreakerCall)
    (h : (entry.apply cfg now call).state = .halfOpen) :
    (entry.apply cfg now call).successCountHalfOpen =
      if entry.state = .halfOpen then
        if call = .recordSuccess then saturatingAdd entry.successCountHalfOpen 1
        else entry.successCountHalfOpen
      else 0 := by
  cases hstate : entry.state with
  | closed =>
      -- No call makes a closed breaker half-open.
      cases call with
      | allowRequest => simp [apply, allowRequest, hstate] at h
      | recordSuccess => simp [apply, recordSuccess, hstate] at h
      | recordFailure =>
          simp only [apply, recordFailure, hstate] at h
          split at h <;> simp_all
  | «open» =>
      cases call with
      | allowRequest =>
          simp only [apply, allowRequest, hstate] at h ⊢
          split
          next => split <;> simp_all
          next => simp_all
      | recordSuccess => simp [apply, recordSuccess, hstate] at h
      | recordFailure => simp [apply, recordFailure, hstate] at h
  | halfOpen =>
      cases call with
      | allowRequest =>
          simp only [apply, allowRequest, hstate]
          split <;> simp
      | recordFailure => simp [apply, recordFailure, hstate] at h
      | recordSuccess =>
          simp only [apply, recordSuccess, hstate, if_true]
          split <;> rfl

/-- A breaker that is closed after a call has fewer failures than the threshold: one more would have
opened it. -/
theorem failures_lt_apply (hcfg : cfg.Sane) (htracks : Tracks cfg entry hist) (now : Instant)
    (call : BreakerCall) (hafter : (entry.apply cfg now call).state = .closed) :
    (hist.observe now call entry.state .closed).failuresSinceClosed < cfg.failureThreshold := by
  by_cases hbefore : entry.state = .closed
  -- It was closed before, and did not open.
  · have hbelow := htracks.below_threshold hbefore
    have hnext := state_apply hcfg htracks now call
    rw [hafter, hbefore] at hnext
    cases call with
    | allowRequest => simpa [BreakerHistory.observe, hbefore] using hbelow
    | recordSuccess => simpa [BreakerHistory.observe, hbefore] using hbelow
    | recordFailure =>
        have hne : hist.failuresSinceClosed + 1 ≠ cfg.failureThreshold := by
          intro hreached
          simp [BreakerHistory.nextState, hreached] at hnext
        simp only [BreakerHistory.observe, hbefore]
        simp
        omega
  · simpa [BreakerHistory.observe, hbefore] using hcfg.threshold_pos

/-- A breaker that is half-open after a call has fewer successes than the limit: one more would have
closed it. -/
theorem successes_lt_apply (hcfg : cfg.Sane) (htracks : Tracks cfg entry hist) (now : Instant)
    (call : BreakerCall) (hafter : (entry.apply cfg now call).state = .halfOpen) :
    (hist.observe now call entry.state .halfOpen).successesSinceHalfOpen <
      cfg.halfOpenMaxRequests := by
  by_cases hbefore : entry.state = .halfOpen
  -- It was half-open before, and did not close.
  · have hbelow := htracks.below_limit hbefore
    have hnext := state_apply hcfg htracks now call
    rw [hafter, hbefore] at hnext
    cases call with
    | allowRequest => simpa [BreakerHistory.observe, hbefore] using hbelow
    | recordFailure => simp [BreakerHistory.nextState] at hnext
    | recordSuccess =>
        have hne : hist.successesSinceHalfOpen + 1 ≠ cfg.halfOpenMaxRequests := by
          intro hreached
          simp [BreakerHistory.nextState, hreached] at hnext
        simp only [BreakerHistory.observe, hbefore]
        simp
        omega
  · simpa [BreakerHistory.observe, hbefore] using hcfg.limit_pos

/-- A breaker that is open after a call has recorded a failure: only a failure opens it. -/
theorem some_failure_apply (hcfg : cfg.Sane) (htracks : Tracks cfg entry hist) (now : Instant)
    (call : BreakerCall) (hafter : (entry.apply cfg now call).state = .open) :
    (hist.observe now call entry.state .open).latestFailure.isSome := by
  have hnext := state_apply hcfg htracks now call
  rw [hafter] at hnext
  cases call with
  | recordFailure => rfl
  | allowRequest =>
      cases hbefore : entry.state <;> rw [hbefore] at hnext
      case closed => simp [BreakerHistory.nextState] at hnext
      case «open» => exact htracks.some_failure hbefore
      case halfOpen => simp [BreakerHistory.nextState] at hnext
  | recordSuccess =>
      cases hbefore : entry.state <;> rw [hbefore] at hnext
      case closed => simp [BreakerHistory.nextState] at hnext
      case «open» => exact htracks.some_failure hbefore
      case halfOpen =>
        simp only [BreakerHistory.nextState] at hnext
        split at hnext <;> cases hnext

/-- Every call keeps the counters in agreement with the history. -/
theorem tracks_apply (hcfg : cfg.Sane) (htracks : Tracks cfg entry hist) (now : Instant)
    (call : BreakerCall) :
    Tracks cfg (entry.apply cfg now call)
      (hist.observe now call entry.state (entry.apply cfg now call).state) := by
  constructor
  case latest =>
    rw [lastFailureTime_apply, htracks.latest]
    rfl
  case failures =>
    intro hafter
    rw [failureCount_apply now call hafter]
    by_cases hbefore : entry.state = .closed
    · have hle := hcfg.threshold_le
      have hsat := saturatingAdd_one (htracks.below_threshold hbefore) hle
      simp only [BreakerHistory.observe, hbefore, htracks.failures hbefore, hsat]
      cases call <;> simp
    · simp [BreakerHistory.observe, hbefore, hafter]
  case below_threshold =>
    intro hafter
    rw [hafter]
    exact failures_lt_apply hcfg htracks now call hafter
  case some_failure =>
    intro hafter
    rw [hafter]
    exact some_failure_apply hcfg htracks now call hafter
  case successes =>
    intro hafter
    rw [successCount_apply now call hafter]
    by_cases hbefore : entry.state = .halfOpen
    · have hle := hcfg.limit_le
      have hsat := saturatingAdd_one (htracks.below_limit hbefore) hle
      simp only [BreakerHistory.observe, hbefore, htracks.successes hbefore, hsat]
      cases call <;> simp
    · simp [BreakerHistory.observe, hbefore, hafter]
  case below_limit =>
    intro hafter
    rw [hafter]
    exact successes_lt_apply hcfg htracks now call hafter

end CircuitBreakerEntry

/-- The breakers, the clock and the history of each service. -/
structure ObservedBreakers where
  manager : CircuitBreakerManager
  clock : Instant
  history : Uuid → BreakerHistory

/-- A call for a service at some time. -/
structure BreakerAction where
  now : Instant
  service : Uuid
  call : BreakerCall
  deriving DecidableEq, Repr

namespace ObservedBreakers

/-- One call; the clock does not go back. -/
def step (s : ObservedBreakers) (a : BreakerAction) : Option ObservedBreakers :=
  if s.clock ≤ a.now then
    let manager := s.manager.apply a.now a.service a.call
    some {
      manager
      clock := a.now
      history := Function.update s.history a.service
        ((s.history a.service).observe a.now a.call (s.manager.getState a.service)
          (manager.getState a.service)) }
  else none

/-- The breakers right after the start. -/
def initial (failureThreshold : UInt32) (resetTimeoutSecs : UInt64)
    (halfOpenMaxRequests : UInt32) : ObservedBreakers where
  manager := .new failureThreshold.toNat resetTimeoutSecs.toNat halfOpenMaxRequests.toNat
  clock := 0
  history := fun _ => .empty

/-- Any sequence of calls. -/
def machine : Machine ObservedBreakers BreakerAction := ⟨step⟩

/-- What the thresholds `t`, `h` and the timeout `r` promise of a call `a` that leads from `s` to
`s'`, for the breaker of the service `id`. -/
structure Contract (t r h : ℕ) (s : ObservedBreakers) (a : BreakerAction) (s' : ObservedBreakers)
    (id : Uuid) : Prop where
  /-- A closed breaker opens with the `t`-th failure since it became closed. -/
  opens : s.manager.getState id = .closed → (s.history id).failuresSinceClosed < t ∧
    (s'.manager.getState id = .open ↔ a.service = id ∧ a.call = .recordFailure ∧
      (s.history id).failuresSinceClosed + 1 = t)
  /-- An open breaker knows its latest failure and lets a probe pass once `r` has elapsed. -/
  probes : s.manager.getState id = .open → ∃ entry last,
    s.manager.breakers.lookup id = some entry ∧ entry.lastFailureTime = some last ∧
      (s.history id).latestFailure = some last ∧
        (s'.manager.getState id = .halfOpen ↔ a.service = id ∧ a.call = .allowRequest ∧
          fromSecs r ≤ elapsed a.now last)
  /-- A half-open breaker opens with the first failure. -/
  reopens : s.manager.getState id = .halfOpen →
    (s'.manager.getState id = .open ↔ a.service = id ∧ a.call = .recordFailure)
  /-- A half-open breaker closes with the `h`-th success since it became half-open. -/
  closes : s.manager.getState id = .halfOpen → (s.history id).successesSinceHalfOpen < h ∧
    (s'.manager.getState id = .closed ↔ a.service = id ∧ a.call = .recordSuccess ∧
      (s.history id).successesSinceHalfOpen + 1 = h)
  /-- There are no other transitions. -/
  others : s'.manager.getState id = s.manager.getState id ∨
    (s.manager.getState id, s'.manager.getState id) ∈
      [(CircuitState.closed, CircuitState.open), (.open, .halfOpen), (.halfOpen, .open),
        (.halfOpen, .closed)]

/-- The invariant: every breaker, present or still to be inserted, tracks its history. -/
def Inv (s : ObservedBreakers) : Prop :=
  s.manager.config.Sane ∧
    ∀ id now, Tracks s.manager.config (s.manager.entryOrInsert now id) (s.history id)

/-- A call changes the entry of its service and no other. -/
theorem entryOrInsert_apply (m : CircuitBreakerManager) (now now' : Instant) (id id' : Uuid)
    (call : BreakerCall) :
    (m.apply now id call).entryOrInsert now' id' =
      if id' = id then
        if m.breakers.lookup id = none ∧ call = .recordSuccess then .fresh now'
        else (m.entryOrInsert now id).apply m.config now call
      else m.entryOrInsert now' id' := by
  unfold CircuitBreakerManager.apply CircuitBreakerManager.entryOrInsert
  cases call with
  | allowRequest =>
      dsimp only
      rw [m.lookup_allowRequest]
      split <;> simp [CircuitBreakerEntry.apply, CircuitBreakerManager.entryOrInsert]
  | recordFailure =>
      dsimp only
      rw [m.lookup_recordFailure]
      split <;> simp [CircuitBreakerEntry.apply, CircuitBreakerManager.entryOrInsert]
  | recordSuccess =>
      dsimp only
      rw [m.lookup_recordSuccess]
      -- A success makes no entry where there is none.
      split
      next => cases m.breakers.lookup id <;> simp [CircuitBreakerEntry.apply]
      next => rfl

/-- Calls leave the configuration alone. -/
theorem config_apply (m : CircuitBreakerManager) (now : Instant) (id : Uuid)
    (call : BreakerCall) : (m.apply now id call).config = m.config := by
  cases call <;> rfl

/-- The time at which a missing entry would be made does not matter to its counters. -/
theorem tracks_fresh {cfg : CircuitBreakerConfigState} {now now' : Instant}
    {hist : BreakerHistory} (h : Tracks cfg (.fresh now) hist) : Tracks cfg (.fresh now') hist :=
  ⟨h.latest, h.failures, h.below_threshold, h.some_failure, h.successes, h.below_limit⟩

/-- The state of the called breaker afterwards is that of the updated entry. -/
theorem getState_apply (m : CircuitBreakerManager) (now : Instant) (id : Uuid)
    (call : BreakerCall) : (m.apply now id call).getState id =
      ((m.entryOrInsert now id).apply m.config now call).state := by
  rw [CircuitBreakerManager.getState_eq _ now, entryOrInsert_apply, if_pos rfl]
  split
  next hmissing =>
    obtain ⟨hnone, rfl⟩ := hmissing
    simp [CircuitBreakerManager.entryOrInsert, hnone, CircuitBreakerEntry.apply,
      CircuitBreakerEntry.recordSuccess, CircuitBreakerEntry.fresh]
  next => rfl

/-- A call changes the state of its service's breaker as the history says, and no other. -/
theorem getState_step {s s' : ObservedBreakers} {a : BreakerAction} (hs : s.Inv)
    (h : s.step a = some s') (id : Uuid) : s'.manager.getState id =
      if a.service = id then
        (s.history id).nextState s.manager.config a.now (s.manager.getState id) a.call
      else s.manager.getState id := by
  simp only [step, Option.ite_none_right_eq_some, Option.some.injEq] at h
  obtain ⟨_, rfl⟩ := h
  split
  next heq =>
    subst heq
    rw [getState_apply, CircuitBreakerEntry.state_apply hs.1 (hs.2 _ _),
      CircuitBreakerManager.getState_eq _ a.now]
  next hne =>
    rw [CircuitBreakerManager.getState_eq _ a.now, entryOrInsert_apply, if_neg (Ne.symm hne),
      ← CircuitBreakerManager.getState_eq]

/-- Every call keeps the invariant. -/
theorem inv_step (s : ObservedBreakers) (a : BreakerAction) (s' : ObservedBreakers) (hs : s.Inv)
    (h : s.step a = some s') : s'.Inv := by
  simp only [step, Option.ite_none_right_eq_some, Option.some.injEq] at h
  obtain ⟨_, rfl⟩ := h
  refine ⟨by simpa only [config_apply] using hs.1, fun id now => ?_⟩
  simp only [config_apply, entryOrInsert_apply]
  by_cases heq : id = a.service
  · subst heq
    have htracks := CircuitBreakerEntry.tracks_apply hs.1 (hs.2 a.service a.now) a.now a.call
    rw [Function.update_self, getState_apply, s.manager.getState_eq a.now]
    rw [if_pos rfl]
    split
    next hmissing =>
      -- A success of a service without a breaker leaves the entry that would be made.
      obtain ⟨hnone, hcall⟩ := hmissing
      have hfresh : s.manager.entryOrInsert a.now a.service = .fresh a.now := by
        simp [CircuitBreakerManager.entryOrInsert, hnone]
      have hsame : (CircuitBreakerEntry.fresh a.now).apply s.manager.config a.now a.call =
          .fresh a.now := by
        rw [hcall]
        rfl
      rw [hfresh, hsame] at htracks
      rw [hfresh, hsame]
      exact tracks_fresh htracks
    next => exact htracks
  · rw [if_neg heq, Function.update_of_ne heq]
    exact hs.2 id now

/-- The invariant holds at the start. -/
theorem inv_initial (t : UInt32) (r : UInt64) (h : UInt32) : (initial t r h).Inv := by
  have hsane := CircuitBreakerConfigState.sane_clamped t h r
  refine ⟨hsane, fun id now => ?_⟩
  have hfresh : (initial t r h).manager.entryOrInsert now id = .fresh now := rfl
  rw [hfresh]
  constructor
  case latest => rfl
  case failures => exact fun _ => rfl
  case below_threshold => exact fun _ => hsane.threshold_pos
  case some_failure => simp [CircuitBreakerEntry.fresh]
  case successes => simp [CircuitBreakerEntry.fresh]
  case below_limit => simp [CircuitBreakerEntry.fresh]

/-- An open breaker has an entry with the time of the latest recorded failure. -/
theorem latest_of_open {s : ObservedBreakers} (hs : s.Inv) {id : Uuid}
    (hopen : s.manager.getState id = .open) : ∃ entry last,
      s.manager.breakers.lookup id = some entry ∧ entry.lastFailureTime = some last ∧
        (s.history id).latestFailure = some last := by
  have htracks := hs.2 id 0
  have hstate := s.manager.getState_eq 0 id
  obtain ⟨last, hlast⟩ := Option.isSome_iff_exists.mp (htracks.some_failure (hstate ▸ hopen))
  have htime := htracks.latest.trans hlast
  cases hentry : s.manager.breakers.lookup id with
  | none => simp [CircuitBreakerManager.getState, hentry] at hopen
  | some entry =>
      refine ⟨entry, last, rfl, ?_, hlast⟩
      simpa [CircuitBreakerManager.entryOrInsert, hentry] using htime

/-- Under the invariant every call keeps the contract, for every service. -/
theorem contract_step {s s' : ObservedBreakers} {a : BreakerAction} (hs : s.Inv)
    (h : s.step a = some s') (id : Uuid) :
    Contract s.manager.config.failureThreshold s.manager.config.resetTimeoutSecs
      s.manager.config.halfOpenMaxRequests s a s' id := by
  have hnext := getState_step hs h id
  have htracks := hs.2 id 0
  have hstate := s.manager.getState_eq 0 id
  constructor
  case opens =>
    intro hclosed
    refine ⟨htracks.below_threshold (hstate ▸ hclosed), ?_⟩
    rw [hnext, hclosed]
    by_cases heq : a.service = id
    · cases hcall : a.call <;> simp [BreakerHistory.nextState, heq]
    · simp [heq]
  case probes =>
    intro hopen
    obtain ⟨entry, last, hentry, htime, hlast⟩ := latest_of_open hs hopen
    refine ⟨entry, last, hentry, htime, hlast, ?_⟩
    rw [hnext, hopen]
    by_cases heq : a.service = id
    · cases hcall : a.call <;> simp [BreakerHistory.nextState, heq, hlast]
    · simp [heq]
  case reopens =>
    intro hhalf
    rw [hnext, hhalf]
    by_cases heq : a.service = id
    · cases hcall : a.call <;> simp [BreakerHistory.nextState, heq]
      split <;> simp
    · simp [heq]
  case closes =>
    intro hhalf
    refine ⟨htracks.below_limit (hstate ▸ hhalf), ?_⟩
    rw [hnext, hhalf]
    by_cases heq : a.service = id
    · cases hcall : a.call <;> simp [BreakerHistory.nextState, heq]
    · simp [heq]
  case others =>
    rw [hnext]
    split
    next => exact BreakerHistory.nextState_transition _ _ _ _ _
    next => exact .inl rfl

/-- After any calls at a configuration with positive limits, the next call changes the state of
every breaker exactly as the limits and the timeout say. -/
theorem breakerContract_of_runs (t : UInt32) (r : UInt64) (h : UInt32) (ht : 0 < t) (hh : 0 < h)
    (as : List BreakerAction) (s : ObservedBreakers)
    (hrun : machine.Runs Machine.unrestricted (initial t r h) as s)
    (a : BreakerAction) (s' : ObservedBreakers) (hstep : machine.step s a = some s') (id : Uuid) :
    Contract t.toNat r.toNat h.toNat s a s' id := by
  have hinv : s.manager.config = (initial t r h).manager.config ∧ s.Inv := by
    refine hrun.invariant
      (I := fun s => s.manager.config = (initial t r h).manager.config ∧ s.Inv) ?_
      ⟨rfl, inv_initial t r h⟩
    rintro s a s' ⟨hcfg, hs⟩ _ hst
    refine ⟨?_, inv_step s a s' hs hst⟩
    simp only [machine, step, Option.ite_none_right_eq_some, Option.some.injEq] at hst
    obtain ⟨_, rfl⟩ := hst
    rw [config_apply, hcfg]
  obtain ⟨hcfg, hs⟩ := hinv
  -- The contract holds for the limits as they are stored.
  have hcontract := contract_step hs hstep id
  -- Positive limits are stored as they are.
  have htpos : 0 < t.toNat := UInt32.lt_iff_toNat_lt.mp ht
  have hhpos : 0 < h.toNat := UInt32.lt_iff_toNat_lt.mp hh
  have hthreshold : s.manager.config.failureThreshold = t.toNat := by
    rw [hcfg]
    exact max_eq_left htpos
  have hlimit : s.manager.config.halfOpenMaxRequests = h.toNat := by
    rw [hcfg]
    exact max_eq_left hhpos
  have htimeout : s.manager.config.resetTimeoutSecs = r.toNat := by
    rw [hcfg]
    rfl
  rwa [hthreshold, hlimit, htimeout] at hcontract

/-- The breaker of service 7 opens with its second failure and is about to be asked for a
probe. -/
def openingRun : List BreakerAction :=
  [⟨0, 7, .allowRequest⟩, ⟨1, 7, .recordFailure⟩, ⟨2, 7, .recordSuccess⟩, ⟨3, 7, .recordFailure⟩]

/-- The contract on the request that finds the timeout elapsed. -/
theorem breakerContract_openingRun :
    ∃ s s', machine.Runs Machine.unrestricted (initial 2 1 1) openingRun s ∧
      machine.step s ⟨1000000003, 7, .allowRequest⟩ = some s' ∧
      s'.manager.getState 7 = .halfOpen ∧
      Contract 2 1 1 s ⟨1000000003, 7, .allowRequest⟩ s' 7 := by
  obtain ⟨s, s', hs, hstep, hhalf⟩ : ∃ s s',
      machine.exec Machine.unrestricted (initial 2 1 1) openingRun = some s ∧
      machine.step s ⟨1000000003, 7, .allowRequest⟩ = some s' ∧
      s'.manager.getState 7 = .halfOpen := ⟨_, _, rfl, rfl, rfl⟩
  have hrun := Machine.runs_of_exec hs
  exact ⟨s, s', hrun, hstep, hhalf, breakerContract_of_runs 2 1 1 (by decide) (by decide)
    openingRun s hrun _ s' hstep 7⟩

end ObservedBreakers

end XiraNet

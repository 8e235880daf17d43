import XiraNet.Base
import XiraNet.Lib.DashMap

/-!
# Circuit breaker

The per-service breaker of `gateway/circuit_breaker.rs`. An entry is updated under one map
lock, so each of `allow_request`, `record_success` and `record_failure` is one step on the
entry; the manager-level functions look the entry up (creating a closed one where the source
does) and store the updated entry.

The counters are `u32` values with the source's saturating arithmetic.
-/

namespace XiraNet

/-- The states of a breaker. -/
inductive CircuitState
  | closed
  | «open»
  | halfOpen
  deriving DecidableEq, Repr

/-- One service's breaker. -/
structure CircuitBreakerEntry where
  state : CircuitState
  failureCount : ℕ
  /-- Successful probes completed in the current half-open period. -/
  successCountHalfOpen : ℕ
  /-- Probes currently in flight in the current half-open period. -/
  inFlightProbes : ℕ
  lastFailureTime : Option Instant
  lastStateChange : Instant
  deriving DecidableEq, Repr

/-- The breaker configuration, which the admin API may change at any time. -/
structure CircuitBreakerConfigState where
  failureThreshold : ℕ
  resetTimeoutSecs : ℕ
  halfOpenMaxRequests : ℕ
  deriving DecidableEq, Repr

namespace CircuitBreakerConfigState

/-- The values stored by `new` and `update_config`. -/
def clamped (failureThreshold resetTimeoutSecs halfOpenMaxRequests : ℕ) :
    CircuitBreakerConfigState where
  failureThreshold := max failureThreshold 1
  resetTimeoutSecs := resetTimeoutSecs
  halfOpenMaxRequests := max halfOpenMaxRequests 1

/-- A configuration as `new` stores it: positive limits that fit their `u32` cells. -/
structure Sane (cfg : CircuitBreakerConfigState) : Prop where
  threshold_pos : 0 < cfg.failureThreshold
  threshold_le : cfg.failureThreshold ≤ u32Max
  limit_pos : 0 < cfg.halfOpenMaxRequests
  limit_le : cfg.halfOpenMaxRequests ≤ u32Max

/-- Whatever is configured, the stored configuration is sane. -/
theorem sane_clamped (t h : UInt32) (r : UInt64) :
    (clamped t.toNat r.toNat h.toNat).Sane := by
  have ht := t.toNat_lt
  have hh := h.toNat_lt
  constructor <;> simp only [clamped, u32Max] <;> omega

end CircuitBreakerConfigState

namespace CircuitBreakerEntry

/-- The entry inserted for a service seen for the first time. -/
def fresh (now : Instant) : CircuitBreakerEntry where
  state := .closed
  failureCount := 0
  successCountHalfOpen := 0
  inFlightProbes := 0
  lastFailureTime := none
  lastStateChange := now

/-- `allow_request` on the entry. -/
def allowRequest (cfg : CircuitBreakerConfigState) (now : Instant) (entry : CircuitBreakerEntry) :
    Except CircuitState Unit × CircuitBreakerEntry :=
  match entry.state with
  | .closed => (.ok (), entry)
  | .open =>
      match entry.lastFailureTime with
      | some lastFailure =>
          if fromSecs cfg.resetTimeoutSecs ≤ elapsed now lastFailure then
            (.ok (), { entry with
              state := .halfOpen
              successCountHalfOpen := 0
              inFlightProbes := 1
              lastStateChange := now })
          else (.error .open, entry)
      | none => (.error .open, entry)
  -- Only a recorded result takes the probe off this count again.
  | .halfOpen =>
      if entry.inFlightProbes < max cfg.halfOpenMaxRequests 1 then
        (.ok (), { entry with inFlightProbes := saturatingAdd entry.inFlightProbes 1 })
      else (.error .halfOpen, entry)

/-- `record_success` on the entry. -/
def recordSuccess (cfg : CircuitBreakerConfigState) (now : Instant)
    (entry : CircuitBreakerEntry) : CircuitBreakerEntry :=
  match entry.state with
  | .halfOpen =>
      let successes := saturatingAdd entry.successCountHalfOpen 1
      let entry := { entry with
        successCountHalfOpen := successes
        inFlightProbes := entry.inFlightProbes - 1 }
      if max cfg.halfOpenMaxRequests 1 ≤ successes then
        { entry with
          state := .closed
          failureCount := 0
          inFlightProbes := 0
          lastStateChange := now }
      else entry
  | .closed => entry
  | .open => entry

/-- `record_failure` on the entry. -/
def recordFailure (cfg : CircuitBreakerConfigState) (now : Instant)
    (entry : CircuitBreakerEntry) : CircuitBreakerEntry :=
  let entry := { entry with
    failureCount := saturatingAdd entry.failureCount 1
    lastFailureTime := some now }
  match entry.state with
  | .closed =>
      if max cfg.failureThreshold 1 ≤ entry.failureCount then
        { entry with state := .open, lastStateChange := now }
      else entry
  | .halfOpen =>
      { entry with
        state := .open
        inFlightProbes := 0
        successCountHalfOpen := 0
        lastStateChange := now }
  | .open => entry

/-- A count below a `u32` bound is incremented without saturation. -/
theorem saturatingAdd_one {n bound : ℕ} (hn : n < bound) (hbound : bound ≤ u32Max) :
    saturatingAdd n 1 = n + 1 := by
  unfold saturatingAdd
  omega

/-- What `allow_request` can do: it lets a request pass a closed breaker, makes an open one
half-open, rejects, or counts one more probe of a half-open one. -/
theorem allowRequest_cases (cfg : CircuitBreakerConfigState) (now : Instant)
    (entry : CircuitBreakerEntry) :
    (entry.state = .closed ∧ entry.allowRequest cfg now = (.ok (), entry)) ∨
      (entry.state = .open ∧ entry.allowRequest cfg now = (.ok (), { entry with
        state := .halfOpen, successCountHalfOpen := 0, inFlightProbes := 1,
        lastStateChange := now })) ∨
      (entry.allowRequest cfg now = (.error entry.state, entry)) ∨
      (entry.state = .halfOpen ∧ entry.inFlightProbes < max cfg.halfOpenMaxRequests 1 ∧
        entry.allowRequest cfg now = (.ok (), { entry with
          inFlightProbes := saturatingAdd entry.inFlightProbes 1 })) := by
  unfold allowRequest
  cases hstate : entry.state with
  | closed => exact .inl ⟨rfl, rfl⟩
  | «open» =>
      cases htime : entry.lastFailureTime with
      | none => exact .inr (.inr (.inl rfl))
      | some last =>
          by_cases hdue : fromSecs cfg.resetTimeoutSecs ≤ elapsed now last
          · exact .inr (.inl ⟨rfl, if_pos hdue⟩)
          · exact .inr (.inr (.inl (if_neg hdue)))
  | halfOpen =>
      by_cases hroom : entry.inFlightProbes < max cfg.halfOpenMaxRequests 1
      · exact .inr (.inr (.inr ⟨rfl, hroom, if_pos hroom⟩))
      · exact .inr (.inr (.inl (if_neg hroom)))

/-- What `record_success` does to a half-open entry. -/
theorem recordSuccess_of_halfOpen (cfg : CircuitBreakerConfigState) (now : Instant)
    {entry : CircuitBreakerEntry} (h : entry.state = .halfOpen) :
    let successes := saturatingAdd entry.successCountHalfOpen 1
    entry.recordSuccess cfg now =
      if max cfg.halfOpenMaxRequests 1 ≤ successes then
        { entry with
          state := .closed, failureCount := 0, successCountHalfOpen := successes,
          inFlightProbes := 0, lastStateChange := now }
      else { entry with
        successCountHalfOpen := successes, inFlightProbes := entry.inFlightProbes - 1 } := by
  simp only [recordSuccess, h]

/-- `record_success` leaves an entry alone that is not half-open. -/
theorem recordSuccess_of_ne (cfg : CircuitBreakerConfigState) (now : Instant)
    {entry : CircuitBreakerEntry} (h : entry.state ≠ .halfOpen) :
    entry.recordSuccess cfg now = entry := by
  unfold recordSuccess
  cases hstate : entry.state with
  | closed => rfl
  | «open» => rfl
  | halfOpen => exact absurd hstate h

/-- `record_failure` leaves the two half-open counts alone unless the entry is half-open, and
resets them if it is. -/
theorem counts_recordFailure (cfg : CircuitBreakerConfigState) (now : Instant)
    (entry : CircuitBreakerEntry) :
    ((entry.recordFailure cfg now).inFlightProbes,
      (entry.recordFailure cfg now).successCountHalfOpen) =
      if entry.state = .halfOpen then (0, 0)
      else (entry.inFlightProbes, entry.successCountHalfOpen) := by
  unfold recordFailure
  cases hstate : entry.state with
  | closed =>
      dsimp only
      split <;> rfl
  | «open» => rfl
  | halfOpen => rfl

/-- What `allow_request` can do to an entry that is half-open afterwards: either the entry was
open and this request is its only probe, or it was half-open already. -/
theorem allowRequest_halfOpen (cfg : CircuitBreakerConfigState) (now : Instant)
    (entry : CircuitBreakerEntry) (h : (entry.allowRequest cfg now).2.state = .halfOpen) :
    ((entry.allowRequest cfg now).1 = .ok () ∧ (entry.allowRequest cfg now).2.inFlightProbes = 1) ∨
      (entry.state = .halfOpen ∧ (entry.allowRequest cfg now).1 = .ok () ∧
        (entry.allowRequest cfg now).2.inFlightProbes ≤ entry.inFlightProbes + 1) ∨
      (entry.state = .halfOpen ∧ (entry.allowRequest cfg now).2 = entry) := by
  unfold allowRequest at h ⊢
  split at h
  next hstate => simp [hstate] at h
  -- An open entry turns half-open when its timeout has passed, and counts this request.
  next hstate =>
    left
    split at h
    next => split at h <;> simp_all
    next => simp [hstate] at h
  next hstate =>
    right
    split
    next =>
      left
      exact ⟨hstate, rfl, Nat.min_le_left _ _⟩
    next =>
      right
      exact ⟨hstate, rfl⟩

/-- A success leaves an entry half-open only by taking one probe off the count of an entry that
was half-open. -/
theorem recordSuccess_halfOpen (cfg : CircuitBreakerConfigState) (now : Instant)
    (entry : CircuitBreakerEntry) (h : (entry.recordSuccess cfg now).state = .halfOpen) :
    entry.state = .halfOpen ∧
      (entry.recordSuccess cfg now).inFlightProbes = entry.inFlightProbes - 1 := by
  unfold recordSuccess at h ⊢
  split at h
  next hstate =>
    dsimp only at h ⊢
    split at h
    -- Enough successes close the breaker.
    next => simp at h
    next hlt => exact ⟨hstate, by simp [hlt]⟩
  next hstate => simp [hstate] at h
  next hstate => simp [hstate] at h

/-- No entry is half-open after a failure. -/
theorem recordFailure_not_halfOpen (cfg : CircuitBreakerConfigState) (now : Instant)
    (entry : CircuitBreakerEntry) : (entry.recordFailure cfg now).state ≠ .halfOpen := by
  unfold recordFailure
  dsimp only
  split
  next hstate => split <;> simp_all
  next => simp
  next hstate => simp_all

end CircuitBreakerEntry

/-- The breakers of all services. -/
structure CircuitBreakerManager where
  breakers : DashMap Uuid CircuitBreakerEntry
  config : CircuitBreakerConfigState

namespace CircuitBreakerManager

/-- A manager without any breaker. -/
def new (failureThreshold resetTimeoutSecs halfOpenMaxRequests : ℕ) : CircuitBreakerManager where
  breakers := ∅
  config := .clamped failureThreshold resetTimeoutSecs halfOpenMaxRequests

/-- Replace the configuration. -/
def updateConfig (m : CircuitBreakerManager)
    (failureThreshold resetTimeoutSecs halfOpenMaxRequests : ℕ) : CircuitBreakerManager :=
  { m with config := .clamped failureThreshold resetTimeoutSecs halfOpenMaxRequests }

/-- The entry of a service, or the fresh one that `or_insert` would store. -/
def entryOrInsert (m : CircuitBreakerManager) (now : Instant) (id : Uuid) :
    CircuitBreakerEntry :=
  (m.breakers.lookup id).getD (.fresh now)

/-- `allow_request`. -/
def allowRequest (m : CircuitBreakerManager) (now : Instant) (id : Uuid) :
    Except CircuitState Unit × CircuitBreakerManager :=
  let (result, entry) := (m.entryOrInsert now id).allowRequest m.config now
  (result, { m with breakers := m.breakers.insert id entry })

/-- `record_success`, which does nothing for a service without a breaker. -/
def recordSuccess (m : CircuitBreakerManager) (now : Instant) (id : Uuid) :
    CircuitBreakerManager :=
  { m with breakers := m.breakers.modify id (·.recordSuccess m.config now) }

/-- `record_failure`. -/
def recordFailure (m : CircuitBreakerManager) (now : Instant) (id : Uuid) :
    CircuitBreakerManager :=
  let entry := (m.entryOrInsert now id).recordFailure m.config now
  { m with breakers := m.breakers.insert id entry }

/-- `get_state`. -/
def getState (m : CircuitBreakerManager) (id : Uuid) : CircuitState :=
  ((m.breakers.lookup id).map (·.state)).getD .closed

/-- The state that callers see is that of the entry, whenever a missing one would be made. -/
theorem getState_eq (m : CircuitBreakerManager) (now : Instant) (id : Uuid) :
    m.getState id = (m.entryOrInsert now id).state := by
  unfold CircuitBreakerManager.getState CircuitBreakerManager.entryOrInsert
  cases m.breakers.lookup id <;> rfl

/-- A half-open entry that `or_insert` yields was there before. -/
theorem lookup_of_halfOpen {m : CircuitBreakerManager} {now : Instant}
    {service : Uuid} (h : (m.entryOrInsert now service).state = .halfOpen) :
    m.breakers.lookup service = some (m.entryOrInsert now service) := by
  unfold entryOrInsert at h ⊢
  cases hl : m.breakers.lookup service with
  | none => simp [hl, CircuitBreakerEntry.fresh] at h
  | some entry => rfl

/-- The admission in terms of what `allow_request` does to the entry. -/
theorem allowRequest_eq {m : CircuitBreakerManager} {now : Instant} {id : Uuid}
    {result : Except CircuitState Unit} {entry : CircuitBreakerEntry}
    (h : (m.entryOrInsert now id).allowRequest m.config now = (result, entry)) :
    m.allowRequest now id = (result, { m with breakers := m.breakers.insert id entry }) := by
  simp only [allowRequest, h]

/-- The state that callers see of an entry. -/
theorem getState_of_lookup {m : CircuitBreakerManager} {id : Uuid} {entry : CircuitBreakerEntry}
    (h : m.breakers.lookup id = some entry) : m.getState id = entry.state := by
  simp [getState, h]

/-- The state that callers see of an entry that has just been stored. -/
theorem getState_insert (m : CircuitBreakerManager) (id : Uuid) (entry : CircuitBreakerEntry) :
    getState { m with breakers := m.breakers.insert id entry } id = entry.state := by
  simp [getState]

/-- An admission only touches the breaker of its own service. -/
theorem lookup_allowRequest (m : CircuitBreakerManager) (now : Instant) (id id' : Uuid) :
    (m.allowRequest now id).2.breakers.lookup id' =
      if id' = id then some ((m.entryOrInsert now id).allowRequest m.config now).2
      else m.breakers.lookup id' :=
  DashMap.lookup_insert _ _ _ _

/-- A recorded success only touches the breaker of its own service. -/
theorem lookup_recordSuccess (m : CircuitBreakerManager) (now : Instant) (id id' : Uuid) :
    (m.recordSuccess now id).breakers.lookup id' =
      if id' = id then (m.breakers.lookup id).map (·.recordSuccess m.config now)
      else m.breakers.lookup id' :=
  DashMap.lookup_modify _ _ _ _

/-- A recorded failure only touches the breaker of its own service. -/
theorem lookup_recordFailure (m : CircuitBreakerManager) (now : Instant) (id id' : Uuid) :
    (m.recordFailure now id).breakers.lookup id' =
      if id' = id then some ((m.entryOrInsert now id).recordFailure m.config now)
      else m.breakers.lookup id' :=
  DashMap.lookup_insert _ _ _ _

end CircuitBreakerManager

end XiraNet

import Mathlib.Data.List.Basic
import XiraNet.Lib.Runs
import XiraNet.Gateway.CircuitBreaker

/-!
# Isolation of half-open periods

One service's breaker at a fixed configuration, with the requests that `allow_request` admitted
and whose result is not recorded yet (`gateway/circuit_breaker.rs`). Every admitted request is
recorded at most once and in any order. An entry says of itself that it counts the probes of the
half-open period, but a result carries no trace of the period in which its request was admitted.

* `isolated_throughout_iff`: the counts stay those of the period's own probes throughout a run
  exactly if no result of an earlier request is recorded while the breaker is half-open.
* `isolated_fails`: two requests from before the opening close the breaker while its only probe is
  still under way.
-/

namespace XiraNet

/-- A breaker with its history: the number of half-open periods so far, the admitted requests
without a result, each with the period whose probe it is, and what the results did. -/
structure IsolationState where
  manager : CircuitBreakerManager
  period : ℕ
  unrecorded : List (Option ℕ)
  /-- Successes of the probes of the current period. -/
  successes : ℕ
  /-- For every time the breaker closed, the successes of that period's own probes. -/
  closings : List ℕ
  /-- The result of an earlier request has changed a count. -/
  disturbed : Bool

/-- A request arrives, or the result of an admitted one is recorded. -/
inductive IsolationAction
  | allowRequest (now : Instant)
  | record (now : Instant) (probe : Option ℕ) (succeeded : Bool)
  deriving DecidableEq, Repr

namespace IsolationState

/-- The two counts of the service's entry. -/
def counts (m : CircuitBreakerManager) (service : Uuid) : ℕ × ℕ :=
  match m.breakers.lookup service with
  | some entry => (entry.inFlightProbes, entry.successCountHalfOpen)
  | none => (0, 0)

/-- The request is a probe of the half-open period in which the breaker is now. -/
def IsProbe (s : IsolationState) (service : Uuid) (probe : Option ℕ) : Prop :=
  s.manager.getState service = .halfOpen ∧ probe = some s.period

instance (s : IsolationState) (service : Uuid) (probe : Option ℕ) :
    Decidable (s.IsProbe service probe) :=
  inferInstanceAs (Decidable (_ ∧ _))

/-- One call of the breaker's interface. -/
def step (service : Uuid) (s : IsolationState) : IsolationAction → Option IsolationState
  | .allowRequest now =>
      match s.manager.allowRequest now service with
      | (.error _, manager) => some { s with manager }
      | (.ok (), manager) =>
          let after := manager.getState service
          -- The first probe begins a period.
          let begins := s.manager.getState service ≠ .halfOpen ∧ after = .halfOpen
          let period := if begins then s.period + 1 else s.period
          some { s with
            manager
            period
            unrecorded := (if after = .halfOpen then some period else none) :: s.unrecorded
            successes := if begins then 0 else s.successes }
  | .record now probe succeeded =>
      if probe ∈ s.unrecorded then
        let manager :=
          if succeeded then s.manager.recordSuccess now service
          else s.manager.recordFailure now service
        let successes :=
          if s.IsProbe service probe ∧ succeeded then s.successes + 1 else s.successes
        -- Whether it closes is seen from the states alone.
        let closes := s.manager.getState service = .halfOpen ∧ manager.getState service = .closed
        some { s with
          manager
          unrecorded := s.unrecorded.erase probe
          successes
          closings := if closes then successes :: s.closings else s.closings
          disturbed := s.disturbed || (!decide (s.IsProbe service probe) &&
            counts manager service ≠ counts s.manager service) }
      else none

/-- The breaker right after the start. -/
def initial (failureThreshold : UInt32) (resetTimeoutSecs : UInt64)
    (halfOpenMaxRequests : UInt32) : IsolationState where
  manager := .new failureThreshold.toNat resetTimeoutSecs.toNat halfOpenMaxRequests.toNat
  period := 0
  unrecorded := []
  successes := 0
  closings := []
  disturbed := false

/-- Requests and results in any order. -/
def machine (service : Uuid) : Machine IsolationState IsolationAction := ⟨step service⟩

/-- Half-open periods are isolated: at most `limit` probes of the current one are under way, the
breaker has closed only after `limit` successes of one period's own probes, and no result of an
earlier request has changed a count. -/
structure Isolated (service : Uuid) (limit : ℕ) (s : IsolationState) : Prop where
  probes_le : s.manager.getState service = .halfOpen →
    s.unrecorded.count (some s.period) ≤ limit
  closings_ge : ∀ n ∈ s.closings, limit ≤ n
  undisturbed : s.disturbed = false

/-- The step does not record the result of an earlier request in a half-open period. -/
def KeepsPeriods (service : Uuid) (s : IsolationState) : IsolationAction → Prop
  | .allowRequest _ => True
  | .record _ probe _ => s.manager.getState service = .halfOpen → probe = some s.period

instance (service : Uuid) (s : IsolationState) (a : IsolationAction) :
    Decidable (KeepsPeriods service s a) := by
  cases a <;> unfold KeepsPeriods <;> infer_instance

/-- A half-open entry counts the probes of its period: those under way, and those that have
succeeded. -/
structure Counted (limit : ℕ) (s : IsolationState) (entry : CircuitBreakerEntry) : Prop where
  inFlight : entry.inFlightProbes = s.unrecorded.count (some s.period)
  inFlight_le : entry.inFlightProbes ≤ limit
  succeeded : entry.successCountHalfOpen = s.successes
  succeeded_lt : s.successes < limit
  probe : 0 < entry.inFlightProbes + entry.successCountHalfOpen

/-- The invariant. -/
structure Inv (service : Uuid) (limit : ℕ) (s : IsolationState) : Prop where
  sane : s.manager.config.Sane
  limit_eq : s.manager.config.halfOpenMaxRequests = limit
  periods_le : ∀ p, some p ∈ s.unrecorded → p ≤ s.period
  counted : ∀ entry, s.manager.breakers.lookup service = some entry → entry.state = .halfOpen →
    Counted limit s entry
  closings_ge : ∀ n ∈ s.closings, limit ≤ n
  undisturbed : s.disturbed = false

variable {service : Uuid} {limit : ℕ} {s s' : IsolationState}

/-- An entry of the service in a manager that has just stored one. -/
theorem eq_of_lookup_insert {breakers : DashMap Uuid CircuitBreakerEntry}
    {stored entry : CircuitBreakerEntry}
    (h : (breakers.insert service stored).lookup service = some entry) : entry = stored := by
  rw [AList.lookup_insert] at h
  exact (Option.some.inj h).symm

/-- One more probe of the current period: the counter of the entry and the requests under way go up
together. -/
theorem Counted.arrive {entry : CircuitBreakerEntry} (h : Counted limit s entry)
    (hle : limit ≤ u32Max) (hroom : entry.inFlightProbes < limit) :
    Counted limit { s with unrecorded := some s.period :: s.unrecorded }
      { entry with inFlightProbes := saturatingAdd entry.inFlightProbes 1 } := by
  have hsat : saturatingAdd entry.inFlightProbes 1 = entry.inFlightProbes + 1 := by
    unfold saturatingAdd
    omega
  have hcount : (some s.period :: s.unrecorded).count (some s.period) =
      s.unrecorded.count (some s.period) + 1 := List.count_cons_self
  have hinFlight := h.inFlight
  constructor
  case inFlight =>
    dsimp only
    omega
  case inFlight_le =>
    dsimp only
    omega
  case succeeded => exact h.succeeded
  case succeeded_lt => exact h.succeeded_lt
  case probe =>
    dsimp only
    omega

/-- No request is under way for a period that has not begun. -/
theorem Inv.count_next (hs : s.Inv service limit) :
    s.unrecorded.count (some (s.period + 1)) = 0 := by
  refine List.count_eq_zero.mpr fun hmem => ?_
  have := hs.periods_le _ hmem
  omega

/-- A request keeps the invariant: a new probe is a new request under way. -/
theorem inv_allowRequest (hs : s.Inv service limit) {now : Instant}
    (h : step service s (.allowRequest now) = some s') : s'.Inv service limit := by
  have hlimit := hs.limit_eq
  have hle := hs.sane.limit_le
  have hpos := hs.sane.limit_pos
  have hstate := s.manager.getState_eq now service
  rcases (s.manager.entryOrInsert now service).allowRequest_cases s.manager.config now with
    ⟨hclosed, hallow⟩ | ⟨hopen, hallow⟩ | hallow | ⟨hhalf, hroom, hallow⟩
  all_goals
    have hmanager := CircuitBreakerManager.allowRequest_eq hallow
    simp only [step, hmanager, CircuitBreakerManager.getState_insert] at h
  · -- A closed breaker stays closed.
    rw [hclosed] at h
    simp at h
    subst h
    refine ⟨hs.sane, hlimit, fun p hp => ?_, fun e he hhalf => ?_, hs.closings_ge,
      hs.undisturbed⟩
    · exact hs.periods_le p (by simpa using hp)
    · rw [eq_of_lookup_insert he, hclosed] at hhalf
      cases hhalf
  · -- The request is the first probe of a new period.
    rw [hstate, hopen] at h
    simp at h
    subst h
    refine ⟨hs.sane, hlimit, fun p hp => ?_, fun e he hhalf => ?_, hs.closings_ge,
      hs.undisturbed⟩
    · rcases List.mem_cons.mp hp with heq | hmem
      · exact Nat.le_of_eq (Option.some.inj heq)
      · exact Nat.le_succ_of_le (hs.periods_le p hmem)
    · have hcount := hs.count_next
      rw [eq_of_lookup_insert he]
      constructor <;> simp [hcount] <;> omega
  · -- A rejected request leaves the entry as it was.
    cases h
    refine ⟨hs.sane, hlimit, hs.periods_le, fun e he hhalf => ?_, hs.closings_ge,
      hs.undisturbed⟩
    rw [eq_of_lookup_insert he] at hhalf ⊢
    have hold := hs.counted _ (CircuitBreakerManager.lookup_of_halfOpen hhalf) hhalf
    exact ⟨hold.inFlight, hold.inFlight_le, hold.succeeded, hold.succeeded_lt, hold.probe⟩
  · -- One more probe of the current period.
    rw [hstate, hhalf] at h
    simp at h
    subst h
    refine ⟨hs.sane, hlimit, fun p hp => ?_, fun e he _ => ?_, hs.closings_ge,
      hs.undisturbed⟩
    · rcases List.mem_cons.mp hp with heq | hmem
      · exact Nat.le_of_eq (Option.some.inj heq)
      · exact hs.periods_le p hmem
    · have hold := hs.counted _ (CircuitBreakerManager.lookup_of_halfOpen hhalf) hhalf
      rw [eq_of_lookup_insert he]
      have hnew := hold.arrive (by omega) (by omega)
      exact ⟨hnew.inFlight, hnew.inFlight_le, hnew.succeeded, hnew.succeeded_lt, hnew.probe⟩

/-- The entry behind a half-open breaker. -/
theorem lookup_of_getState {m : CircuitBreakerManager} (h : m.getState service = .halfOpen) :
    ∃ entry, m.breakers.lookup service = some entry ∧ entry.state = .halfOpen := by
  unfold CircuitBreakerManager.getState at h
  cases hl : m.breakers.lookup service with
  | none => simp [hl] at h
  | some entry => exact ⟨entry, rfl, by simpa [hl] using h⟩

/-- What a result does to a breaker that is not half-open: its counts stay, and it does not become
half-open. -/
theorem record_of_ne {m : CircuitBreakerManager} (h : m.getState service ≠ .halfOpen)
    (now : Instant) (succeeded : Bool) :
    let m' := if succeeded then m.recordSuccess now service else m.recordFailure now service
    counts m' service = counts m service ∧ m'.getState service ≠ .halfOpen := by
  have hentry : ∀ entry, m.breakers.lookup service = some entry → entry.state ≠ .halfOpen := by
    intro entry hl
    simpa [CircuitBreakerManager.getState, hl] using h
  cases succeeded with
  | true =>
      simp only [if_true, counts, CircuitBreakerManager.getState,
        CircuitBreakerManager.lookup_recordSuccess]
      cases hl : m.breakers.lookup service with
      | none => simp
      | some entry => simp [CircuitBreakerEntry.recordSuccess_of_ne _ _ (hentry entry hl),
          hentry entry hl]
  | false =>
      have hstate : (m.entryOrInsert now service).state ≠ .halfOpen := m.getState_eq now _ ▸ h
      have hcounts := CircuitBreakerEntry.counts_recordFailure m.config now
        (m.entryOrInsert now service)
      rw [if_neg hstate] at hcounts
      simp only [Bool.false_eq_true, if_false, CircuitBreakerManager.recordFailure,
        CircuitBreakerManager.getState_insert]
      refine ⟨?_, CircuitBreakerEntry.recordFailure_not_halfOpen _ _ _⟩
      simp only [counts, AList.lookup_insert, hcounts]
      unfold CircuitBreakerManager.entryOrInsert
      cases m.breakers.lookup service <;> rfl

/-- Results leave the configuration alone. -/
theorem config_record (service : Uuid) (m : CircuitBreakerManager) (now : Instant)
    (succeeded : Bool) :
    (if succeeded then m.recordSuccess now service else m.recordFailure now service).config =
      m.config := by
  cases succeeded <;> rfl

/-- A result in a closed or open breaker keeps the invariant. -/
theorem inv_record_of_ne (hs : s.Inv service limit) {now : Instant} {probe : Option ℕ}
    {succeeded : Bool} (hne : s.manager.getState service ≠ .halfOpen)
    (h : step service s (.record now probe succeeded) = some s') : s'.Inv service limit := by
  simp only [step, Option.ite_none_right_eq_some, Option.some.injEq] at h
  obtain ⟨_, rfl⟩ := h
  obtain ⟨hcounts, hafter⟩ := record_of_ne hne now succeeded
  have hconfig := config_record service s.manager now succeeded
  constructor
  case sane => exact hconfig ▸ hs.sane
  case limit_eq => exact hconfig ▸ hs.limit_eq
  case periods_le => exact fun p hp => hs.periods_le p (List.mem_of_mem_erase hp)
  case counted =>
    intro entry hl hhalf
    exact absurd ((CircuitBreakerManager.getState_of_lookup hl).trans hhalf) hafter
  case closings_ge => simpa [hne] using hs.closings_ge
  case undisturbed => simp [hcounts, hs.undisturbed]

/-- The success of a probe keeps the invariant: it is one probe less under way and one more that
has succeeded, and the breaker closes when that makes `limit` of them. -/
theorem inv_record_success (hs : s.Inv service limit) {now : Instant}
    (hhalf : s.manager.getState service = .halfOpen)
    (h : step service s (.record now (some s.period) true) = some s') : s'.Inv service limit := by
  simp only [step, Option.ite_none_right_eq_some, Option.some.injEq] at h
  obtain ⟨hmem, rfl⟩ := h
  obtain ⟨entry, hl, hstate⟩ := lookup_of_getState hhalf
  have hold := hs.counted entry hl hstate
  have hlimit := hs.limit_eq
  have hle := hs.sane.limit_le
  have hpos := hs.sane.limit_pos
  have hsat : saturatingAdd entry.successCountHalfOpen 1 = s.successes + 1 := by
    have := hold.succeeded
    have := hold.succeeded_lt
    unfold saturatingAdd
    omega
  have hlookup : (s.manager.recordSuccess now service).breakers.lookup service =
      some (entry.recordSuccess s.manager.config now) := by
    rw [CircuitBreakerManager.lookup_recordSuccess, if_pos rfl, hl]
    rfl
  have hprobe : s.IsProbe service (some s.period) := ⟨hhalf, rfl⟩
  have hmax : max s.manager.config.halfOpenMaxRequests 1 = limit := by omega
  rw [CircuitBreakerEntry.recordSuccess_of_halfOpen _ _ hstate, hsat, hmax] at hlookup
  have hafter : (s.manager.recordSuccess now service).getState service =
      if limit ≤ s.successes + 1 then .closed else .halfOpen := by
    rw [CircuitBreakerManager.getState, hlookup]
    split
    next => rfl
    next => exact hstate
  have hsame : (s.manager.recordSuccess now service).config = s.manager.config := rfl
  constructor
  case sane => exact hs.sane
  case limit_eq => exact hs.limit_eq
  case periods_le => exact fun p hp => hs.periods_le p (List.mem_of_mem_erase hp)
  case undisturbed => simp [hs.undisturbed, hprobe]
  case closings_ge =>
    simp only [if_true, hprobe, hhalf, hafter]
    by_cases hreached : limit ≤ s.successes + 1
    · simpa [hreached] using hs.closings_ge
    · simpa [hreached] using hs.closings_ge
  case counted =>
    intro entry' hentry' hhalf'
    simp only [if_true, hlookup, Option.some.injEq] at hentry'
    by_cases hreached : limit ≤ s.successes + 1
    -- The breaker has closed, so its entry counts no probes.
    · simp [hreached] at hentry'
      simp [← hentry'] at hhalf'
    -- One probe less is under way, and one more has succeeded.
    · rw [if_neg hreached] at hentry'
      have hcount : (s.unrecorded.erase (some s.period)).count (some s.period) =
          s.unrecorded.count (some s.period) - 1 := List.count_erase_self
      have hinFlight := hold.inFlight
      have hinFlight_le := hold.inFlight_le
      subst hentry'
      constructor
      case succeeded => simp [hprobe]
      case succeeded_lt =>
        simp [hprobe]
        omega
      all_goals
        dsimp only
        omega

/-- The failure of a probe keeps the invariant: it ends the period. -/
theorem inv_record_failure (hs : s.Inv service limit) {now : Instant}
    (hhalf : s.manager.getState service = .halfOpen)
    (h : step service s (.record now (some s.period) false) = some s') : s'.Inv service limit := by
  simp only [step, Option.ite_none_right_eq_some, Option.some.injEq] at h
  obtain ⟨hmem, rfl⟩ := h
  have hprobe : s.IsProbe service (some s.period) := ⟨hhalf, rfl⟩
  have hafter : (s.manager.recordFailure now service).getState service = .open := by
    have hstate := s.manager.getState_eq now service ▸ hhalf
    rw [CircuitBreakerManager.recordFailure, CircuitBreakerManager.getState_insert]
    simp only [CircuitBreakerEntry.recordFailure, hstate]
  constructor
  case sane => exact hs.sane
  case limit_eq => exact hs.limit_eq
  case periods_le => exact fun p hp => hs.periods_le p (List.mem_of_mem_erase hp)
  case undisturbed => simp [hs.undisturbed, hprobe]
  case closings_ge => simpa [hafter] using hs.closings_ge
  case counted =>
    intro entry hl hstate
    have hopen := (CircuitBreakerManager.getState_of_lookup hl).symm.trans hafter
    rw [hopen] at hstate
    cases hstate

/-- Every step that keeps the periods apart keeps the invariant. -/
theorem inv_step (s : IsolationState) (a : IsolationAction) (s' : IsolationState)
    (hs : s.Inv service limit) (hok : KeepsPeriods service s a)
    (h : (machine service).step s a = some s') : s'.Inv service limit := by
  cases a with
  | allowRequest now => exact inv_allowRequest hs h
  | record now probe succeeded =>
      by_cases hhalf : s.manager.getState service = .halfOpen
      · obtain rfl := hok hhalf
        cases succeeded with
        | true => exact inv_record_success hs hhalf h
        | false => exact inv_record_failure hs hhalf h
      · exact inv_record_of_ne hs hhalf h

/-- Under the invariant the periods are isolated. -/
theorem Inv.isolated (hs : s.Inv service limit) : s.Isolated service limit where
  probes_le := by
    intro hhalf
    obtain ⟨entry, hl, hstate⟩ := lookup_of_getState hhalf
    have hold := hs.counted entry hl hstate
    exact hold.inFlight ▸ hold.inFlight_le
  closings_ge := hs.closings_ge
  undisturbed := hs.undisturbed

/-- The result of an earlier request that is recorded in a half-open period changes a count. -/
theorem disturbed_of_stale (s : IsolationState) (a : IsolationAction) (s' : IsolationState)
    (hs : s.Inv service limit) (hbad : ¬ KeepsPeriods service s a)
    (h : (machine service).step s a = some s') : ¬ s'.Isolated service limit := by
  cases a with
  | allowRequest now => exact absurd trivial hbad
  | record now probe succeeded =>
      obtain ⟨hhalf, hne⟩ : s.manager.getState service = .halfOpen ∧ probe ≠ some s.period := by
        simpa [KeepsPeriods] using hbad
      obtain ⟨entry, hl, hstate⟩ := lookup_of_getState hhalf
      have hold := hs.counted entry hl hstate
      have hstale : ¬ s.IsProbe service probe := fun hprobe => hne hprobe.2
      have hbefore : counts s.manager service =
          (entry.inFlightProbes, entry.successCountHalfOpen) := by simp [counts, hl]
      simp only [machine, step, Option.ite_none_right_eq_some, Option.some.injEq] at h
      obtain ⟨_, rfl⟩ := h
      -- The history notes every change of the counts by such a result.
      intro hiso
      have hsame := hiso.undisturbed
      simp only [hs.undisturbed, hstale, Bool.false_or, decide_false, Bool.not_false,
        Bool.true_and, decide_eq_false_iff_not, not_not, hbefore] at hsame
      cases succeeded with
      | true =>
          -- One more success is counted.
          have hsat : saturatingAdd entry.successCountHalfOpen 1 =
              entry.successCountHalfOpen + 1 := by
            have := hold.succeeded
            have := hold.succeeded_lt
            have := hs.limit_eq
            have := hs.sane.limit_le
            unfold saturatingAdd
            omega
          have hcounts : (counts (s.manager.recordSuccess now service) service).2 =
              entry.successCountHalfOpen + 1 := by
            simp only [counts, CircuitBreakerManager.lookup_recordSuccess, if_true, hl,
              Option.map_some, CircuitBreakerEntry.recordSuccess_of_halfOpen _ _ hstate, hsat]
            split <;> rfl
          simp only [if_true] at hsame
          rw [hsame] at hcounts
          simp at hcounts
      | false =>
          -- Both counts are reset, and one of them was positive.
          have hfound : s.manager.entryOrInsert now service = entry := by
            simp [CircuitBreakerManager.entryOrInsert, hl]
          have hcounts : counts (s.manager.recordFailure now service) service = (0, 0) := by
            simp only [counts, CircuitBreakerManager.lookup_recordFailure, if_true, hfound,
              CircuitBreakerEntry.counts_recordFailure, hstate]
          simp only [Bool.false_eq_true, if_false, hcounts, Prod.mk.injEq] at hsame
          have hprobe := hold.probe
          omega

/-- The invariant holds at the start. -/
theorem inv_initial (t : UInt32) (r : UInt64) (h : UInt32) :
    (initial t r h).Inv service (max h.toNat 1) where
  sane := CircuitBreakerConfigState.sane_clamped t h r
  limit_eq := rfl
  periods_le := by simp [initial]
  counted := by simp [initial, CircuitBreakerManager.new]
  closings_ge := by simp [initial]
  undisturbed := rfl

/-- In every run the half-open periods are isolated throughout exactly if no result of an earlier
request is recorded in a half-open period. -/
theorem isolated_throughout_iff (service : Uuid) (t : UInt32) (r : UInt64) (h : UInt32)
    (as : List IsolationAction) (s : IsolationState)
    (hrun : (machine service).Runs Machine.unrestricted (initial t r h) as s) :
    (machine service).Throughout (Isolated service (max h.toNat 1)) (initial t r h) as ↔
      (machine service).Runs (KeepsPeriods service) (initial t r h) as s :=
  hrun.throughout_iff (fun _ => Inv.isolated) inv_step disturbed_of_stale (inv_initial t r h)

/-- Two requests are admitted, one fails and opens the breaker of service 7, the timeout passes
and a probe is admitted. -/
def probedRun : List IsolationAction :=
  [.allowRequest 0, .allowRequest 0, .record 1 none false, .allowRequest 1000000001]

/-- The isolation on a run that ends with the probe's own success. -/
theorem isolated_throughout_probedRun :
    (machine 7).Throughout (Isolated 7 1) (initial 1 1 1)
      (probedRun ++ [.record 1000000002 (some 1) true]) := by
  obtain ⟨s, hs⟩ : ∃ s, (machine 7).exec (KeepsPeriods 7) (initial 1 1 1)
      (probedRun ++ [.record 1000000002 (some 1) true]) = some s :=
    Option.isSome_iff_exists.mp (by decide)
  have hall : (machine 7).exec Machine.unrestricted (initial 1 1 1)
      (probedRun ++ [.record 1000000002 (some 1) true]) = some s := hs
  exact (isolated_throughout_iff 7 1 1 1 _ s (Machine.runs_of_exec hall)).mpr
    (Machine.runs_of_exec hs)

/-- Results do disturb a half-open period: the success of a request admitted before the opening
closes the breaker while its only probe is under way and none has succeeded. -/
theorem isolated_fails :
    ¬ ∀ (service : Uuid) (t : UInt32) (r : UInt64) (h : UInt32) (as : List IsolationAction)
      (s : IsolationState), (machine service).Runs Machine.unrestricted (initial t r h) as s →
        s.Isolated service (max h.toNat 1) := by
  intro hall
  have hend : ∃ s, (machine 7).exec Machine.unrestricted (initial 1 1 1)
      (probedRun ++ [.record 1000000002 none true]) = some s ∧ s.closings = [0] := ⟨_, rfl, rfl⟩
  obtain ⟨s, hs, hclosings⟩ := hend
  have hiso := hall 7 1 1 1 _ s (Machine.runs_of_exec hs)
  have hge := hiso.closings_ge 0 (by simp [hclosings])
  exact absurd hge (by decide)

end IsolationState

end XiraNet

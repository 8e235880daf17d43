import Mathlib.Logic.Function.Iterate
import XiraNet.Base
import XiraNet.Lib.Runs

/-!
# The request queue

`gateway/request_queue.rs`: calls of `acquire` are counted under the lock of the statistics, wait
for a permit of the semaphore, and are counted out by an update that the drop of their permit
spawns. Calls are interchangeable, so the queue has the number of those at each point. A call may be
dropped wherever it waits. The times for which permits are held are left out.

* `QueueState.depth_iff`: in which runs the depth of the queue is exact.
* `QueueState.depth_fails`: a call that is dropped while it waits stays counted.
-/

namespace XiraNet

/-- `u64` subtraction of one, which wraps in a release build. -/
def wrappingPred (a : ℕ) : ℕ := wrappingAdd a (2 ^ 64 - 1)

/-- `QueueStats`. -/
structure QueueStats where
  queued : ℕ
  processed : ℕ
  rejected : ℕ
  maxQueueDepth : ℕ
  currentDepth : ℕ
  deriving DecidableEq, Repr

/-- `Semaphore::MAX_PERMITS`. -/
def maxPermits : ℕ := 2 ^ 61 - 1

/-- `RequestQueue`, which cannot be built with more permits than a semaphore has. -/
structure RequestQueue where
  maxConcurrent : ℕ
  enabled : Bool
  maxConcurrent_le : maxConcurrent ≤ maxPermits

namespace QueueStats

/-- `QueueStats::default`. -/
def zero : QueueStats := ⟨0, 0, 0, 0, 0⟩

/-- The call is counted. -/
def enter (stats : QueueStats) : QueueStats :=
  let depth := wrappingAdd stats.currentDepth 1
  { stats with
    queued := wrappingAdd stats.queued 1
    currentDepth := depth
    maxQueueDepth := if stats.maxQueueDepth < depth then depth else stats.maxQueueDepth }

/-- The call is rejected and counted out. -/
def reject (stats : QueueStats) : QueueStats :=
  { stats with
    rejected := wrappingAdd stats.rejected 1
    currentDepth := wrappingPred stats.currentDepth }

/-- The first section of `acquire` of an enabled queue, with the reason of a rejection. -/
def register (stats : QueueStats) (queue : RequestQueue) : QueueStats × Option String :=
  let stats := stats.enter
  if queue.maxConcurrent * 2 % 2 ^ 64 < stats.currentDepth then
    let stats := stats.reject
    (stats, some ("Queue full: " ++ toString stats.currentDepth ++ "/" ++
      toString (queue.maxConcurrent * 2 % 2 ^ 64) ++ " (backpressure)"))
  else (stats, none)

/-- The section of `acquire` after a timeout, with the reason of the rejection. -/
def timeOut (stats : QueueStats) : QueueStats × String := (stats.reject, "Queue timeout (30s)")

/-- The update that the drop of a permit spawns. -/
def release (stats : QueueStats) : QueueStats :=
  { stats with
    processed := wrappingAdd stats.processed 1
    currentDepth := stats.currentDepth - 1 }

end QueueStats

/-- A queue with its calls and permits. -/
structure QueueState where
  stats : QueueStats
  /-- The permits that are left in the semaphore. -/
  available : ℕ
  /-- Calls that wait for a permit. -/
  waiting : ℕ
  /-- Calls that have waited too long, and wait for the lock to be counted out. -/
  timedOut : ℕ
  /-- Permits that calls have returned. -/
  held : ℕ
  /-- Permits that are being dropped: the update is spawned, and the semaphore has not got them
  back. -/
  dropping : ℕ
  /-- Spawned updates that have not run. -/
  updates : ℕ
  deriving DecidableEq, Repr

/-- The steps of calls, permits and updates. -/
inductive QueueAction
  /-- A call is admitted or rejected. -/
  | enter
  /-- A call gets a permit and returns it. -/
  | grant
  | timeout
  /-- A call that has timed out is counted out. -/
  | giveUp
  /-- The future of a call is dropped while it waits for a permit. -/
  | cancelWaiting
  /-- The future of a call is dropped while it waits to be counted out. -/
  | cancelTimedOut
  | dropPermit
  | returnPermit
  | update
  deriving DecidableEq, Repr

namespace QueueState

/-- A new queue. -/
def initial (queue : RequestQueue) : QueueState := ⟨.zero, queue.maxConcurrent, 0, 0, 0, 0, 0⟩

/-- One step. -/
def step (queue : RequestQueue) (s : QueueState) : QueueAction → Option QueueState
  | .enter =>
      if queue.enabled then
        match s.stats.register queue with
        | (stats, some _) => some { s with stats }
        | (stats, none) => some { s with stats, waiting := s.waiting + 1 }
      else
        -- A permit is tried first, and waited for if there is none.
        some { s with waiting := s.waiting + 1 }
  | .grant =>
      if 0 < s.waiting ∧ 0 < s.available then
        some { s with
          waiting := s.waiting - 1
          available := s.available - 1
          held := s.held + 1 }
      else none
  | .timeout =>
      if queue.enabled = true ∧ 0 < s.waiting then
        some { s with waiting := s.waiting - 1, timedOut := s.timedOut + 1 }
      else none
  | .giveUp =>
      if 0 < s.timedOut then
        some { s with stats := s.stats.timeOut.1, timedOut := s.timedOut - 1 }
      else none
  | .cancelWaiting => if 0 < s.waiting then some { s with waiting := s.waiting - 1 } else none
  | .cancelTimedOut => if 0 < s.timedOut then some { s with timedOut := s.timedOut - 1 } else none
  | .dropPermit =>
      if 0 < s.held then
        some { s with
          held := s.held - 1
          dropping := s.dropping + 1
          updates := s.updates + 1 }
      else none
  | .returnPermit =>
      if 0 < s.dropping then
        some { s with dropping := s.dropping - 1, available := s.available + 1 }
      else none
  | .update =>
      if 0 < s.updates then
        some { s with stats := s.stats.release, updates := s.updates - 1 }
      else none

/-- Every interleaving of calls, permits and updates. -/
def machine (queue : RequestQueue) : Machine QueueState QueueAction := ⟨step queue⟩

/-- Once the spawned updates have run. -/
def settled (s : QueueState) : QueueState :=
  { s with stats := QueueStats.release^[s.updates] s.stats, updates := 0 }

/-- Once the spawned updates have run, the depth is the number of calls that wait and of permits
that are held. So an empty queue rejects nothing, and there are no more permits than allowed. -/
structure Exact (queue : RequestQueue) (s : QueueState) : Prop where
  depth : s.settled.stats.currentDepth = s.waiting + s.timedOut + s.held
  admits : s.waiting + s.timedOut = 0 → s.held = 0 → (s.settled.stats.register queue).2 = none
  held : s.held ≤ queue.maxConcurrent

/-- No call is dropped after it was counted. -/
def KeepsCounted (_ : QueueState) : QueueAction → Prop
  | .cancelWaiting | .cancelTimedOut => False
  | _ => True

instance (s : QueueState) : (a : QueueAction) → Decidable (s.KeepsCounted a)
  | .cancelWaiting | .cancelTimedOut => .isFalse fun h => h
  | .enter | .grant | .timeout | .giveUp | .dropPermit | .returnPermit | .update => .isTrue trivial

/-- Every call that waits, every permit that is held and every update to come is counted once. -/
structure Inv (queue : RequestQueue) (s : QueueState) : Prop where
  depth : s.stats.currentDepth = s.waiting + s.timedOut + s.held + s.updates
  bounded : s.stats.currentDepth ≤ queue.maxConcurrent * 2
  permits : s.available + s.held + s.dropping = queue.maxConcurrent

variable {queue : RequestQueue} {s t : QueueState} {a : QueueAction}

/-- The spawned updates may run. -/
theorem runs_settled (s : QueueState) :
    (machine queue).Runs Machine.unrestricted s (List.replicate s.updates .update) s.settled := by
  obtain ⟨stats, available, waiting, timedOut, held, dropping, updates⟩ := s
  induction updates generalizing stats with
  | zero => exact .nil _
  | succ updates ih =>
      have hstep : (machine queue).step ⟨stats, available, waiting, timedOut, held, dropping,
          updates + 1⟩ .update = some ⟨stats.release, available, waiting, timedOut, held, dropping,
          updates⟩ := rfl
      exact .cons trivial hstep (ih stats.release)

/-- Each update counts one out. -/
theorem currentDepth_settled (s : QueueState) :
    s.settled.stats.currentDepth = s.stats.currentDepth - s.updates := by
  have hiterate : ∀ (n : ℕ) (stats : QueueStats),
      (QueueStats.release^[n] stats).currentDepth = stats.currentDepth - n := by
    intro n
    induction n with
    | zero => exact fun _ => rfl
    | succ n ih =>
        intro stats
        rw [Function.iterate_succ_apply, ih, QueueStats.release]
        dsimp only
        omega
  exact hiterate s.updates s.stats

/-- What the first section does to the depth, and when it rejects a call. -/
theorem register_spec {stats : QueueStats} (hdepth : stats.currentDepth ≤ queue.maxConcurrent * 2) :
    (stats.currentDepth + 1 ≤ queue.maxConcurrent * 2 ∧ (stats.register queue).2 = none ∧
        (stats.register queue).1.currentDepth = stats.currentDepth + 1) ∨
      (queue.maxConcurrent * 2 = stats.currentDepth ∧ (stats.register queue).2.isSome ∧
        (stats.register queue).1.currentDepth = stats.currentDepth) := by
  have hmax : queue.maxConcurrent ≤ 2 ^ 61 - 1 := queue.maxConcurrent_le
  have hdouble : queue.maxConcurrent * 2 % 2 ^ 64 = queue.maxConcurrent * 2 := by omega
  have henter : stats.enter.currentDepth = stats.currentDepth + 1 := by
    simp only [QueueStats.enter, wrappingAdd]
    omega
  unfold QueueStats.register
  simp only [hdouble, henter]
  by_cases hfull : queue.maxConcurrent * 2 < stats.currentDepth + 1
  · rw [if_pos hfull]
    refine .inr ⟨by omega, rfl, ?_⟩
    simp only [QueueStats.reject, wrappingPred, wrappingAdd, henter]
    omega
  · rw [if_neg hfull]
    exact .inl ⟨by omega, rfl, henter⟩

/-- A call that is counted out leaves its place. -/
theorem currentDepth_reject {stats : QueueStats} (hpos : 0 < stats.currentDepth)
    (hdepth : stats.currentDepth ≤ queue.maxConcurrent * 2) :
    stats.reject.currentDepth = stats.currentDepth - 1 := by
  have hmax : queue.maxConcurrent ≤ 2 ^ 61 - 1 := queue.maxConcurrent_le
  simp only [QueueStats.reject, wrappingPred, wrappingAdd]
  omega

/-- Nothing is counted at the start. -/
theorem inv_initial (queue : RequestQueue) : Inv queue (initial queue) :=
  ⟨rfl, Nat.zero_le _, rfl⟩

/-- What is counted once is exact. -/
theorem Inv.exact (hs : s.Inv queue) (hmax : 1 ≤ queue.maxConcurrent) : s.Exact queue := by
  have hdepth : s.settled.stats.currentDepth = s.waiting + s.timedOut + s.held := by
    rw [currentDepth_settled, hs.depth]
    omega
  have hpermits := hs.permits
  refine ⟨hdepth, fun hwaiting hheld => ?_, by omega⟩
  have hempty : s.settled.stats.currentDepth = 0 := by omega
  rcases @register_spec queue s.settled.stats (by omega) with ⟨-, hnone, -⟩ | ⟨hfull, -, -⟩
  · exact hnone
  · omega

/-- Every step but the drop of a counted call keeps the invariant. -/
theorem inv_step (henabled : queue.enabled = true) (hs : s.Inv queue) (hok : s.KeepsCounted a)
    (h : s.step queue a = some t) : t.Inv queue := by
  obtain ⟨hdepth, hbounded, hpermits⟩ := hs
  cases a with
  | enter =>
      rw [step, if_pos henabled] at h
      split at h
      next stats reason hregister =>
        -- A rejected call is counted out at once.
        cases h
        rcases register_spec hbounded with ⟨-, hnone, -⟩ | ⟨-, -, hnext⟩
        · rw [hregister] at hnone
          cases hnone
        · rw [hregister] at hnext
          exact ⟨hnext.trans hdepth, Nat.le_trans (Nat.le_of_eq hnext) hbounded, hpermits⟩
      next stats hregister =>
        cases h
        rcases register_spec hbounded with ⟨hle, -, hnext⟩ | ⟨-, hsome, -⟩
        · rw [hregister] at hnext
          dsimp only at hnext
          exact ⟨by dsimp only; omega, by dsimp only; omega, hpermits⟩
        · rw [hregister] at hsome
          cases hsome
  | grant =>
      obtain ⟨⟨hwaiting, havailable⟩, h⟩ := Option.ite_none_right_eq_some.mp h
      cases h
      exact ⟨by dsimp only; omega, hbounded, by dsimp only; omega⟩
  | timeout =>
      obtain ⟨⟨-, hwaiting⟩, h⟩ := Option.ite_none_right_eq_some.mp h
      cases h
      exact ⟨by dsimp only; omega, hbounded, hpermits⟩
  | giveUp =>
      obtain ⟨htimedOut, h⟩ := Option.ite_none_right_eq_some.mp h
      cases h
      have hpos : 0 < s.stats.currentDepth := by omega
      have hreject := currentDepth_reject hpos hbounded
      exact ⟨by dsimp only [QueueStats.timeOut]; omega, by dsimp only [QueueStats.timeOut]; omega,
        hpermits⟩
  | cancelWaiting => cases hok
  | cancelTimedOut => cases hok
  | dropPermit =>
      obtain ⟨hheld, h⟩ := Option.ite_none_right_eq_some.mp h
      cases h
      exact ⟨by dsimp only; omega, hbounded, by dsimp only; omega⟩
  | returnPermit =>
      obtain ⟨hdropping, h⟩ := Option.ite_none_right_eq_some.mp h
      cases h
      exact ⟨hdepth, hbounded, by dsimp only; omega⟩
  | update =>
      obtain ⟨hupdates, h⟩ := Option.ite_none_right_eq_some.mp h
      cases h
      have hrelease : s.stats.release.currentDepth = s.stats.currentDepth - 1 := rfl
      exact ⟨by dsimp only; omega, by dsimp only; omega, hpermits⟩

/-- A call that is dropped stays counted. -/
theorem not_exact_step (hs : s.Inv queue) (hbad : ¬s.KeepsCounted a)
    (h : s.step queue a = some t) : ¬t.Exact queue := by
  obtain ⟨hdepth, -, -⟩ := hs
  cases a with
  | cancelWaiting | cancelTimedOut =>
      obtain ⟨hpos, h⟩ := Option.ite_none_right_eq_some.mp h
      cases h
      intro hexact
      have hcounted := hexact.depth
      rw [currentDepth_settled] at hcounted
      dsimp only at hcounted
      omega
  | enter | grant | timeout | giveUp | dropPermit | returnPermit | update =>
      exact absurd trivial hbad

/-- In every run of an enabled queue, its depth is exact exactly if no call is dropped after it was
counted. -/
theorem depth_iff (henabled : queue.enabled = true) (hmax : 1 ≤ queue.maxConcurrent)
    {as : List QueueAction}
    (hrun : (machine queue).Runs Machine.unrestricted (initial queue) as s) :
    (machine queue).Throughout (Exact queue) (initial queue) as ↔
      (machine queue).Runs KeepsCounted (initial queue) as s :=
  hrun.throughout_iff (fun _ hs => hs.exact hmax)
    (fun _ _ _ hs hok h => inv_step henabled hs hok h)
    (fun _ _ _ hs hbad h => not_exact_step hs hbad h) (inv_initial queue)

/-- An enabled queue with one permit. -/
def onePermit : RequestQueue := ⟨1, true, by decide⟩

/-- One call gets the permit, one times out, and one is rejected. -/
def threeCalls : List QueueAction :=
  [.enter, .grant, .enter, .enter, .timeout, .giveUp, .dropPermit, .update, .returnPermit, .enter]

/-- The depth is exact where no call is dropped. -/
theorem depth_threeCalls :
    (machine onePermit).Throughout (Exact onePermit) (initial onePermit) threeCalls := by
  have hkeeps : (machine onePermit).Runs KeepsCounted (initial onePermit) threeCalls _ :=
    Machine.runs_of_exec rfl
  exact (depth_iff rfl (Nat.le_refl 1) (hkeeps.mono fun _ _ _ => trivial)).mpr hkeeps

/-- After two calls were dropped while they waited, the empty queue rejects every call. -/
theorem depth_fails :
    ¬∀ (queue : RequestQueue) (as : List QueueAction) (s : QueueState), queue.enabled = true →
      1 ≤ queue.maxConcurrent → (machine queue).Runs Machine.unrestricted (initial queue) as s →
        s.Exact queue := by
  intro hall
  have hrun : (machine onePermit).Runs Machine.unrestricted (initial onePermit)
      [.enter, .cancelWaiting, .enter, .cancelWaiting] _ := Machine.runs_of_exec rfl
  have hadmitted := (hall onePermit _ _ rfl (Nat.le_refl 1) hrun).admits rfl rfl
  exact absurd hadmitted (by decide)

end QueueState

end XiraNet

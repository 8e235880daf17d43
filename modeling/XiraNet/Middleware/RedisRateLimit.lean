import XiraNet.Base
import XiraNet.Lib.ExpiringCounters
import XiraNet.Lib.Runs

/-!
# Distributed rate limits

`middleware/redis_rate_limit.rs`: counters on a Redis server that several gateway nodes count up.
The expiry of a counter is set by a second command, which only the call that created the counter
sends.

* `RedisLimiterState.recovers_iff`: when no call is in progress every counter expires within the
  window, and who was rejected is let in after it, exactly if every call that created a counter set
  its expiry, and no limit is 0.
* `RedisLimiterState.recovers_fails`: one lost answer, and a client is locked out.
-/

namespace XiraNet

/-- `DistributedRateLimiter`, with a connection. Without one every call is allowed, like a call
whose `INCR` fails without effect. -/
structure DistributedRateLimiter where
  maxRequests : ℕ
  windowSecs : ℕ
  deriving DecidableEq, Repr

/-- A call of `check_rate_limit` or `check_service_rate_limit`. -/
inductive LimitCall
  | rateLimit (ip : String)
  | serviceRateLimit (ip serviceId : String) (max : ℕ)
  deriving DecidableEq, Repr

/-- How a command ends: with an answer, or with an error, in which case it may have been applied or
not. -/
inductive CommandOutcome
  | answered
  | failed (applied : Bool)
  deriving DecidableEq, Repr

namespace DistributedRateLimiter

/-- What `check_rate_limit` returns, by the count that it was answered. -/
def rateLimitAnswer (l : DistributedRateLimiter) : Option ℕ → Bool × ℕ
  | none => (true, 0)
  | some count => (count ≤ l.maxRequests, l.maxRequests - count)

/-- What `check_service_rate_limit` returns. An error counts as 0. -/
def serviceRateLimitAnswer (max : ℕ) (count : Option ℕ) : Bool := count.getD 0 ≤ max

end DistributedRateLimiter

namespace LimitCall

/-- The key of the counter. -/
def key : LimitCall → String
  | .rateLimit ip => "xiranet:rl:" ++ ip
  | .serviceRateLimit ip serviceId _ => "xiranet:rl:" ++ serviceId ++ ":" ++ ip

/-- The largest count that is allowed. -/
def limit (l : DistributedRateLimiter) : LimitCall → ℕ
  | .rateLimit _ => l.maxRequests
  | .serviceRateLimit _ _ max => max

/-- Whether the call returns that the request is allowed. -/
def allowed (l : DistributedRateLimiter) (count : Option ℕ) : LimitCall → Bool
  | .rateLimit _ => (l.rateLimitAnswer count).1
  | .serviceRateLimit _ _ max => DistributedRateLimiter.serviceRateLimitAnswer max count

/-- Whether the call goes on to `EXPIRE`. -/
def sendsExpire (count : Option ℕ) : LimitCall → Bool
  | .rateLimit _ => count = some 1
  | .serviceRateLimit .. => count.getD 0 = 1

/-- The first to be counted sets the expiry. -/
theorem sendsExpire_iff {call : LimitCall} {count : Option ℕ} :
    call.sendsExpire count = true ↔ count = some 1 := by
  cases call with
  | rateLimit ip => simp [sendsExpire]
  | serviceRateLimit ip serviceId max => cases count <;> simp [sendsExpire]

/-- A request is allowed if no count is known, or one up to the limit. -/
theorem allowed_iff {l : DistributedRateLimiter} {call : LimitCall} {count : Option ℕ} :
    call.allowed l count = true ↔ ∀ n, count = some n → n ≤ call.limit l := by
  cases call <;> cases count <;>
    simp [allowed, limit, DistributedRateLimiter.rateLimitAnswer,
      DistributedRateLimiter.serviceRateLimitAnswer]

end LimitCall

/-- `INCR`, with the count that the node gets to know. The answer is read as a `u32`. -/
def runIncr (r : CounterStore String) (key : String) :
    CommandOutcome → CounterStore String × Option ℕ
  | .answered => ((r.incr key).1, if (r.incr key).2 ≤ u32Max then some (r.incr key).2 else none)
  | .failed applied => (if applied then (r.incr key).1 else r, none)

/-- `EXPIRE`, whose answer is ignored. -/
def runExpire (r : CounterStore String) (key : String) (secs : ℤ) :
    CommandOutcome → CounterStore String
  | .answered => r.expire key secs
  | .failed applied => if applied then r.expire key secs else r

/-- What a call returned, and when. -/
structure LimitAnswer where
  time : ℕ
  call : LimitCall
  allowed : Bool
  deriving DecidableEq, Repr

/-- The server, the calls that have to send `EXPIRE` yet, each with its node, and what the others
returned. Between its start and its `INCR` a call has touched nothing and is not recorded. -/
structure RedisLimiterState where
  redis : CounterStore String
  inProgress : List (ℕ × LimitCall)
  answers : List LimitAnswer

/-- A call sends `INCR` or `EXPIRE`, the process of a node stops, or time passes. -/
inductive LimiterAction
  | incr (node : ℕ) (call : LimitCall) (outcome : CommandOutcome)
  | expire (node : ℕ) (call : LimitCall) (outcome : CommandOutcome)
  | stop (node : ℕ)
  | wait (secs : ℕ)
  deriving DecidableEq, Repr

namespace RedisLimiterState

/-- A server without counters. -/
def initial : RedisLimiterState := ⟨⟨0, ∅⟩, [], []⟩

/-- A call returns. -/
def answer (l : DistributedRateLimiter) (s : RedisLimiterState) (call : LimitCall)
    (count : Option ℕ) : List LimitAnswer :=
  ⟨s.redis.now, call, call.allowed l count⟩ :: s.answers

/-- One step. -/
def step (l : DistributedRateLimiter) (s : RedisLimiterState) :
    LimiterAction → Option RedisLimiterState
  | .incr node call outcome =>
      let (redis, count) := runIncr s.redis call.key outcome
      if call.sendsExpire count then some ⟨redis, (node, call) :: s.inProgress, s.answers⟩
      else some ⟨redis, s.inProgress, s.answer l call count⟩
  | .expire node call outcome =>
      if (node, call) ∈ s.inProgress then
        some ⟨runExpire s.redis call.key (asI64 l.windowSecs) outcome,
          s.inProgress.erase (node, call), s.answer l call (some 1)⟩
      else none
  | .stop node => some { s with inProgress := s.inProgress.filter fun p => p.1 ≠ node }
  | .wait secs => some { s with redis := s.redis.wait secs }

/-- The limiter on any number of nodes. -/
def machine (l : DistributedRateLimiter) : Machine RedisLimiterState LimiterAction := ⟨step l⟩

/-- Every counter expires within the window. -/
def Expiring (l : DistributedRateLimiter) (s : RedisLimiterState) : Prop :=
  ∀ key c, s.redis.counters.lookup key = some c →
    ∃ t, c.expiry = some t ∧ t ≤ s.redis.now + l.windowSecs

/-- Nothing is counted under a key. -/
def Silent (key : String) (_ : RedisLimiterState) : LimiterAction → Prop
  | .incr _ call _ => call.key ≠ key
  | _ => True

/-- Who is silent for the window is let in after it, whatever happens to others. -/
def Readmits (l : DistributedRateLimiter) (s : RedisLimiterState) (call : LimitCall) : Prop :=
  ∀ as t, (machine l).Runs (Silent call.key) s as t → t.redis.now = s.redis.now + l.windowSecs →
    ∀ outcome, call.allowed l (runIncr t.redis call.key outcome).2 = true

/-- The calls that are rejected right now. -/
def Rejected (s : RedisLimiterState) (call : LimitCall) : Prop :=
  ⟨s.redis.now, call, false⟩ ∈ s.answers

/-- Every counter expires, and who is rejected is let in after the window. -/
def Recovers (l : DistributedRateLimiter) (s : RedisLimiterState) : Prop :=
  s.Expiring l ∧ ∀ call, s.Rejected call → s.Readmits l call

/-- No error follows an `INCR` that creates a counter, `EXPIRE` is applied, and no node stops
between the two. -/
def SetsExpiry (s : RedisLimiterState) : LimiterAction → Prop
  | .incr _ call outcome => outcome = .failed true → (s.redis.get call.key).isSome = true
  | .expire _ _ outcome => outcome ≠ .failed false
  | .stop node => ∀ p ∈ s.inProgress, p.1 ≠ node
  | .wait _ => True

instance (s : RedisLimiterState) : (a : LimiterAction) → Decidable (s.SetsExpiry a)
  | .incr .. => inferInstanceAs (Decidable (_ → _))
  | .expire .. => inferInstanceAs (Decidable (¬_))
  | .stop _ => inferInstanceAs (Decidable (∀ p ∈ _, _))
  | .wait _ => .isTrue trivial

/-- The invariant: a counter expires within the window, or else a call is in progress that is going
to set its expiry, and no two calls are for the same counter. -/
structure Inv (l : DistributedRateLimiter) (s : RedisLimiterState) : Prop where
  expiring : ∀ key c, s.redis.counters.lookup key = some c →
    (∃ t, c.expiry = some t ∧ t ≤ s.redis.now + l.windowSecs) ∨ ∃ p ∈ s.inProgress, p.2.key = key
  positive : ∀ key c, s.redis.counters.lookup key = some c → 1 ≤ c.count
  pending : ∀ p ∈ s.inProgress, ∃ c, s.redis.counters.lookup p.2.key = some c ∧ c.expiry = none
  nodup : (s.inProgress.map fun p => p.2.key).Nodup

/-- A counter that will never expire. -/
def Stuck (s : RedisLimiterState) : Prop :=
  ∃ key c, s.redis.counters.lookup key = some c ∧ c.expiry = none ∧ 1 ≤ c.count ∧
    ∀ p ∈ s.inProgress, p.2.key ≠ key

variable {l : DistributedRateLimiter} {s t : RedisLimiterState} {node : ℕ} {call : LimitCall}
  {outcome : CommandOutcome} {a : LimiterAction}

/-- The call that creates the counter, and knows that it did, goes on to `EXPIRE`. -/
theorem step_incr (h : s.step l (.incr node call outcome) = some t) :
    t.redis = (runIncr s.redis call.key outcome).1 ∧
      t.inProgress = if outcome = .answered ∧ (s.redis.incr call.key).2 = 1 then
        (node, call) :: s.inProgress else s.inProgress := by
  have hcount : call.sendsExpire (runIncr s.redis call.key outcome).2 = true ↔
      outcome = .answered ∧ (s.redis.incr call.key).2 = 1 := by
    rw [LimitCall.sendsExpire_iff]
    cases outcome with
    | answered =>
        have hmax : 1 ≤ u32Max := by decide
        simp only [runIncr, Option.ite_none_right_eq_some, Option.some.injEq, true_and,
          and_iff_right_iff_imp]
        exact fun hone => hone ▸ hmax
    | failed applied => simp [runIncr]
  rw [step] at h
  dsimp only at h
  split at h
  next hsends =>
    cases h
    exact ⟨rfl, (if_pos (hcount.mp hsends)).symm⟩
  next hsends =>
    cases h
    exact ⟨rfl, (if_neg fun hone => hsends (hcount.mpr hone)).symm⟩

/-- `INCR` is applied or not. -/
theorem runIncr_cases (r : CounterStore String) (key : String) (outcome : CommandOutcome) :
    (runIncr r key outcome).1 = (r.incr key).1 ∨ (runIncr r key outcome).1 = r := by
  match outcome with
  | .answered => exact .inl rfl
  | .failed true => exact .inl rfl
  | .failed false => exact .inr rfl

/-- `EXPIRE` is applied or not. -/
theorem runExpire_cases (r : CounterStore String) (key : String) (secs : ℤ)
    (outcome : CommandOutcome) :
    runExpire r key secs outcome = r.expire key secs ∨
      (outcome = .failed false ∧ runExpire r key secs outcome = r) := by
  match outcome with
  | .answered => exact .inl rfl
  | .failed true => exact .inl rfl
  | .failed false => exact .inr ⟨rfl, rfl⟩

/-- A counter that is there goes on counting, or is left alone. -/
theorem lookup_runIncr_of_get {r : CounterStore String} {key : String} {c : ExpiringCounter}
    (h : r.get key = some c) (outcome : CommandOutcome) :
    ∃ n, c.count ≤ n ∧ (runIncr r key outcome).1.counters.lookup key = some ⟨n, c.expiry⟩ := by
  rcases runIncr_cases r key outcome with happlied | hsame
  · rw [happlied]
    exact ⟨c.count + 1, Nat.le_succ _, (CounterStore.incr_of_get h).2⟩
  · rw [hsame]
    exact ⟨c.count, le_rfl, CounterStore.lookup_of_get h⟩

/-- An `INCR` takes no time and leaves the other counters alone. -/
theorem frame_incr (h : s.step l (.incr node call outcome) = some t) :
    t.redis.now = s.redis.now ∧
      ∀ key ≠ call.key, t.redis.counters.lookup key = s.redis.counters.lookup key := by
  obtain ⟨hredis, -⟩ := step_incr h
  rcases runIncr_cases s.redis call.key outcome with happlied | hsame
  · rw [hredis, happlied]
    exact ⟨CounterStore.now_incr, fun key hne => CounterStore.lookup_incr_of_ne hne⟩
  · rw [hredis, hsame]
    exact ⟨rfl, fun _ _ => rfl⟩

/-- A call in progress is for a counter that is there. -/
theorem Inv.get_pending (hs : s.Inv l) {p : ℕ × LimitCall} (hp : p ∈ s.inProgress) :
    ∃ c, s.redis.get p.2.key = some c ∧ c.expiry = none ∧ 1 ≤ c.count := by
  obtain ⟨c, hc, hexpiry⟩ := hs.pending p hp
  exact ⟨c, CounterStore.get_of_expiry hc hexpiry, hexpiry, hs.positive _ c hc⟩

/-- An `INCR` of a counter that is there keeps the invariant. -/
theorem inv_incr_of_get (hs : s.Inv l) {c : ExpiringCounter} (hc : s.redis.get call.key = some c)
    (h : s.step l (.incr node call outcome) = some t) : t.Inv l := by
  obtain ⟨hredis, hprogress⟩ := step_incr h
  obtain ⟨hnow, hother⟩ := frame_incr h
  have hstored := CounterStore.lookup_of_get hc
  have hpositive := hs.positive _ c hstored
  obtain ⟨n, hn, hlookup⟩ := lookup_runIncr_of_get hc outcome
  rw [← hredis] at hlookup
  -- The count was 1 at least, so the call sends no `EXPIRE`.
  rw [(CounterStore.incr_of_get hc).1, if_neg (by omega)] at hprogress
  refine ⟨fun key c' hc' => ?_, fun key c' hc' => ?_, fun p hp => ?_, ?_⟩
  · rw [hnow, hprogress]
    by_cases hkey : key = call.key
    · subst hkey
      cases hlookup.symm.trans hc'
      exact hs.expiring _ c hstored
    · exact hs.expiring key c' ((hother key hkey).symm.trans hc')
  · by_cases hkey : key = call.key
    · subst hkey
      cases hlookup.symm.trans hc'
      exact hpositive.trans hn
    · exact hs.positive key c' ((hother key hkey).symm.trans hc')
  · rw [hprogress] at hp
    obtain ⟨c', hc', hexpiry⟩ := hs.pending p hp
    by_cases hkey : p.2.key = call.key
    · rw [hkey] at hc' ⊢
      cases hstored.symm.trans hc'
      exact ⟨_, hlookup, hexpiry⟩
    · exact ⟨c', (hother _ hkey).trans hc', hexpiry⟩
  · rw [hprogress]
    exact hs.nodup

/-- An answered `INCR` that creates a counter keeps the invariant. -/
theorem inv_incr_of_get_none (hs : s.Inv l) (hc : s.redis.get call.key = none)
    (h : s.step l (.incr node call .answered) = some t) : t.Inv l := by
  obtain ⟨hredis, hprogress⟩ := step_incr h
  obtain ⟨hnow, hother⟩ := frame_incr h
  obtain ⟨hone, hlookup⟩ := CounterStore.incr_of_get_none hc
  have hcreated : t.redis.counters.lookup call.key = some ⟨1, none⟩ := by
    rw [hredis]
    exact hlookup
  rw [if_pos ⟨rfl, hone⟩] at hprogress
  -- The counters of the calls in progress are there, so this is none of them.
  have hfresh : ∀ p ∈ s.inProgress, p.2.key ≠ call.key := by
    intro p hp heq
    obtain ⟨c, hget, -⟩ := hs.get_pending hp
    rw [heq, hc] at hget
    cases hget
  refine ⟨fun key c' hc' => ?_, fun key c' hc' => ?_, fun p hp => ?_, ?_⟩
  · rw [hnow, hprogress]
    by_cases hkey : key = call.key
    · -- This call is going to set the expiry.
      exact .inr ⟨(node, call), List.mem_cons_self, hkey.symm⟩
    · refine (hs.expiring key c' ((hother key hkey).symm.trans hc')).imp_right ?_
      exact fun ⟨p, hp, hpkey⟩ => ⟨p, List.mem_cons_of_mem _ hp, hpkey⟩
  · by_cases hkey : key = call.key
    · subst hkey
      cases hcreated.symm.trans hc'
      exact le_rfl
    · exact hs.positive key c' ((hother key hkey).symm.trans hc')
  · rw [hprogress] at hp
    rcases List.mem_cons.mp hp with rfl | hp
    · exact ⟨_, hcreated, rfl⟩
    · obtain ⟨c', hc', hexpiry⟩ := hs.pending p hp
      exact ⟨c', (hother _ (hfresh p hp)).trans hc', hexpiry⟩
  · rw [hprogress, List.map_cons, List.nodup_cons]
    refine ⟨fun hmem => ?_, hs.nodup⟩
    obtain ⟨p, hp, hpkey⟩ := List.mem_map.mp hmem
    exact hfresh p hp hpkey

/-- An `INCR` without effect leaves all as it is, but for the answer. -/
theorem inv_incr_failed (hs : s.Inv l) (h : s.step l (.incr node call (.failed false)) = some t) :
    t.Inv l := by
  obtain ⟨hredis, hprogress⟩ := step_incr h
  have hsame : t.redis = s.redis := hredis
  rw [if_neg (by simp)] at hprogress
  refine ⟨?_, ?_, ?_, ?_⟩
  · rw [hsame, hprogress]
    exact hs.expiring
  · rw [hsame]
    exact hs.positive
  · rw [hsame, hprogress]
    exact hs.pending
  · rw [hprogress]
    exact hs.nodup

/-- The other calls in progress are for other counters. -/
theorem Inv.key_ne_of_mem_erase (hs : s.Inv l) {p q : ℕ × LimitCall} (hp : p ∈ s.inProgress)
    (hq : q ∈ s.inProgress.erase p) : q ∈ s.inProgress ∧ q.2.key ≠ p.2.key := by
  obtain ⟨hne, hmem⟩ := (hs.nodup.of_map).mem_erase_iff.mp hq
  exact ⟨hmem, fun hkey => hne (List.inj_on_of_nodup_map hs.nodup hmem hp hkey)⟩

/-- The window as it is sent to the server is no longer than it is. -/
theorem toNat_asI64_le (secs : ℕ) : (asI64 secs).toNat ≤ secs := by
  unfold asI64
  split <;> omega

/-- An `EXPIRE` that is applied keeps the invariant. -/
theorem inv_expire (hs : s.Inv l) (hok : outcome ≠ .failed false)
    (h : s.step l (.expire node call outcome) = some t) : t.Inv l := by
  obtain ⟨hmem, ht⟩ := Option.ite_none_right_eq_some.mp h
  cases ht
  have hrun := (runExpire_cases s.redis call.key (asI64 l.windowSecs) outcome).resolve_right
    fun hfailed => hok hfailed.1
  obtain ⟨c, hget, -, hpositive⟩ := hs.get_pending hmem
  rw [hrun]
  refine ⟨fun key c' hc' => ?_, fun key c' hc' => ?_, fun p hp => ?_, ?_⟩
  · dsimp only at hc' ⊢
    rw [CounterStore.now_expire]
    by_cases hkey : key = call.key
    · -- The expiry is set, or the window is negative as an `i64` and the counter is gone.
      subst hkey
      rw [CounterStore.lookup_expire hget hc']
      have hwindow := toNat_asI64_le l.windowSecs
      exact .inl ⟨_, rfl, by omega⟩
    · rw [CounterStore.lookup_expire_of_ne hkey] at hc'
      refine (hs.expiring key c' hc').imp_right fun ⟨p, hp, hpkey⟩ => ⟨p, ?_, hpkey⟩
      refine ((hs.nodup.of_map).mem_erase_iff).mpr ⟨?_, hp⟩
      rintro rfl
      exact hkey hpkey.symm
  · dsimp only at hc'
    by_cases hkey : key = call.key
    · subst hkey
      rw [CounterStore.lookup_expire hget hc']
      exact hpositive
    · rw [CounterStore.lookup_expire_of_ne hkey] at hc'
      exact hs.positive key c' hc'
  · obtain ⟨hp, hne⟩ := hs.key_ne_of_mem_erase hmem hp
    obtain ⟨c', hc', hexpiry⟩ := hs.pending p hp
    exact ⟨c', (CounterStore.lookup_expire_of_ne hne _).trans hc', hexpiry⟩
  · exact hs.nodup.sublist (List.erase_sublist.map _)

/-- A step that sets the expiry of what it creates keeps the invariant. -/
theorem inv_step (hs : s.Inv l) (hok : s.SetsExpiry a) (h : s.step l a = some t) : t.Inv l := by
  cases a with
  | incr node call outcome =>
      cases hget : s.redis.get call.key with
      | some c => exact inv_incr_of_get hs hget h
      | none =>
          match outcome with
          | .answered => exact inv_incr_of_get_none hs hget h
          | .failed true =>
              -- The counter would have been created without an answer.
              have hsome := hok rfl
              rw [hget] at hsome
              cases hsome
          | .failed false => exact inv_incr_failed hs h
  | expire node call outcome => exact inv_expire hs hok h
  | stop node =>
      cases h
      have hall : s.inProgress.filter (fun p => p.1 ≠ node) = s.inProgress :=
        List.filter_eq_self.mpr fun p hp => decide_eq_true (hok p hp)
      rw [hall]
      exact hs
  | wait secs =>
      cases h
      refine ⟨fun key c hc => ?_, hs.positive, hs.pending, hs.nodup⟩
      refine (hs.expiring key c hc).imp_left fun ⟨t, ht, hle⟩ => ⟨t, ht, ?_⟩
      exact hle.trans (by simp only [CounterStore.wait]; omega)

/-- A step that does not set the expiry of what was created leaves a counter that never expires. -/
theorem stuck_of_step (hs : s.Inv l) (hbad : ¬s.SetsExpiry a) (h : s.step l a = some t) :
    t.Stuck := by
  cases a with
  | incr node call outcome =>
      -- The counter is created, and nobody knows.
      obtain ⟨rfl, hnone⟩ := Classical.not_imp.mp hbad
      have hget := Option.not_isSome_iff_eq_none.mp hnone
      obtain ⟨hredis, hprogress⟩ := step_incr h
      refine ⟨call.key, ⟨1, none⟩, ?_, rfl, le_rfl, fun p hp heq => ?_⟩
      · rw [hredis]
        exact (CounterStore.incr_of_get_none hget).2
      · rw [hprogress, if_neg (by simp)] at hp
        obtain ⟨c, hc, -⟩ := hs.get_pending hp
        rw [heq, hget] at hc
        cases hc
  | expire node call outcome =>
      obtain ⟨hmem, ht⟩ := Option.ite_none_right_eq_some.mp h
      cases ht
      -- The error is ignored, and the call returns.
      cases not_not.mp hbad
      obtain ⟨c, hget, hexpiry, hpositive⟩ := hs.get_pending hmem
      exact ⟨call.key, c, CounterStore.lookup_of_get hget, hexpiry, hpositive,
        fun p hp => (hs.key_ne_of_mem_erase hmem hp).2⟩
  | stop node =>
      cases h
      simp only [SetsExpiry, not_forall, not_not] at hbad
      obtain ⟨p, hp, hnode⟩ := hbad
      obtain ⟨c, hget, hexpiry, hpositive⟩ := hs.get_pending hp
      refine ⟨p.2.key, c, CounterStore.lookup_of_get hget, hexpiry, hpositive, fun q hq heq => ?_⟩
      obtain ⟨hq, hkept⟩ := List.mem_filter.mp hq
      -- No other call was for that counter.
      cases List.inj_on_of_nodup_map hs.nodup hq hp heq
      exact absurd hnode (of_decide_eq_true hkept)
  | wait secs => exact absurd trivial hbad

/-- What nobody counts stays as it is. -/
theorem silent_step {key : String} (hsilent : s.Silent key a)
    (hfree : ∀ p ∈ s.inProgress, p.2.key ≠ key) (h : s.step l a = some t) :
    t.redis.counters.lookup key = s.redis.counters.lookup key ∧
      ∀ p ∈ t.inProgress, p.2.key ≠ key := by
  cases a with
  | incr node call outcome =>
      obtain ⟨-, hprogress⟩ := step_incr h
      refine ⟨(frame_incr h).2 key (Ne.symm hsilent), fun p hp => ?_⟩
      rw [hprogress] at hp
      split at hp
      next =>
        rcases List.mem_cons.mp hp with rfl | hp
        · exact hsilent
        · exact hfree p hp
      next => exact hfree p hp
  | expire node call outcome =>
      obtain ⟨hmem, ht⟩ := Option.ite_none_right_eq_some.mp h
      cases ht
      have hne := hfree _ hmem
      refine ⟨?_, fun p hp => hfree p (List.mem_of_mem_erase hp)⟩
      rcases runExpire_cases s.redis call.key (asI64 l.windowSecs) outcome with
        happlied | ⟨-, hsame⟩
      · rw [happlied]
        exact CounterStore.lookup_expire_of_ne hne.symm _
      · rw [hsame]
  | stop node =>
      cases h
      exact ⟨rfl, fun p hp => hfree p (List.mem_of_mem_filter hp)⟩
  | wait secs =>
      cases h
      exact ⟨rfl, hfree⟩

/-- Such a counter stays. -/
theorem stuck_step (hs : s.Stuck) (h : s.step l a = some t) : t.Stuck := by
  obtain ⟨key, c, hc, hexpiry, hpositive, hfree⟩ := hs
  by_cases hsilent : s.Silent key a
  · obtain ⟨hsame, hfree'⟩ := silent_step hsilent hfree h
    exact ⟨key, c, hsame.trans hc, hexpiry, hpositive, hfree'⟩
  · -- Only an `INCR` of the counter concerns it, which has counted before.
    cases a with
    | incr node call outcome =>
        obtain rfl : call.key = key := not_not.mp hsilent
        obtain ⟨hredis, hprogress⟩ := step_incr h
        have hget := CounterStore.get_of_expiry hc hexpiry
        obtain ⟨n, hn, hlookup⟩ := lookup_runIncr_of_get hget outcome
        refine ⟨call.key, ⟨n, c.expiry⟩, by rw [hredis, hlookup], hexpiry, hpositive.trans hn, ?_⟩
        rw [hprogress, (CounterStore.incr_of_get hget).1, if_neg (by omega)]
        exact hfree
    | expire node call outcome => exact absurd trivial hsilent
    | stop node => exact absurd trivial hsilent
    | wait secs => exact absurd trivial hsilent

/-- A counter that nobody counts is gone after the window. -/
theorem get_of_silent (hexpiring : s.Expiring l) (hquiet : s.inProgress = []) {key : String}
    {as : List LimiterAction} (hrun : (machine l).Runs (Silent key) s as t)
    (hnow : t.redis.now = s.redis.now + l.windowSecs) : t.redis.get key = none := by
  obtain ⟨hsame, -⟩ : t.redis.counters.lookup key = s.redis.counters.lookup key ∧
      ∀ p ∈ t.inProgress, p.2.key ≠ key :=
    hrun.invariant
      (I := fun u => u.redis.counters.lookup key = s.redis.counters.lookup key ∧
        ∀ p ∈ u.inProgress, p.2.key ≠ key)
      (fun u a v hu hsilent h => by
        obtain ⟨hlookup, hfree⟩ := silent_step hsilent hu.2 h
        exact ⟨hlookup.trans hu.1, hfree⟩)
      ⟨rfl, by simp [hquiet]⟩
  refine CounterStore.get_eq_none fun c hc => ?_
  rw [hnow]
  exact hexpiring key c (hsame.symm.trans hc)

/-- Where every counter expires, who is silent is let in exactly if the limit is not 0. -/
theorem readmits_iff (hexpiring : s.Expiring l) (hquiet : s.inProgress = []) :
    s.Readmits l call ↔ 1 ≤ call.limit l := by
  constructor
  · intro hreadmits
    have hrun : (machine l).Runs (Silent call.key) s [.wait l.windowSecs]
        { s with redis := s.redis.wait l.windowSecs } := .cons trivial rfl (.nil _)
    have hgone := get_of_silent hexpiring hquiet hrun rfl
    have hone := (CounterStore.incr_of_get_none hgone).1
    have hmax : 1 ≤ u32Max := by decide
    refine LimitCall.allowed_iff.mp (hreadmits _ _ hrun rfl .answered) 1 ?_
    simp only [runIncr, hone, if_pos hmax]
  · intro hlimit as t hrun hnow outcome
    have hone := (CounterStore.incr_of_get_none (get_of_silent hexpiring hquiet hrun hnow)).1
    refine LimitCall.allowed_iff.mpr fun n hn => ?_
    cases outcome with
    | answered =>
        obtain ⟨-, hcount⟩ := Option.ite_none_right_eq_some.mp hn
        rw [← Option.some.inj hcount, hone]
        exact hlimit
    | failed applied => cases hn

/-- When no call is in progress, every counter expires, and who is rejected is let in after the
window, exactly if every step of the run set the expiry of what it created, and the limit of
nobody who is rejected is 0. -/
theorem recovers_iff (l : DistributedRateLimiter) {as : List LimiterAction}
    (hrun : (machine l).Runs Machine.unrestricted initial as s) (hquiet : s.inProgress = []) :
    s.Recovers l ↔ (machine l).Runs SetsExpiry initial as s ∧
      ∀ call, s.Rejected call → 1 ≤ call.limit l := by
  have hinitial : initial.Inv l := ⟨by simp [initial], by simp [initial], by simp [initial],
    by simp [initial]⟩
  have hstuck : s.Expiring l → ¬s.Stuck := by
    rintro hexpiring ⟨key, c, hc, hnever, -⟩
    obtain ⟨t, ht, -⟩ := hexpiring key c hc
    rw [hnever] at ht
    cases ht
  constructor
  · rintro ⟨hexpiring, hreadmits⟩
    refine ⟨hrun.meets_of_not (I := Inv l) (D := Stuck) (fun _ _ _ hs hok h => inv_step hs hok h)
      (fun _ _ _ hs hbad h => stuck_of_step hs hbad h) (fun _ _ _ hs h => stuck_step hs h)
      hinitial (hstuck hexpiring), fun call hrejected => ?_⟩
    exact (readmits_iff hexpiring hquiet).mp (hreadmits call hrejected)
  · rintro ⟨hsets, hlimits⟩
    have hs : s.Inv l := hsets.invariant (fun _ _ _ hs hok h => inv_step hs hok h) hinitial
    have hexpiring : s.Expiring l := by
      intro key c hc
      refine (hs.expiring key c hc).resolve_right ?_
      simp [hquiet]
    exact ⟨hexpiring, fun call hrejected =>
      (readmits_iff hexpiring hquiet).mpr (hlimits call hrejected)⟩

/-- One request each minute. -/
def oneEachMinute : DistributedRateLimiter := ⟨1, 60⟩

/-- Two nodes, and a client who comes twice. -/
def twiceByOneClient : List LimiterAction :=
  [.incr 1 (.rateLimit "10.0.0.1") .answered, .wait 1, .expire 1 (.rateLimit "10.0.0.1") .answered,
    .wait 5, .incr 2 (.rateLimit "10.0.0.1") .answered]

/-- The client is rejected the second time, and let in again after a minute. -/
theorem recovers_twiceByOneClient :
    ∃ s, (machine oneEachMinute).exec Machine.unrestricted initial twiceByOneClient = some s ∧
      s.Rejected (.rateLimit "10.0.0.1") ∧ s.Recovers oneEachMinute := by
  obtain ⟨s, hs, hquiet, hanswers, hnow⟩ : ∃ s,
      (machine oneEachMinute).exec SetsExpiry initial twiceByOneClient = some s ∧
        s.inProgress = [] ∧ s.answers = [⟨6, .rateLimit "10.0.0.1", false⟩,
          ⟨1, .rateLimit "10.0.0.1", true⟩] ∧ s.redis.now = 6 := ⟨_, rfl, rfl, rfl, rfl⟩
  have hrun := Machine.runs_of_exec hs
  have hfree := hrun.mono fun _ _ _ => (trivial : Machine.unrestricted _ _)
  refine ⟨s, Machine.exec_of_runs hfree, by simp [Rejected, hanswers, hnow], ?_⟩
  refine (recovers_iff oneEachMinute hfree hquiet).mpr ⟨hrun, fun call hrejected => ?_⟩
  have hcall : call = .rateLimit "10.0.0.1" := by simpa [Rejected, hanswers, hnow] using hrejected
  rw [hcall]
  exact le_rfl

/-- A counter whose first `INCR` was applied, but not answered, never expires. -/
theorem recovers_fails :
    ¬∀ (l : DistributedRateLimiter) (as : List LimiterAction) (s : RedisLimiterState),
      (machine l).Runs Machine.unrestricted initial as s → s.inProgress = [] → s.Recovers l := by
  intro hall
  obtain ⟨s, hs, hquiet, hcounter⟩ : ∃ s,
      (machine oneEachMinute).exec Machine.unrestricted initial
        [.incr 1 (.rateLimit "10.0.0.1") (.failed true)] = some s ∧ s.inProgress = [] ∧
          s.redis.counters.lookup "xiranet:rl:10.0.0.1" = some ⟨1, none⟩ := ⟨_, rfl, rfl, rfl⟩
  obtain ⟨hexpiring, -⟩ := hall _ _ s (Machine.runs_of_exec hs) hquiet
  obtain ⟨t, ht, -⟩ := hexpiring _ _ hcounter
  cases ht

end RedisLimiterState

end XiraNet

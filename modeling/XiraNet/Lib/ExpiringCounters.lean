import XiraNet.Lib.DashMap

/-!
# Counters that expire

A store of counters on a server, each with or without a time at which it expires. A counter that
has expired is not there for any command.
-/

/-- A counter. -/
structure ExpiringCounter where
  count : ℕ
  /-- The first time at which it is gone. -/
  expiry : Option ℕ
  deriving DecidableEq, Repr

/-- The counters and the clock of the server. -/
structure CounterStore (K : Type*) where
  now : ℕ
  counters : DashMap K ExpiringCounter

namespace CounterStore

variable {K : Type*} [DecidableEq K]

/-- The counter under a key, unless it has expired. -/
def get (r : CounterStore K) (key : K) : Option ExpiringCounter :=
  (r.counters.lookup key).filter fun c => c.expiry.all (r.now < ·)

/-- Count one more, from 0 where there is no counter, which then does not expire. -/
def incr (r : CounterStore K) (key : K) : CounterStore K × ℕ :=
  let counter : ExpiringCounter :=
    match r.get key with
    | some c => { c with count := c.count + 1 }
    | none => ⟨1, none⟩
  ({ r with counters := r.counters.insert key counter }, counter.count)

/-- Let a counter expire after some time, which is at once if there is none left. -/
def expire (r : CounterStore K) (key : K) (secs : ℤ) : CounterStore K :=
  match r.get key with
  | none => r
  | some c =>
      if secs ≤ 0 then { r with counters := r.counters.erase key }
      else
        { r with counters := r.counters.insert key { c with expiry := some (r.now + secs.toNat) } }

/-- Let time pass. -/
def wait (r : CounterStore K) (secs : ℕ) : CounterStore K := { r with now := r.now + secs }

variable {r : CounterStore K} {key key' : K} {c : ExpiringCounter}

/-- A counter without an expiry is there. -/
theorem get_of_expiry (h : r.counters.lookup key = some c) (hexpiry : c.expiry = none) :
    r.get key = some c := by
  rw [get, h, Option.filter_some, hexpiry]
  rfl

/-- What is there is stored. -/
theorem lookup_of_get (h : r.get key = some c) : r.counters.lookup key = some c :=
  (Option.filter_eq_some_iff.mp h).1

/-- A key without a counter, or with one that has expired, has none. -/
theorem get_eq_none (h : ∀ c, r.counters.lookup key = some c → ∃ t, c.expiry = some t ∧ t ≤ r.now) :
    r.get key = none := by
  refine Option.filter_eq_none_iff.mpr fun c hc => ?_
  obtain ⟨t, ht, hle⟩ := h c hc
  simp [ht, hle]

/-- Counting leaves the other counters alone. -/
theorem lookup_incr_of_ne (h : key' ≠ key) :
    (r.incr key).1.counters.lookup key' = r.counters.lookup key' :=
  AList.lookup_insert_ne h

/-- A counter that is there goes on counting. -/
theorem incr_of_get (h : r.get key = some c) :
    (r.incr key).2 = c.count + 1 ∧
      (r.incr key).1.counters.lookup key = some { c with count := c.count + 1 } := by
  simp only [incr, h, AList.lookup_insert, and_self]

/-- A counter that is not there starts with 1 and does not expire. -/
theorem incr_of_get_none (h : r.get key = none) :
    (r.incr key).2 = 1 ∧ (r.incr key).1.counters.lookup key = some ⟨1, none⟩ := by
  simp only [incr, h, AList.lookup_insert, and_self]

/-- Setting an expiry leaves the other counters alone. -/
theorem lookup_expire_of_ne (h : key' ≠ key) (secs : ℤ) :
    (r.expire key secs).counters.lookup key' = r.counters.lookup key' := by
  unfold expire
  split
  next => rfl
  next =>
    split
    next => exact AList.lookup_erase_ne h
    next => exact AList.lookup_insert_ne h

/-- A counter whose expiry was set expires. -/
theorem lookup_expire {c' : ExpiringCounter} (h : r.get key = some c) {secs : ℤ}
    (hc' : (r.expire key secs).counters.lookup key = some c') :
    c' = { c with expiry := some (r.now + secs.toNat) } := by
  simp only [expire, h] at hc'
  split at hc'
  next => simp only [AList.lookup_erase, reduceCtorEq] at hc'
  next =>
    rw [AList.lookup_insert] at hc'
    exact (Option.some.inj hc').symm

/-- Counting takes no time. -/
@[simp]
theorem now_incr : (r.incr key).1.now = r.now := rfl

/-- Setting an expiry takes no time. -/
@[simp]
theorem now_expire (secs : ℤ) : (r.expire key secs).now = r.now := by
  unfold expire
  split
  next => rfl
  next => split <;> rfl

end CounterStore

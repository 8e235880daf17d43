import Mathlib.Algebra.Group.Nat.Defs
import Mathlib.Order.Basic
import XiraNet.Lib.DashMap

/-!
# Rate limit

The limiter of `middleware/rate_limit.rs` for fixed limits. A request counts in the window of its
client, which it starts afresh when the old one is over; a background task drops the windows that
were started two window lengths ago. The client's address stands for how it is found. Time is in
nanoseconds.

* `Admissible.step`: what a run keeps of the requests that are still to come.
* `countP_admitted_le`, `countP_interval_le`: the admissions of one window, and of an interval.
* `decisions_eq`: the evictor changes no decision, if it drops no window that is not over.
* `admissionBound_iff`: the bounds hold for every sequence of requests exactly if twice the window
  fits into 64 bits, or nothing is ever rejected.
-/

namespace XiraNet.RateLimit

/-- The length of a window, `Duration::from_secs`. -/
def windowDuration (windowSecs : ℕ) : ℕ := 10 ^ 9 * windowSecs

/-- The window of a client. -/
structure RateLimitEntry where
  count : ℕ
  windowStart : ℕ
  deriving DecidableEq, Repr

/-- The windows of all clients. -/
abbrev Limits := DashMap String RateLimitEntry

/-- What becomes of a request. -/
inductive Decision
  | admitted
  | reject (retryAfterSecs : ℕ)
  deriving DecidableEq, Repr

/-- The entry of a client when its request is about to be counted. -/
def currentEntry (windowSecs : ℕ) (limits : Limits) (ip : String) (now : ℕ) : RateLimitEntry :=
  let entry := (limits.lookup ip).getD ⟨0, now⟩
  if windowDuration windowSecs < now - entry.windowStart then ⟨0, now⟩ else entry

/-- The seconds until the window of a client is over. -/
def RateLimitEntry.retryAfterSecs (entry : RateLimitEntry) (windowSecs now : ℕ) : ℕ :=
  (windowDuration windowSecs - (now - entry.windowStart)) / 10 ^ 9

/-- `RateLimiterMiddleware::call`, with the limits as it reads them, which are at least 1. -/
def call (maxRequests windowSecs : ℕ) (limits : Limits) (ip : String) (now : ℕ) :
    Decision × Limits :=
  let entry := currentEntry windowSecs limits ip now
  let entry := { entry with count := (entry.count + 1) % 2 ^ 32 }
  let decision :=
    if maxRequests < entry.count then .reject (entry.retryAfterSecs windowSecs now) else .admitted
  (decision, limits.insert ip entry)

/-- A pass of the evictor. -/
def evict (windowSecs : ℕ) (limits : Limits) (now : ℕ) : Limits :=
  -- `window * 2` is a product of `u64`s.
  let stale := windowDuration ((windowSecs * 2) % 2 ^ 64)
  limits.retain fun _ entry => now - entry.windowStart < stale

/-- A request, or a pass of the evictor. -/
inductive Action
  | request (ip : String) (now : ℕ)
  | evict (now : ℕ)
  deriving DecidableEq, Repr

/-- The time of an action. -/
def Action.time : Action → ℕ
  | .request _ now | .evict now => now

/-- A request of a client in a closed interval. -/
def Action.requests (ip : String) (start stop : ℕ) : Action → Bool
  | .request ip' now => ip' = ip && start ≤ now && now ≤ stop
  | .evict _ => false

/-- A request. -/
def Action.isRequest : Action → Bool
  | .request _ _ => true
  | .evict _ => false

/-- What is observed of a request: its decision, and whether it started a window. -/
structure Event where
  ip : String
  now : ℕ
  decision : Decision
  starts : Bool
  deriving DecidableEq, Repr

/-- An admitted request of a client. -/
def Event.admits (ip : String) (e : Event) : Bool := e.ip = ip && e.decision = .admitted

/-- An admitted request of a client in a closed interval. -/
def Event.admitsIn (ip : String) (start stop : ℕ) (e : Event) : Bool :=
  e.admits ip && start ≤ e.now && e.now ≤ stop

variable (maxRequests windowSecs : ℕ)

/-- The windows after an action. -/
def after (limits : Limits) : Action → Limits
  | .request ip now => (call maxRequests windowSecs limits ip now).2
  | .evict now => evict windowSecs limits now

/-- A request starts a window when its client has none, or one that is over. -/
def startsWindow (limits : Limits) (ip : String) (now : ℕ) : Bool :=
  (limits.lookup ip).all fun entry => windowDuration windowSecs < now - entry.windowStart

/-- The requests of a sequence of actions with their decisions. -/
def events (limits : Limits) : List Action → List Event
  | [] => []
  | .request ip now :: actions =>
      ⟨ip, now, (call maxRequests windowSecs limits ip now).1,
          startsWindow windowSecs limits ip now⟩ ::
        events (after maxRequests windowSecs limits (.request ip now)) actions
  | .evict now :: actions =>
      events (after maxRequests windowSecs limits (.evict now)) actions

/-- The bounds on what is admitted. -/
structure AdmissionBound (actions : List Action) : Prop where
  /-- Between two window starts of a client, -/
  window : ∀ before e inside behind,
    events maxRequests windowSecs ∅ actions = before ++ e :: (inside ++ behind) → e.starts = true →
      (∀ e' ∈ inside, e'.ip = e.ip → e'.starts = false) →
        (e :: inside).countP (Event.admits e.ip) ≤ maxRequests
  /-- and in an interval as long as a window. -/
  interval : ∀ ip start, (events maxRequests windowSecs ∅ actions).countP
    (Event.admitsIn ip start (start + windowDuration windowSecs)) ≤ 2 * maxRequests
  /-- The first request behind a window is admitted. -/
  renewed : ∀ before e inside e' behind,
    events maxRequests windowSecs ∅ actions = before ++ e :: (inside ++ e' :: behind) →
      e.starts = true → (∀ e'' ∈ inside, e''.ip = e.ip → e''.starts = false) → e'.ip = e.ip →
        e.now + windowDuration windowSecs < e'.now → e'.decision = .admitted
  /-- The evictor changes no decision. -/
  sameDecisions : (events maxRequests windowSecs ∅ actions).map Event.decision =
    (events maxRequests windowSecs ∅ (actions.filter Action.isRequest)).map Event.decision

/-- Fewer than 2^32 requests of a client in every window. -/
def FewRequests (actions : List Action) : Prop :=
  ∀ ip start, actions.countP (Action.requests ip start (start + windowDuration windowSecs)) < 2 ^ 32

/-- What a run needs of the actions that are still to come. -/
structure Admissible (limits : Limits) (actions : List Action) : Prop where
  sorted : actions.Pairwise fun a b => a.time ≤ b.time
  past : ∀ ip entry, limits.lookup ip = some entry → ∀ a ∈ actions, entry.windowStart ≤ a.time
  few : FewRequests windowSecs actions
  /-- The requests of the window that is running fit into its count. -/
  fits : ∀ ip entry, limits.lookup ip = some entry →
    entry.count + actions.countP
      (Action.requests ip 0 (entry.windowStart + windowDuration windowSecs)) < 2 ^ 32

variable {maxRequests windowSecs}

/-- A request whose client has this entry. -/
theorem call_of_currentEntry (maxRequests : ℕ) {limits : Limits} {ip : String} {now : ℕ}
    {entry : RateLimitEntry} (h : currentEntry windowSecs limits ip now = entry) :
    (call maxRequests windowSecs limits ip now).2 =
        limits.insert ip ⟨(entry.count + 1) % 2 ^ 32, entry.windowStart⟩ ∧
      ((call maxRequests windowSecs limits ip now).1 = .admitted ↔
        (entry.count + 1) % 2 ^ 32 ≤ maxRequests) := by
  refine ⟨by simp only [call, h], ?_⟩
  simp only [call, h]
  split
  next hover => exact iff_of_false (by rintro ⟨⟩) (not_le.mpr hover)
  next hbelow => exact iff_of_true rfl (not_lt.mp hbelow)

/-- A request that starts a window. -/
theorem call_of_starts (hmax : 1 ≤ maxRequests) {limits : Limits} {ip : String} {now : ℕ}
    (h : startsWindow windowSecs limits ip now = true) :
    call maxRequests windowSecs limits ip now = (.admitted, limits.insert ip ⟨1, now⟩) := by
  have hentry : currentEntry windowSecs limits ip now = ⟨0, now⟩ := by
    unfold currentEntry
    unfold startsWindow at h
    cases hlookup : limits.lookup ip with
    | none => simp
    | some entry =>
        simp only [hlookup, Option.all_some, decide_eq_true_eq] at h
        exact if_pos h
  obtain ⟨hafter, hdecision⟩ := call_of_currentEntry maxRequests hentry
  have hone : (0 + 1) % 2 ^ 32 = 1 := Nat.mod_eq_of_lt (Nat.one_lt_two_pow (by decide))
  rw [hone] at hafter hdecision
  exact Prod.ext (hdecision.mpr hmax) hafter

/-- A request in a window that is running. -/
theorem call_of_not_starts (maxRequests : ℕ) {limits : Limits} {ip : String} {now : ℕ}
    (h : startsWindow windowSecs limits ip now = false) :
    ∃ entry, limits.lookup ip = some entry ∧ now ≤ entry.windowStart + windowDuration windowSecs ∧
      (call maxRequests windowSecs limits ip now).2 =
        limits.insert ip ⟨(entry.count + 1) % 2 ^ 32, entry.windowStart⟩ ∧
      ((call maxRequests windowSecs limits ip now).1 = .admitted ↔
        (entry.count + 1) % 2 ^ 32 ≤ maxRequests) := by
  unfold startsWindow at h
  cases hlookup : limits.lookup ip with
  | none =>
      rw [hlookup] at h
      cases h
  | some entry =>
      simp only [hlookup, Option.all_some, decide_eq_false_iff_not] at h
      have hentry : currentEntry windowSecs limits ip now = entry := by
        simp only [currentEntry, hlookup, Option.getD_some]
        rw [if_neg h]
      exact ⟨entry, rfl, by omega, call_of_currentEntry maxRequests hentry⟩

/-- A window that is left by the evictor. -/
theorem lookup_evict {limits : Limits} {now : ℕ} {ip : String} {entry : RateLimitEntry} :
    (evict windowSecs limits now).lookup ip = some entry ↔
      limits.lookup ip = some entry ∧
        now - entry.windowStart < windowDuration ((windowSecs * 2) % 2 ^ 64) := by
  simp only [evict, DashMap.lookup_retain, Option.filter_eq_some_iff, decide_eq_true_eq]

/-- A request in a window that is running, which does not wrap its count. -/
theorem call_of_admissible (maxRequests : ℕ) {limits : Limits} {ip : String} {now : ℕ}
    {actions : List Action} (hadm : Admissible windowSecs limits (.request ip now :: actions))
    (h : startsWindow windowSecs limits ip now = false) :
    ∃ entry, limits.lookup ip = some entry ∧ now ≤ entry.windowStart + windowDuration windowSecs ∧
      (call maxRequests windowSecs limits ip now).2 =
        limits.insert ip ⟨entry.count + 1, entry.windowStart⟩ ∧
      ((call maxRequests windowSecs limits ip now).1 = .admitted ↔
        entry.count + 1 ≤ maxRequests) := by
  obtain ⟨entry, hlookup, hwindow, hafter, hdecision⟩ := call_of_not_starts maxRequests h
  have hfits := hadm.fits ip entry hlookup
  rw [List.countP_cons_of_pos (by simpa [Action.requests] using hwindow)] at hfits
  have hmod : (entry.count + 1) % 2 ^ 32 = entry.count + 1 := Nat.mod_eq_of_lt (by omega)
  rw [hmod] at hafter hdecision
  exact ⟨entry, hlookup, hwindow, hafter, hdecision⟩

/-- What a run needs, the rest of it needs too. -/
theorem Admissible.tail {limits : Limits} {a : Action} {actions : List Action}
    (hadm : Admissible windowSecs limits (a :: actions)) :
    Admissible windowSecs limits actions where
  sorted := (List.pairwise_cons.mp hadm.sorted).2
  past ip entry hlookup b hb := hadm.past ip entry hlookup b (List.mem_cons_of_mem _ hb)
  few ip start := ((List.sublist_cons_self a actions).countP_le).trans_lt (hadm.few ip start)
  fits ip entry hlookup := by
    have hle := (List.sublist_cons_self a actions).countP_le
      (p := Action.requests ip 0 (entry.windowStart + windowDuration windowSecs))
    have hlt := hadm.fits ip entry hlookup
    omega

/-- An entry that is not ahead of the run, and has room for the rest of it, may be stored. -/
theorem Admissible.insert {limits : Limits} {actions : List Action}
    (hadm : Admissible windowSecs limits actions) {ip : String} {entry : RateLimitEntry}
    (hpast : ∀ b ∈ actions, entry.windowStart ≤ b.time)
    (hfits : entry.count + actions.countP
      (Action.requests ip 0 (entry.windowStart + windowDuration windowSecs)) < 2 ^ 32) :
    Admissible windowSecs (limits.insert ip entry) actions where
  sorted := hadm.sorted
  past ip' entry' hlookup := by
    rcases DashMap.lookup_insert_cases hlookup with ⟨rfl, rfl⟩ | ⟨-, hold⟩
    · exact hpast
    · exact hadm.past ip' entry' hold
  few := hadm.few
  fits ip' entry' hlookup := by
    rcases DashMap.lookup_insert_cases hlookup with ⟨rfl, rfl⟩ | ⟨-, hold⟩
    · exact hfits
    · exact hadm.fits ip' entry' hold

/-- What a run needs it still has after an action. -/
theorem Admissible.step (hmax : 1 ≤ maxRequests) {limits : Limits} {a : Action}
    {actions : List Action} (hadm : Admissible windowSecs limits (a :: actions)) :
    Admissible windowSecs (after maxRequests windowSecs limits a) actions := by
  have hhead := (List.pairwise_cons.mp hadm.sorted).1
  have hrest := hadm.tail
  cases a with
  | evict now =>
      exact ⟨hrest.sorted, fun ip entry hlookup => hrest.past ip entry (lookup_evict.mp hlookup).1,
        hrest.few, fun ip entry hlookup => hrest.fits ip entry (lookup_evict.mp hlookup).1⟩
  | request ip now =>
      cases hstarts : startsWindow windowSecs limits ip now with
      | true =>
          have hafter : after maxRequests windowSecs limits (.request ip now) =
              limits.insert ip ⟨1, now⟩ := by rw [after, call_of_starts hmax hstarts]
          rw [hafter]
          apply hrest.insert hhead
          have hlt := hadm.few ip now
          rw [List.countP_cons_of_pos (by simp [Action.requests])] at hlt
          -- Nothing that is still to come is before the start of the window.
          have hsame : actions.countP (Action.requests ip 0 (now + windowDuration windowSecs)) =
              actions.countP (Action.requests ip now (now + windowDuration windowSecs)) := by
            refine List.countP_congr fun b hb => ?_
            have hle : now ≤ b.time := hhead b hb
            cases b with
            | evict => rfl
            | request ip'' now'' =>
                have hle' : now ≤ now'' := hle
                simp [Action.requests, hle']
          dsimp only
          rw [hsame]
          omega
      | false =>
          obtain ⟨old, hold, hwindow, hafter, -⟩ :=
            call_of_admissible maxRequests hadm hstarts
          rw [after, hafter]
          apply hrest.insert
          · exact hrest.past ip old hold
          · have hlt := hadm.fits ip old hold
            rw [List.countP_cons_of_pos (by simpa [Action.requests] using hwindow)] at hlt
            dsimp only
            omega

/-- The admissions that a window still has to give. -/
def remaining (maxRequests : ℕ) (limits : Limits) (ip : String) : ℕ :=
  match limits.lookup ip with
  | none => 0
  | some entry => maxRequests - entry.count

/-- Before the next window of a client starts, no more of its requests are admitted than its window
has to give. -/
theorem countP_admitted_le (hmax : 1 ≤ maxRequests) {limits : Limits} {actions : List Action}
    (hadm : Admissible windowSecs limits actions) {ip : String} {inside behind : List Event}
    (hevents : events maxRequests windowSecs limits actions = inside ++ behind)
    (hinside : ∀ e ∈ inside, e.ip = ip → e.starts = false) :
    inside.countP (Event.admits ip) ≤ remaining maxRequests limits ip := by
  induction actions generalizing limits inside with
  | nil =>
      obtain ⟨rfl, -⟩ := List.append_eq_nil_iff.mp hevents.symm
      exact Nat.zero_le _
  | cons a actions ih =>
      have hstep := hadm.step hmax
      cases a with
      | evict now =>
          refine (ih hstep hevents hinside).trans ?_
          unfold remaining
          cases hlookup : (after maxRequests windowSecs limits (.evict now)).lookup ip with
          | none => exact Nat.zero_le _
          | some entry => rw [(lookup_evict.mp hlookup).1]
      | request ip' now =>
          cases inside with
          | nil => exact Nat.zero_le _
          | cons e inside =>
              obtain ⟨rfl, hrest⟩ := List.cons.inj hevents
              have hle := ih hstep hrest fun e' he' => hinside e' (List.mem_cons_of_mem _ he')
              by_cases hip : ip' = ip
              · subst hip
                have hstarts := hinside _ List.mem_cons_self rfl
                obtain ⟨entry, hlookup, -, hafter, hdecision⟩ :=
                  call_of_admissible maxRequests hadm hstarts
                have hremaining : remaining maxRequests
                    (after maxRequests windowSecs limits (.request ip' now)) ip' =
                      maxRequests - (entry.count + 1) := by
                  simp only [remaining, after, hafter, AList.lookup_insert]
                rw [hremaining] at hle
                rw [List.countP_cons, remaining, hlookup]
                dsimp only
                split
                next hadmits =>
                  simp only [Event.admits, decide_true, Bool.true_and, decide_eq_true_eq] at hadmits
                  have hbelow := hdecision.mp hadmits
                  omega
                next => omega
              · rw [List.countP_cons_of_neg (by simp [Event.admits, hip])]
                refine hle.trans_eq ?_
                have hother : (after maxRequests windowSecs limits (.request ip' now)).lookup ip =
                    limits.lookup ip := AList.lookup_insert_ne (Ne.symm hip)
                simp only [remaining, hother]

/-- The state in which a request was handled. -/
theorem exists_of_events_eq (hmax : 1 ≤ maxRequests) {limits : Limits} {actions : List Action}
    (hadm : Admissible windowSecs limits actions) {before rest : List Event} {e : Event}
    (hevents : events maxRequests windowSecs limits actions = before ++ e :: rest) :
    ∃ limits' actions', Admissible windowSecs limits' (.request e.ip e.now :: actions') ∧
      events maxRequests windowSecs limits' (.request e.ip e.now :: actions') = e :: rest := by
  induction actions generalizing limits before with
  | nil => simp [events] at hevents
  | cons a actions ih =>
      cases a with
      | evict now => exact ih (hadm.step hmax) hevents
      | request ip now =>
          cases before with
          | nil =>
              obtain ⟨rfl, rfl⟩ := List.cons.inj hevents
              exact ⟨limits, actions, hadm, rfl⟩
          | cons e' before => exact ih (hadm.step hmax) (List.cons.inj hevents).2

/-- Between two window starts of a client, no more of its requests are admitted than the limit. -/
theorem window_le (hmax : 1 ≤ maxRequests) {limits : Limits} {actions : List Action}
    (hadm : Admissible windowSecs limits actions) {before inside behind : List Event} {e : Event}
    (hevents : events maxRequests windowSecs limits actions = before ++ e :: (inside ++ behind))
    (hstarts : e.starts = true) (hinside : ∀ e' ∈ inside, e'.ip = e.ip → e'.starts = false) :
    (e :: inside).countP (Event.admits e.ip) ≤ maxRequests := by
  obtain ⟨limits', actions', hadm', hevents'⟩ := exists_of_events_eq hmax hadm hevents
  obtain ⟨hhead, hrest⟩ := List.cons.inj hevents'
  have hstarts' : startsWindow windowSecs limits' e.ip e.now = true := by
    rw [← hhead] at hstarts
    exact hstarts
  have hle := countP_admitted_le hmax (hadm'.step hmax) hrest hinside
  have hremaining : remaining maxRequests
      (after maxRequests windowSecs limits' (.request e.ip e.now)) e.ip = maxRequests - 1 := by
    simp only [remaining, after, call_of_starts hmax hstarts', AList.lookup_insert]
  rw [hremaining] at hle
  rw [List.countP_cons]
  split <;> omega

/-- The first request behind a window is admitted. -/
theorem renewed_admitted (hmax : 1 ≤ maxRequests) {limits : Limits} {actions : List Action}
    (hadm : Admissible windowSecs limits actions) {ip : String} {inside behind : List Event}
    {e : Event}
    (hevents : events maxRequests windowSecs limits actions = inside ++ e :: behind)
    (hinside : ∀ e' ∈ inside, e'.ip = ip → e'.starts = false) (hip : e.ip = ip)
    (hover : ∀ entry, limits.lookup ip = some entry →
      entry.windowStart + windowDuration windowSecs < e.now) : e.decision = .admitted := by
  induction actions generalizing limits inside with
  | nil => simp [events] at hevents
  | cons a actions ih =>
      have hstep := hadm.step hmax
      cases a with
      | evict now =>
          exact ih hstep hevents hinside fun entry hlookup =>
            hover entry (lookup_evict.mp hlookup).1
      | request ip' now =>
          cases inside with
          | nil =>
              obtain ⟨rfl, -⟩ := List.cons.inj hevents
              obtain rfl : ip' = ip := hip
              cases hstarts : startsWindow windowSecs limits ip' now with
              | true => simp only [call_of_starts hmax hstarts]
              | false =>
                  obtain ⟨entry, hlookup, hwindow, -⟩ :=
                    call_of_admissible maxRequests hadm hstarts
                  exact absurd hwindow (not_le.mpr (hover entry hlookup))
          | cons e' inside =>
              obtain ⟨rfl, hrest⟩ := List.cons.inj hevents
              refine ih hstep hrest (fun e'' he'' => hinside e'' (List.mem_cons_of_mem _ he''))
                fun entry hlookup => ?_
              by_cases heq : ip' = ip
              · subst heq
                have hstarts := hinside _ List.mem_cons_self rfl
                obtain ⟨old, hold, -, hafter, -⟩ :=
                  call_of_admissible maxRequests hadm hstarts
                rw [after, hafter, AList.lookup_insert] at hlookup
                cases hlookup
                exact hover old hold
              · have hother : (after maxRequests windowSecs limits (.request ip' now)).lookup ip =
                    limits.lookup ip := AList.lookup_insert_ne (Ne.symm heq)
                rw [hother] at hlookup
                exact hover entry hlookup

/-- Every event is a request among the actions. -/
theorem exists_of_mem_events {limits : Limits} {actions : List Action} {e : Event}
    (h : e ∈ events maxRequests windowSecs limits actions) : .request e.ip e.now ∈ actions := by
  induction actions generalizing limits with
  | nil => cases h
  | cons a actions ih =>
      cases a with
      | evict now => exact List.mem_cons_of_mem _ (ih h)
      | request ip now =>
          rcases List.mem_cons.mp h with rfl | h
          · exact List.mem_cons_self
          · exact List.mem_cons_of_mem _ (ih h)

/-- Nothing is admitted in an interval that is over. -/
theorem countP_interval_of_lt {limits : Limits} {actions : List Action} {ip : String}
    {start stop : ℕ} (h : ∀ a ∈ actions, stop < a.time) :
    (events maxRequests windowSecs limits actions).countP (Event.admitsIn ip start stop) = 0 := by
  refine List.countP_eq_zero.mpr fun e he => ?_
  have hlt : stop < e.now := h _ (exists_of_mem_events he)
  simp [Event.admitsIn, hlt]

/-- The requests that are to come are at the time of this one at the earliest. -/
theorem Admissible.le_time {limits : Limits} {a b : Action} {actions : List Action}
    (hadm : Admissible windowSecs limits (a :: actions)) (hb : b ∈ actions) : a.time ≤ b.time :=
  (List.pairwise_cons.mp hadm.sorted).1 b hb

/-- In an interval that a window of the client starts in, no more is admitted than this window has
to give. -/
theorem countP_interval_of_start (hmax : 1 ≤ maxRequests)
    (hstale : windowDuration windowSecs < windowDuration ((windowSecs * 2) % 2 ^ 64))
    {limits : Limits} {actions : List Action} (hadm : Admissible windowSecs limits actions)
    {ip : String} {start : ℕ} {entry : RateLimitEntry} (hlookup : limits.lookup ip = some entry)
    (hstart : start ≤ entry.windowStart) :
    (events maxRequests windowSecs limits actions).countP
      (Event.admitsIn ip start (start + windowDuration windowSecs)) ≤
        maxRequests - entry.count := by
  induction actions generalizing limits entry with
  | nil => exact Nat.zero_le _
  | cons a actions ih =>
      have hstep := hadm.step hmax
      cases a with
      | evict now =>
          by_cases hkept : now - entry.windowStart < windowDuration ((windowSecs * 2) % 2 ^ 64)
          · exact ih hstep (lookup_evict.mpr ⟨hlookup, hkept⟩) hstart
          · -- The interval is over before the window is dropped.
            rw [events, countP_interval_of_lt]
            · exact Nat.zero_le _
            intro b hb
            have hle : now ≤ b.time := hadm.le_time hb
            omega
      | request ip' now =>
          by_cases hip : ip' = ip
          · subst hip
            cases hstarts : startsWindow windowSecs limits ip' now with
            | true =>
                simp only [startsWindow, hlookup, Option.all_some, decide_eq_true_eq] at hstarts
                rw [countP_interval_of_lt]
                · exact Nat.zero_le _
                intro b hb
                have hle : now ≤ b.time := by
                  rcases List.mem_cons.mp hb with rfl | hb
                  · exact le_rfl
                  · exact hadm.le_time hb
                omega
            | false =>
                obtain ⟨old, hold, -, hafter, hdecision⟩ :=
                  call_of_admissible maxRequests hadm hstarts
                cases hlookup.symm.trans hold
                have hlookup' :
                    (after maxRequests windowSecs limits (.request ip' now)).lookup ip' =
                      some ⟨entry.count + 1, entry.windowStart⟩ := by
                  rw [after, hafter, AList.lookup_insert]
                have hle := ih hstep hlookup' hstart
                rw [events, List.countP_cons]
                split
                next hadmits =>
                  simp only [Event.admitsIn, Event.admits, Bool.and_eq_true, decide_eq_true_eq]
                    at hadmits
                  have hbelow := hdecision.mp hadmits.1.1.2
                  dsimp only at hle
                  omega
                next =>
                  dsimp only at hle
                  omega
          · rw [events, List.countP_cons_of_neg (by simp [Event.admitsIn, Event.admits, hip])]
            exact ih hstep ((AList.lookup_insert_ne (Ne.symm hip)).trans hlookup) hstart

/-- What is admitted from the start of an interval on: the rest of the window that is running, and
one more window. -/
theorem countP_interval_of_ge (hmax : 1 ≤ maxRequests)
    (hstale : windowDuration windowSecs < windowDuration ((windowSecs * 2) % 2 ^ 64))
    {limits : Limits} {actions : List Action} (hadm : Admissible windowSecs limits actions)
    (ip : String) {start : ℕ}
    (hstart : ∀ a ∈ actions, start ≤ a.time) :
    (events maxRequests windowSecs limits actions).countP
      (Event.admitsIn ip start (start + windowDuration windowSecs)) ≤
        remaining maxRequests limits ip + maxRequests := by
  induction actions generalizing limits with
  | nil => exact Nat.zero_le _
  | cons a actions ih =>
      have hstep := hadm.step hmax
      have hrest : ∀ b ∈ actions, start ≤ b.time := fun b hb => hstart b (List.mem_cons_of_mem _ hb)
      cases a with
      | evict now =>
          refine (ih hstep hrest).trans (Nat.add_le_add_right ?_ _)
          unfold remaining
          cases hlookup : (after maxRequests windowSecs limits (.evict now)).lookup ip with
          | none => exact Nat.zero_le _
          | some entry => rw [(lookup_evict.mp hlookup).1]
      | request ip' now =>
          by_cases hip : ip' = ip
          · subst hip
            cases hstarts : startsWindow windowSecs limits ip' now with
            | true =>
                -- The next window behind this one starts when the interval is over.
                have hlookup : (after maxRequests windowSecs limits (.request ip' now)).lookup ip' =
                    some ⟨1, now⟩ := by rw [after, call_of_starts hmax hstarts, AList.lookup_insert]
                have hle := countP_interval_of_start hmax hstale hstep hlookup
                  (hstart _ List.mem_cons_self)
                rw [events, List.countP_cons]
                dsimp only at hle
                split <;> omega
            | false =>
                obtain ⟨entry, hlookup, -, hafter, hdecision⟩ :=
                  call_of_admissible maxRequests hadm hstarts
                have hle := ih hstep hrest
                simp only [remaining, after, hafter, AList.lookup_insert] at hle
                rw [events, List.countP_cons, remaining, hlookup]
                dsimp only
                split
                next hadmits =>
                  simp only [Event.admitsIn, Event.admits, Bool.and_eq_true, decide_eq_true_eq]
                    at hadmits
                  have hbelow := hdecision.mp hadmits.1.1.2
                  simp only [after, hafter]
                  omega
                next =>
                  simp only [after, hafter]
                  omega
          · rw [events, List.countP_cons_of_neg (by simp [Event.admitsIn, Event.admits, hip])]
            have hother : (after maxRequests windowSecs limits (.request ip' now)).lookup ip =
                limits.lookup ip := AList.lookup_insert_ne (Ne.symm hip)
            have hle := ih hstep hrest
            simp only [remaining, hother] at hle ⊢
            exact hle

/-- The admissions in an interval as long as a window. -/
theorem countP_interval_le (hmax : 1 ≤ maxRequests)
    (hstale : windowDuration windowSecs < windowDuration ((windowSecs * 2) % 2 ^ 64))
    {limits : Limits} {actions : List Action} (hadm : Admissible windowSecs limits actions)
    (ip : String) (start : ℕ) :
    (events maxRequests windowSecs limits actions).countP
      (Event.admitsIn ip start (start + windowDuration windowSecs)) ≤ 2 * maxRequests := by
  induction actions generalizing limits with
  | nil => exact Nat.zero_le _
  | cons a actions ih =>
      by_cases hstart : start ≤ a.time
      · have hall : ∀ b ∈ a :: actions, start ≤ b.time := by
          intro b hb
          rcases List.mem_cons.mp hb with rfl | hb
          · exact hstart
          · exact hstart.trans (hadm.le_time hb)
        have hle := countP_interval_of_ge hmax hstale hadm ip hall
        have hremaining : remaining maxRequests limits ip ≤ maxRequests := by
          unfold remaining
          split
          · exact Nat.zero_le _
          · exact Nat.sub_le _ _
        omega
      · have hle := ih (hadm.step hmax)
        cases a with
        | evict now => exact hle
        | request ip' now =>
            have hbefore : ¬ start ≤ now := hstart
            rw [events, List.countP_cons_of_neg (by simp [Event.admitsIn, hbefore])]
            exact hle

/-- The windows with the evictor against those without it: a window that was dropped is over for
every action that is still to come. -/
def Agrees (windowSecs : ℕ) (limits limits' : Limits) (actions : List Action) : Prop :=
  ∀ ip, limits.lookup ip = limits'.lookup ip ∨
    limits.lookup ip = none ∧ ∃ entry, limits'.lookup ip = some entry ∧
      ∀ a ∈ actions, entry.windowStart + windowDuration windowSecs < a.time

/-- Where a window was dropped, the next request would have started one anyway. -/
theorem currentEntry_of_agrees {limits limits' : Limits} {ip : String} {now : ℕ}
    {actions : List Action}
    (hagrees : Agrees windowSecs limits limits' (.request ip now :: actions)) :
    currentEntry windowSecs limits ip now = currentEntry windowSecs limits' ip now := by
  unfold currentEntry
  rcases hagrees ip with hsame | ⟨hnone, entry, hlookup, hover⟩
  · rw [hsame]
  · have hlt : entry.windowStart + windowDuration windowSecs < now := hover _ List.mem_cons_self
    rw [hnone, hlookup]
    simp only [Option.getD_none, Option.getD_some]
    rw [if_pos (by omega : windowDuration windowSecs < now - entry.windowStart)]
    exact ite_self _

/-- The evictor changes no decision, if it drops only windows that are over. -/
theorem decisions_eq
    (hstale : windowDuration windowSecs < windowDuration ((windowSecs * 2) % 2 ^ 64))
    {limits limits' : Limits} {actions : List Action}
    (hsorted : actions.Pairwise fun a b => a.time ≤ b.time)
    (hagrees : Agrees windowSecs limits limits' actions) :
    (events maxRequests windowSecs limits actions).map Event.decision =
      (events maxRequests windowSecs limits' (actions.filter Action.isRequest)).map
        Event.decision := by
  induction actions generalizing limits limits' with
  | nil => rfl
  | cons a actions ih =>
      obtain ⟨hhead, hsorted'⟩ := List.pairwise_cons.mp hsorted
      have hrest : ∀ entry : RateLimitEntry,
          (∀ b ∈ a :: actions, entry.windowStart + windowDuration windowSecs < b.time) →
            ∀ b ∈ actions, entry.windowStart + windowDuration windowSecs < b.time :=
        fun entry hover b hb => hover b (List.mem_cons_of_mem _ hb)
      cases a with
      | evict now =>
          refine ih hsorted' fun ip => ?_
          cases hlookup : (after maxRequests windowSecs limits (.evict now)).lookup ip with
          | some entry =>
              rcases hagrees ip with hsame | ⟨hnone, -⟩
              · rw [← hsame, (lookup_evict.mp hlookup).1]
                exact .inl rfl
              · exact absurd ((lookup_evict.mp hlookup).1) (by simp [hnone])
          | none =>
              rcases hagrees ip with hsame | ⟨-, entry, hentry, hover⟩
              · rw [← hsame]
                cases hentry : limits.lookup ip with
                | none => exact .inl rfl
                | some entry =>
                    refine .inr ⟨rfl, entry, rfl, fun b hb => ?_⟩
                    have hle : now ≤ b.time := hhead b hb
                    have hdropped : ¬ now - entry.windowStart <
                        windowDuration ((windowSecs * 2) % 2 ^ 64) := by
                      intro hkept
                      rw [after, lookup_evict.mpr ⟨hentry, hkept⟩] at hlookup
                      cases hlookup
                    omega
              · exact .inr ⟨rfl, entry, hentry, hrest entry hover⟩
      | request ip now =>
          have hcurrent := currentEntry_of_agrees hagrees
          rw [List.filter_cons_of_pos rfl, events, events, List.map_cons, List.map_cons]
          congr 1
          · simp only [call, hcurrent]
          · refine ih hsorted' fun ip' => ?_
            simp only [after, call, hcurrent, DashMap.lookup_insert]
            split
            next => exact .inl rfl
            next =>
              rcases hagrees ip' with hsame | ⟨hnone, entry, hentry, hover⟩
              · exact .inl hsame
              · exact .inr ⟨hnone, entry, hentry, hrest entry hover⟩

/-- Where the limit is the greatest count, nothing is rejected. -/
theorem admitted_of_max (hlimit : maxRequests = 2 ^ 32 - 1) {limits : Limits}
    {actions : List Action} (hadm : Admissible windowSecs limits actions) :
    ∀ e ∈ events maxRequests windowSecs limits actions, e.decision = .admitted := by
  have hmax : 1 ≤ maxRequests := by omega
  induction actions generalizing limits with
  | nil => simp [events]
  | cons a actions ih =>
      have hrest := ih (hadm.step hmax)
      cases a with
      | evict now => exact hrest
      | request ip now =>
          refine List.forall_mem_cons.mpr ⟨?_, hrest⟩
          cases hstarts : startsWindow windowSecs limits ip now with
          | true => simp only [call_of_starts hmax hstarts]
          | false =>
              obtain ⟨entry, hlookup, hwindow, -, hdecision⟩ :=
                call_of_admissible maxRequests hadm hstarts
              have hfits := hadm.fits ip entry hlookup
              rw [List.countP_cons_of_pos (by simpa [Action.requests] using hwindow)] at hfits
              exact hdecision.mpr (by omega)

/-- Every request has one event. -/
theorem length_events (limits : Limits) (actions : List Action) :
    (events maxRequests windowSecs limits actions).length =
      (actions.filter Action.isRequest).length := by
  induction actions generalizing limits with
  | nil => rfl
  | cons a actions ih =>
      cases a with
      | evict now => exact ih _
      | request ip now =>
          rw [events, List.filter_cons_of_pos rfl, List.length_cons, List.length_cons, ih]

/-- No more is admitted than requested. -/
theorem countP_events_le (maxRequests windowSecs : ℕ) (limits : Limits) (actions : List Action)
    (ip : String) (start stop : ℕ) :
    (events maxRequests windowSecs limits actions).countP (Event.admitsIn ip start stop) ≤
      actions.countP (Action.requests ip start stop) := by
  induction actions generalizing limits with
  | nil => exact le_rfl
  | cons a actions ih =>
      have hle := ih (after maxRequests windowSecs limits a)
      cases a with
      | evict now =>
          rw [List.countP_cons_of_neg (by simp [Action.requests])]
          exact hle
      | request ip' now =>
          rw [events, List.countP_cons, List.countP_cons]
          have himp : Event.admitsIn ip start stop ⟨ip', now,
              (call maxRequests windowSecs limits ip' now).1,
              startsWindow windowSecs limits ip' now⟩ = true →
                Action.requests ip start stop (.request ip' now) = true := by
            simp only [Event.admitsIn, Event.admits, Action.requests, Bool.and_eq_true,
              decide_eq_true_eq]
            rintro ⟨⟨⟨hip, -⟩, hstart⟩, hstop⟩
            exact ⟨⟨hip, hstart⟩, hstop⟩
          split
          next hadmits =>
            rw [if_pos (himp hadmits)]
            omega
          next => omega

/-- What a run needs it has at its start. -/
theorem admissible_empty {actions : List Action}
    (hsorted : actions.Pairwise fun a b => a.time ≤ b.time)
    (hfew : FewRequests windowSecs actions) : Admissible windowSecs ∅ actions :=
  ⟨hsorted, by simp, hfew, by simp⟩

/-- The requests alone are no more than with the evictor. -/
theorem few_filter {actions : List Action} (hfew : FewRequests windowSecs actions) :
    FewRequests windowSecs (actions.filter Action.isRequest) := fun ip start =>
  List.filter_sublist.countP_le.trans_lt (hfew ip start)

/-- Twice a window is longer than the window, if it fits into 64 bits. -/
theorem lt_stale (hwindow : 1 ≤ windowSecs) (hbound : windowSecs < 2 ^ 63) :
    windowDuration windowSecs < windowDuration ((windowSecs * 2) % 2 ^ 64) := by
  unfold windowDuration
  omega

/-- The bounds where they hold. -/
theorem admissionBound_of (hmax : 1 ≤ maxRequests) (hwindow : 1 ≤ windowSecs)
    (hok : windowSecs < 2 ^ 63 ∨ maxRequests = 2 ^ 32 - 1) {actions : List Action}
    (hsorted : actions.Pairwise fun a b => a.time ≤ b.time)
    (hfew : FewRequests windowSecs actions) : AdmissionBound maxRequests windowSecs actions := by
  have hadm := admissible_empty hsorted hfew
  refine ⟨fun before e inside behind hevents hstarts hinside =>
    window_le hmax hadm hevents hstarts hinside, fun ip start => ?_, ?_, ?_⟩
  · rcases hok with hbound | hlimit
    · exact countP_interval_le hmax (lt_stale hwindow hbound) hadm ip start
    · have hlt := (countP_events_le maxRequests windowSecs ∅ actions ip start
        (start + windowDuration windowSecs)).trans_lt (hfew ip start)
      omega
  · intro before e inside e' behind hevents hstarts hinside hip hover
    obtain ⟨limits, actions', hadm', hevents'⟩ := exists_of_events_eq hmax hadm hevents
    obtain ⟨hhead, hrest⟩ := List.cons.inj hevents'
    have hstarts' : startsWindow windowSecs limits e.ip e.now = true := by
      rw [← hhead] at hstarts
      exact hstarts
    refine renewed_admitted hmax (hadm'.step hmax) hrest hinside hip fun entry hlookup => ?_
    rw [after, call_of_starts hmax hstarts', AList.lookup_insert] at hlookup
    cases hlookup
    exact hover
  · rcases hok with hbound | hlimit
    · exact decisions_eq (lt_stale hwindow hbound) hsorted fun ip => .inl rfl
    · have hall : ∀ actions, Admissible windowSecs ∅ actions →
          (events maxRequests windowSecs ∅ actions).map Event.decision =
            List.replicate (actions.filter Action.isRequest).length .admitted := by
        intro actions hadm
        rw [List.eq_replicate_iff, List.length_map, length_events]
        refine ⟨rfl, fun d hd => ?_⟩
        obtain ⟨e, he, rfl⟩ := List.mem_map.mp hd
        exact admitted_of_max hlimit hadm e he
      rw [hall _ hadm, hall _ (admissible_empty (hsorted.sublist List.filter_sublist)
        (few_filter hfew)), List.filter_filter]
      simp

/-- The windows after several actions. -/
def afterAll (maxRequests windowSecs : ℕ) (limits : Limits) (actions : List Action) : Limits :=
  actions.foldl (after maxRequests windowSecs) limits

/-- The events of actions that are followed by others. -/
theorem events_append (limits : Limits) (actions rest : List Action) :
    events maxRequests windowSecs limits (actions ++ rest) =
      events maxRequests windowSecs limits actions ++
        events maxRequests windowSecs (afterAll maxRequests windowSecs limits actions) rest := by
  induction actions generalizing limits with
  | nil => rfl
  | cons a actions ih =>
      cases a with
      | evict now => exact ih _
      | request ip now =>
          rw [List.cons_append, events, events, ih]
          rfl

/-- Requests at one time are counted one by one. -/
theorem lookup_afterAll_replicate (maxRequests windowSecs : ℕ) (ip : String) {limits : Limits}
    {count : ℕ} (n : ℕ)
    (hlookup : limits.lookup ip = some ⟨count, 0⟩) (hcount : count + n < 2 ^ 32) :
    (afterAll maxRequests windowSecs limits (List.replicate n (.request ip 0))).lookup ip =
      some ⟨count + n, 0⟩ := by
  induction n generalizing limits count with
  | zero => exact hlookup
  | succ n ih =>
      have hstarts : startsWindow windowSecs limits ip 0 = false := by
        simp [startsWindow, hlookup]
      obtain ⟨entry, hentry, -, hafter, -⟩ :=
        call_of_not_starts maxRequests hstarts
      cases hlookup.symm.trans hentry
      have hmod : (count + 1) % 2 ^ 32 = count + 1 := Nat.mod_eq_of_lt (by omega)
      rw [hmod] at hafter
      have hlookup' : (after maxRequests windowSecs limits (.request ip 0)).lookup ip =
          some ⟨count + 1, 0⟩ := by rw [after, hafter, AList.lookup_insert]
      have hnext := ih hlookup' (by omega)
      rw [List.replicate_succ, afterAll, List.foldl_cons]
      rw [show count + (n + 1) = count + 1 + n by omega]
      exact hnext

/-- As many requests as are allowed fill a window. -/
theorem lookup_afterAll_full (hmax : 1 ≤ maxRequests) (hlimit : maxRequests + 1 < 2 ^ 32) :
    (afterAll maxRequests windowSecs ∅
      (List.replicate maxRequests (.request "k" 0))).lookup "k" = some ⟨maxRequests, 0⟩ := by
  obtain ⟨n, rfl⟩ := Nat.exists_eq_add_of_le hmax
  have hfirst : (after (1 + n) windowSecs ∅ (.request "k" 0)).lookup "k" = some ⟨1, 0⟩ := by
    rw [after, call_of_starts hmax (by simp [startsWindow]), AList.lookup_insert]
  have hrest := lookup_afterAll_replicate (1 + n) windowSecs "k" n hfirst (by omega)
  have hsplit : List.replicate (1 + n) (Action.request "k" 0) =
      .request "k" 0 :: List.replicate n (.request "k" 0) := by
    rw [← List.replicate_succ, Nat.add_comm n 1]
  rw [hsplit]
  exact hrest

/-- Where the doubled window does not fit into 64 bits, the evictor drops a window that is running,
and one request too many is admitted. -/
theorem exists_not_admissionBound (hmax : 1 ≤ maxRequests) (hlimit : maxRequests + 1 < 2 ^ 32)
    (hwindow : 2 ^ 63 ≤ windowSecs) (hbound : windowSecs < 2 ^ 64) :
    ∃ actions : List Action, actions.Pairwise (fun a b => a.time ≤ b.time) ∧
      FewRequests windowSecs actions ∧ ¬ AdmissionBound maxRequests windowSecs actions := by
  obtain ⟨stale, hstale⟩ : ∃ stale, stale = windowDuration ((windowSecs * 2) % 2 ^ 64) := ⟨_, rfl⟩
  have hle : stale ≤ windowDuration windowSecs := by
    rw [hstale]
    unfold windowDuration
    omega
  let full : List Action := List.replicate maxRequests (.request "k" 0)
  have htimes : ∀ a ∈ full, a = .request "k" 0 := fun a ha => List.eq_of_mem_replicate ha
  refine ⟨full ++ [.evict stale, .request "k" stale], ?_, fun ip start => ?_, fun hall => ?_⟩
  · refine List.pairwise_append.mpr ⟨List.pairwise_replicate.mpr (.inr le_rfl), ?_, ?_⟩
    · simp [Action.time]
    · rintro a ha b -
      rw [htimes a ha]
      exact Nat.zero_le _
  · have hfull : full.countP (Action.requests ip start (start + windowDuration windowSecs)) ≤
        maxRequests := List.countP_le_length.trans_eq List.length_replicate
    have hone : [Action.request "k" stale].countP
        (Action.requests ip start (start + windowDuration windowSecs)) ≤ 1 := List.countP_le_length
    rw [List.countP_append, List.countP_cons_of_neg (by simp [Action.requests])]
    omega
  · -- The window after the requests at time 0.
    have hcount : (afterAll maxRequests windowSecs ∅ full).lookup "k" = some ⟨maxRequests, 0⟩ :=
      lookup_afterAll_full hmax hlimit
    have hsame := hall.sameDecisions
    have hfilter : (full ++ [Action.evict stale, .request "k" stale]).filter Action.isRequest =
        full ++ [.request "k" stale] := by
      rw [List.filter_append, List.filter_eq_self.mpr fun a ha => by rw [htimes a ha]; rfl]
      rfl
    rw [hfilter, events_append, events_append, List.map_append, List.map_append] at hsame
    have hlast := List.append_cancel_left hsame
    -- With the evictor the last request starts a window, without it the limit is reached.
    have hdropped : startsWindow windowSecs
        (evict windowSecs (afterAll maxRequests windowSecs ∅ full) stale) "k" stale = true := by
      have hnone : (evict windowSecs (afterAll maxRequests windowSecs ∅ full) stale).lookup "k" =
          none := by
        refine Option.eq_none_iff_forall_ne_some.mpr fun entry hentry => ?_
        obtain ⟨hlookup, hkept⟩ := lookup_evict.mp hentry
        cases hcount.symm.trans hlookup
        rw [← hstale] at hkept
        exact lt_irrefl _ hkept
      simp [startsWindow, hnone]
    have hrunning : startsWindow windowSecs (afterAll maxRequests windowSecs ∅ full) "k" stale =
        false := by
      simpa [startsWindow, hcount] using hle
    obtain ⟨entry, hentry, -, -, hdecision⟩ :=
      call_of_not_starts maxRequests hrunning
    cases hcount.symm.trans hentry
    have hmod : (maxRequests + 1) % 2 ^ 32 = maxRequests + 1 := Nat.mod_eq_of_lt hlimit
    rw [hmod] at hdecision
    simp only [events, after, List.map_cons, List.map_nil, List.cons.injEq, and_true] at hlast
    rw [call_of_starts hmax hdropped] at hlast
    exact absurd (hdecision.mp hlast.symm) (by omega)

/-- The bounds hold for every sequence of requests exactly if twice the window fits into 64 bits, or
the limit is the greatest count. -/
theorem admissionBound_iff (maxRequests windowSecs : ℕ) (hmax : 1 ≤ maxRequests)
    (hmax' : maxRequests < 2 ^ 32) (hwindow : 1 ≤ windowSecs) (hwindow' : windowSecs < 2 ^ 64) :
    (∀ actions : List Action, actions.Pairwise (fun a b => a.time ≤ b.time) →
      FewRequests windowSecs actions → AdmissionBound maxRequests windowSecs actions) ↔
      windowSecs < 2 ^ 63 ∨ maxRequests = 2 ^ 32 - 1 := by
  constructor
  · intro hall
    by_contra hnot
    push Not at hnot
    obtain ⟨actions, hsorted, hfew, hbad⟩ :=
      exists_not_admissionBound hmax (by omega) hnot.1 hwindow'
    exact hbad (hall actions hsorted hfew)
  · exact fun hok actions hsorted hfew => admissionBound_of hmax hwindow hok hsorted hfew

/-- Two clients over two minutes, with two requests a minute for each, and the evictor. -/
def minutes : List Action :=
  [.request "10.0.0.1" 0, .request "10.0.0.2" 5, .request "10.0.0.1" 7, .evict 8,
    .request "10.0.0.1" 9, .request "10.0.0.1" (windowDuration 61), .evict (windowDuration 120 + 5),
    .request "10.0.0.2" (windowDuration 121)]

/-- The bounds hold for them. -/
theorem admissionBound_minutes : AdmissionBound 2 60 minutes := by
  have hfew : FewRequests 60 minutes := fun ip start =>
    lt_of_le_of_lt List.countP_le_length (by decide)
  exact (admissionBound_iff 2 60 (by decide) (by decide) (by decide) (by decide)).mpr
    (.inl (by decide)) minutes (by decide +kernel) hfew

/-- A window of 2^63 seconds is dropped at once, and three requests are admitted in it. -/
theorem admissionBound_fails :
    ¬ ∀ maxRequests windowSecs : ℕ, 1 ≤ maxRequests → maxRequests < 2 ^ 32 → 1 ≤ windowSecs →
      windowSecs < 2 ^ 64 → ∀ actions : List Action,
        actions.Pairwise (fun a b => a.time ≤ b.time) → FewRequests windowSecs actions →
          AdmissionBound maxRequests windowSecs actions := by
  intro hall
  let actions : List Action :=
    [.request "k" 0, .evict 0, .request "k" 0, .evict 0, .request "k" 0]
  have hfew : FewRequests (2 ^ 63) actions := fun ip start =>
    lt_of_le_of_lt List.countP_le_length (by decide)
  have hbound := hall 1 (2 ^ 63) (by decide) (by decide) (by decide) (by decide) actions
    (by decide) hfew
  exact absurd (hbound.interval "k" 0) (by decide +kernel)

end XiraNet.RateLimit

import XiraNet.Identity.Users
import XiraNet.Lib.Runs

/-!
# Lockout

The failed attempts of all emails share one bounded map. When it is full, recording a failure drops
what has expired, and where nothing has, the oldest entry, locked or not.

* `lookup_pruneFailures`: the pruning keeps an entry whose window is not over, as long as fewer than
  10,000 of the entries are like that.
* `length_pruneFailures_lt`: it leaves room for one more entry.
* `lockHeld_of_runs`: a lock holds over every run in which the map is never full of such entries,
  and the map is bounded over every run.
* `lockHeld_fails`: failures of 10,000 other emails lift a lock.
-/

namespace XiraNet

/-- The window of an entry is not over. -/
def FailedAttempt.live (fa : FailedAttempt) (now : ℕ) : Bool :=
  now < fa.firstFailureAt + lockoutWindowSecs

/-- The number of entries whose window is not over. -/
def liveFailures (failedAttempts : DashMap String FailedAttempt) (now : ℕ) : ℕ :=
  failedAttempts.entries.countP fun entry => entry.2.live now

namespace UserManager

/-- The search for the oldest entry, from what was found before. -/
theorem foldl_oldest (entries : List (Sigma fun _ : String => FailedAttempt))
    (oldest : ℕ × Option String) :
    let found := entries.foldl (fun (oldest : ℕ × Option String) entry =>
      if entry.2.firstFailureAt < oldest.1 then (entry.2.firstFailureAt, some entry.1)
      else oldest) oldest
    (∀ entry ∈ entries, found.1 ≤ entry.2.firstFailureAt) ∧ found.1 ≤ oldest.1 ∧
      (found = oldest ∨ ∃ entry ∈ entries, found = (entry.2.firstFailureAt, some entry.1)) := by
  induction entries generalizing oldest with
  | nil => exact ⟨by simp, le_rfl, .inl rfl⟩
  | cons entry entries ih =>
      rw [List.foldl_cons]
      split
      next hlt =>
        obtain ⟨hall, hle, hfound⟩ := ih (entry.2.firstFailureAt, some entry.1)
        refine ⟨fun entry' hmem => ?_, hle.trans hlt.le, .inr ?_⟩
        · rcases List.mem_cons.mp hmem with rfl | hmem
          · exact hle
          · exact hall entry' hmem
        · rcases hfound with hfound | ⟨entry', hmem, hfound⟩
          · exact ⟨entry, List.mem_cons_self, hfound⟩
          · exact ⟨entry', List.mem_cons_of_mem _ hmem, hfound⟩
      next hnot =>
        obtain ⟨hall, hle, hfound⟩ := ih oldest
        refine ⟨fun entry' hmem => ?_, hle, hfound.imp_right ?_⟩
        · rcases List.mem_cons.mp hmem with rfl | hmem
          · exact hle.trans (not_lt.mp hnot)
          · exact hall entry' hmem
        · rintro ⟨entry', hmem, hfound⟩
          exact ⟨entry', List.mem_cons_of_mem _ hmem, hfound⟩

/-- The oldest entry is one of the entries, and none is older. -/
theorem oldestFailure_some {failedAttempts : DashMap String FailedAttempt} {key : String}
    (h : oldestFailure failedAttempts = some key) :
    ∃ oldest, failedAttempts.lookup key = some oldest ∧
      ∀ entry ∈ failedAttempts.entries, oldest.firstFailureAt ≤ entry.2.firstFailureAt := by
  obtain ⟨hall, -, hfound⟩ := foldl_oldest failedAttempts.entries (2 ^ 64 - 1, none)
  rcases hfound with hfound | ⟨⟨key', oldest⟩, hmem, hfound⟩
  · rw [oldestFailure, hfound] at h
    cases h
  · rw [oldestFailure, hfound] at h
    rw [hfound] at hall
    cases h
    exact ⟨oldest, AList.mem_lookup_iff.mpr hmem, hall⟩

/-- There is an oldest entry. -/
theorem oldestFailure_isSome {failedAttempts : DashMap String FailedAttempt} {key : String}
    {fa : FailedAttempt} (h : failedAttempts.lookup key = some fa)
    (htime : fa.firstFailureAt < 2 ^ 64 - 1) : (oldestFailure failedAttempts).isSome := by
  obtain ⟨hall, -, hfound⟩ := foldl_oldest failedAttempts.entries (2 ^ 64 - 1, none)
  rcases hfound with hfound | ⟨entry, -, hfound⟩
  · have hle := hall ⟨key, fa⟩ (AList.mem_lookup_iff.mp h)
    rw [hfound] at hle
    exact absurd hle (not_le.mpr htime)
  · rw [oldestFailure, hfound]
    rfl

/-- The pruning adds nothing. -/
theorem of_lookup_pruneFailures {failedAttempts : DashMap String FailedAttempt} {now : ℕ}
    {key : String} {fa : FailedAttempt}
    (h : (pruneFailures failedAttempts now).lookup key = some fa) :
    failedAttempts.lookup key = some fa := by
  have hretain : ∀ p, (failedAttempts.retain p).lookup key = some fa →
      failedAttempts.lookup key = some fa := by
    intro p h
    rw [DashMap.lookup_retain, Option.filter_eq_some_iff] at h
    exact h.1
  unfold pruneFailures at h
  dsimp only at h
  split_ifs at h
  · split at h
    next oldest _ =>
      exact hretain _ (DashMap.lookup_erase_cases h).2
    next => exact hretain _ h
  · exact hretain _ h
  · exact h

/-- The pruning keeps an entry whose window is not over, unless the map is full of them. -/
theorem lookup_pruneFailures {failedAttempts : DashMap String FailedAttempt} {now : ℕ}
    {key : String} {fa : FailedAttempt} (h : failedAttempts.lookup key = some fa)
    (hlive : fa.live now = true)
    (hroom : liveFailures failedAttempts now < failedAttemptsMaxEntries) :
    (pruneFailures failedAttempts now).lookup key = some fa := by
  have hlt : now < fa.firstFailureAt + lockoutWindowSecs := by
    simpa [FailedAttempt.live] using hlive
  let kept := failedAttempts.retain fun _ fa => now - lockoutWindowSecs ≤ fa.firstFailureAt
  have hkept : kept.lookup key = some fa := by
    rw [DashMap.lookup_retain, Option.filter_eq_some_iff]
    refine ⟨h, decide_eq_true ?_⟩
    omega
  unfold pruneFailures
  dsimp only
  split_ifs with hfull hstill
  · cases holdest : oldestFailure kept with
    | none => exact hkept
    | some oldest =>
        dsimp only
        rw [DashMap.lookup_erase, if_neg]
        · exact hkept
        rintro rfl
        obtain ⟨fa', hfa', hall⟩ := oldestFailure_some holdest
        cases hkept.symm.trans hfa'
        -- If this entry is the oldest one that is left, the window of none of them is over.
        have hcount : kept.entries.countP (fun entry => entry.2.live now) =
            kept.entries.length := by
          refine List.countP_eq_length.mpr fun entry hmem => decide_eq_true ?_
          exact lt_of_lt_of_le hlt (Nat.add_le_add_right (hall entry hmem) _)
        have hle : kept.entries.countP (fun entry => entry.2.live now) ≤
            liveFailures failedAttempts now :=
          List.Sublist.countP_le List.filter_sublist
        have hstill' : failedAttemptsMaxEntries ≤ kept.entries.length := hstill
        omega
  · exact hkept
  · exact h

/-- The pruning leaves room for one more entry. -/
theorem length_pruneFailures_lt {failedAttempts : DashMap String FailedAttempt} {now : ℕ}
    (hlength : failedAttempts.entries.length ≤ failedAttemptsMaxEntries)
    (htime : ∀ key fa, failedAttempts.lookup key = some fa → fa.firstFailureAt < 2 ^ 64 - 1) :
    (pruneFailures failedAttempts now).entries.length < failedAttemptsMaxEntries := by
  let kept := failedAttempts.retain fun _ fa => now - lockoutWindowSecs ≤ fa.firstFailureAt
  have hkept : kept.entries.length ≤ failedAttempts.entries.length := DashMap.length_retain_le _ _
  unfold pruneFailures
  dsimp only
  split_ifs with hfull hstill
  · have hstill' : failedAttemptsMaxEntries ≤ kept.entries.length := hstill
    cases holdest : oldestFailure kept with
    | some oldest =>
        obtain ⟨fa, hfa, -⟩ := oldestFailure_some holdest
        have hlt := DashMap.length_erase_lt hfa
        exact hlt.trans_le (hkept.trans hlength)
    | none =>
        -- The map is full, so there is an entry to begin with.
        have hpos : 0 < kept.entries.length :=
          lt_of_lt_of_le (by decide) hstill'
        obtain ⟨⟨key, fa⟩, hmem⟩ := List.exists_mem_of_length_pos hpos
        have hfa : kept.lookup key = some fa := AList.mem_lookup_iff.mpr hmem
        have hfa' := hfa
        rw [DashMap.lookup_retain, Option.filter_eq_some_iff] at hfa'
        have hsome := oldestFailure_isSome hfa (htime key fa hfa'.1)
        rw [holdest] at hsome
        cases hsome
  · exact lt_of_not_ge hstill
  · exact lt_of_not_ge hfull

/-- The failed attempts after a check that found no lock: an entry whose window is over may be
gone, and the entry of the email has not reached the limit. -/
structure PassesCheck (now : ℕ) (email : String) (before after : DashMap String FailedAttempt) :
    Prop where
  sub : ∀ key fa, after.lookup key = some fa → before.lookup key = some fa
  keeps : ∀ key fa, before.lookup key = some fa → fa.live now = true → after.lookup key = some fa
  below : ∀ fa, after.lookup email = some fa → fa.count < maxFailedAttempts
  length : after.entries.length ≤ before.entries.length
  liveFailures : ∀ now, liveFailures after now ≤ liveFailures before now

/-- How the lockout check goes on. -/
theorem lockoutCheck_cases (m : UserManager) (now : ℕ) (email : String) :
    (∃ fa, m.failedAttempts.lookup email = some fa ∧ maxFailedAttempts ≤ fa.count ∧
        now - fa.firstFailureAt < lockoutWindowSecs ∧
        m.lockoutCheck now email = (some (lockoutWindowSecs + fa.firstFailureAt - now), m)) ∨
      (m.lockoutCheck now email).1 = none ∧
        PassesCheck now email m.failedAttempts (m.lockoutCheck now email).2.failedAttempts := by
  unfold lockoutCheck
  cases hlookup : m.failedAttempts.lookup email with
  | none =>
      refine .inr ⟨rfl, fun _ _ h => h, fun _ _ h _ => h, fun fa hfa => ?_, le_rfl, fun _ => le_rfl⟩
      exact absurd (hlookup.symm.trans hfa) (by simp)
  | some fa =>
      dsimp only
      split_ifs with hcount hover
      · refine .inr ⟨rfl, fun _ _ h => h, fun _ _ h _ => h, fun fa' hfa' => ?_, le_rfl,
          fun _ => le_rfl⟩
        cases hlookup.symm.trans hfa'
        exact hcount
      · -- The window of the entry is over.
        refine .inr ⟨rfl, fun key fa' h => ?_, fun key fa' h hlive => ?_, fun fa' hfa' => ?_,
          DashMap.length_erase_le _ _, fun _ => ?_⟩
        · exact (DashMap.lookup_erase_cases h).2
        · rw [DashMap.lookup_erase, if_neg]
          · exact h
          rintro rfl
          cases hlookup.symm.trans h
          have hlt : now < fa.firstFailureAt + lockoutWindowSecs := by
            simpa [FailedAttempt.live] using hlive
          have hpos : 0 < lockoutWindowSecs := by decide
          omega
        · rw [DashMap.lookup_erase, if_pos rfl] at hfa'
          cases hfa'
        · exact (List.kerase_sublist _ _).countP_le
      · exact .inl ⟨fa, rfl, not_lt.mp hcount, not_le.mp hover, rfl⟩

/-- The failed attempts after an authentication. -/
inductive AuthFailures (now later : ℕ) (email : String)
    (before : DashMap String FailedAttempt) : AuthResult → DashMap String FailedAttempt → Prop
  | locked (fa : FailedAttempt) :
      before.lookup email = some fa → maxFailedAttempts ≤ fa.count →
      now - fa.firstFailureAt < lockoutWindowSecs →
      AuthFailures now later email before
        (.lockedOut (lockoutWindowSecs + fa.firstFailureAt - now)) before
  | failed (m : UserManager) :
      PassesCheck now email before m.failedAttempts →
      AuthFailures now later email before .invalidCredentials
        (m.recordFailure later email).failedAttempts
  | disabled (after : DashMap String FailedAttempt) :
      PassesCheck now email before after →
      AuthFailures now later email before .accountDisabled after
  | mfa (after : DashMap String FailedAttempt) (userId : String) :
      PassesCheck now email before after →
      AuthFailures now later email before (.mfaRequired userId) (after.erase email)
  | success (after : DashMap String FailedAttempt) (user : User) (token : String) :
      PassesCheck now email before after →
      AuthFailures now later email before (.success user token) (after.erase email)

/-- What an authentication does to the failed attempts. -/
theorem authFailures_authenticate (lib : UserLib) (m : UserManager) (now later : ℕ)
    (token email password : String) :
    AuthFailures now later (normalizeEmail email) m.failedAttempts
      (m.authenticate lib now later token email password).1
      (m.authenticate lib now later token email password).2.failedAttempts := by
  unfold authenticate
  dsimp only
  rcases m.lockoutCheck_cases now (normalizeEmail email) with
    ⟨fa, hlookup, hcount, hwindow, hcheck⟩ | ⟨hnone, hpasses⟩
  · rw [hcheck]
    exact .locked fa hlookup hcount hwindow
  · generalize m.lockoutCheck now (normalizeEmail email) = checked at hnone hpasses ⊢
    obtain ⟨retry, m'⟩ := checked
    cases hnone
    dsimp only at hpasses ⊢
    cases (m'.emailIndex.lookup (normalizeEmail email)).bind m'.users.lookup with
    | none => exact .failed m' hpasses
    | some user =>
        dsimp only
        split_ifs
        · exact .disabled _ hpasses
        · exact .failed m' hpasses
        · exact .mfa _ _ hpasses
        · exact .success _ _ _ hpasses

end UserManager

/-- A call to `authenticate`. -/
structure AuthCall where
  now : ℕ
  /-- The second reading of the clock. -/
  later : ℕ
  token : String
  email : String
  password : String
  deriving DecidableEq, Repr

/-- A user store, the time of the last call, and for every normalized email the entries that its
failures created, each with the failures that were recorded since. -/
structure LockoutState where
  manager : UserManager
  clock : ℕ
  since : String → List FailedAttempt

namespace LockoutState

/-- The entries that failures for an email created, after a call for it. -/
def sinceAfter (since : List FailedAttempt) (result : AuthResult) (later : ℕ)
    (entry : Option FailedAttempt) : List FailedAttempt :=
  match result with
  | .invalidCredentials =>
      let counted := since.map fun fa => { fa with count := fa.count + 1 }
      -- An entry that counts one failure was created by it.
      if entry.map (·.count) = some 1 then ⟨1, later⟩ :: counted else counted
  | .success _ _ | .mfaRequired _ => []
  | .accountDisabled | .lockedOut _ => since

/-- One call. The seconds of a system clock are an `i64`. -/
def step (lib : UserLib) (s : LockoutState) (call : AuthCall) : Option LockoutState :=
  if s.clock ≤ call.now ∧ call.now ≤ call.later ∧ call.later < 2 ^ 63 then
    let email := normalizeEmail call.email
    let answer := s.manager.authenticate lib call.now call.later call.token call.email call.password
    some
      { manager := answer.2
        clock := call.later
        since := Function.update s.since email
          (sinceAfter (s.since email) answer.1 call.later
            (answer.2.failedAttempts.lookup email)) }
  else none

/-- Calls to the user store, one after the other. -/
def machine (lib : UserLib) : Machine LockoutState AuthCall := ⟨step lib⟩

/-- A user store without failed attempts. -/
def initial (m : UserManager) : LockoutState where
  manager := { m with failedAttempts := ∅ }
  clock := 0
  since := fun _ => []

/-- An email with ten failures since one of its entries was created is locked until the window of
that entry is over. -/
def LockHeld (lib : UserLib) (s : LockoutState) : Prop :=
  ∀ email, ∀ fa ∈ s.since (normalizeEmail email), maxFailedAttempts ≤ fa.count →
    ∀ now later token password, s.clock ≤ now → now < fa.firstFailureAt + lockoutWindowSecs →
      ∃ retryAfterSecs,
        (s.manager.authenticate lib now later token email password).1 = .lockedOut retryAfterSecs ∧
          1 ≤ retryAfterSecs ∧ retryAfterSecs ≤ lockoutWindowSecs

/-- The failed attempts are bounded. -/
def Bounded (s : LockoutState) : Prop :=
  s.manager.failedAttempts.entries.length ≤ failedAttemptsMaxEntries

/-- A call that records a failure: no lock is found, and the email is unknown or the password of an
enabled user is wrong. -/
def RecordsFailure (lib : UserLib) (s : LockoutState) (call : AuthCall) : Prop :=
  let email := normalizeEmail call.email
  (s.manager.lockoutCheck call.now email).1 = none ∧
    ∀ user ∈ (s.manager.emailIndex.lookup email).bind s.manager.users.lookup,
      user.enabled = true ∧ verifyPassword lib call.password user.passwordHash = false

instance (lib : UserLib) (s : LockoutState) (call : AuthCall) :
    Decidable (s.RecordsFailure lib call) :=
  inferInstanceAs (Decidable (_ ∧ _))

/-- A call that records a failure finds fewer than 10,000 entries whose window is not over. -/
def HasRoom (lib : UserLib) (s : LockoutState) (call : AuthCall) : Prop :=
  s.RecordsFailure lib call →
    liveFailures s.manager.failedAttempts call.later < failedAttemptsMaxEntries

instance (lib : UserLib) (s : LockoutState) (call : AuthCall) : Decidable (s.HasRoom lib call) :=
  inferInstanceAs (Decidable (_ → _))

/-- The entries that failures created are there, as long as their windows are not over. -/
def Tracked (s : LockoutState) : Prop :=
  ∀ email, ∀ fa ∈ s.since email, fa.live s.clock = true →
    s.manager.failedAttempts.lookup email = some fa

variable {lib : UserLib}

/-- An entry that is not over later is not over now. -/
theorem live_of_le {fa : FailedAttempt} {now later : ℕ} (h : fa.live later = true)
    (hle : now ≤ later) : fa.live now = true := by
  simp only [FailedAttempt.live, decide_eq_true_eq] at h ⊢
  omega

/-- Recording a failure. -/
theorem lookup_recordFailure (m : UserManager) (now : ℕ) (email key : String) :
    (m.recordFailure now email).failedAttempts.lookup key =
      if key = email then
        some (match (UserManager.pruneFailures m.failedAttempts now).lookup email with
          | some fa => { fa with count := (fa.count + 1) % 2 ^ 32 }
          | none => ⟨1, now⟩)
      else (UserManager.pruneFailures m.failedAttempts now).lookup key :=
  DashMap.lookup_insert _ _ _ _

/-- Invalid credentials are answered to the calls that record a failure. -/
theorem recordsFailure_of_invalidCredentials {s : LockoutState} {call : AuthCall}
    (h : (s.manager.authenticate lib call.now call.later call.token call.email call.password).1 =
      .invalidCredentials) : s.RecordsFailure lib call := by
  obtain ⟨husers, hindex⟩ := s.manager.lockoutCheck_users call.now (normalizeEmail call.email)
  unfold UserManager.authenticate at h
  unfold RecordsFailure
  dsimp only at h ⊢
  rw [← husers, ← hindex]
  generalize s.manager.lockoutCheck call.now (normalizeEmail call.email) = checked at h ⊢
  obtain ⟨_ | retry, m⟩ := checked
  · refine ⟨rfl, ?_⟩
    dsimp only at h ⊢
    generalize (m.emailIndex.lookup (normalizeEmail call.email)).bind m.users.lookup = found at h ⊢
    cases found with
    | none => rintro _ ⟨⟩
    | some user =>
        rintro _ ⟨⟩
        dsimp only at h
        split_ifs at h with henabled hpassword
        exact ⟨by simpa using henabled, by simpa using hpassword⟩
  · cases h

/-- What a step does. -/
theorem step_cases {s t : LockoutState} {call : AuthCall} (h : s.step lib call = some t) :
    s.clock ≤ call.now ∧ call.now ≤ call.later ∧ call.later < 2 ^ 63 ∧ t.clock = call.later ∧
      ∃ result,
        (s.manager.authenticate lib call.now call.later call.token call.email call.password).1 =
          result ∧
        UserManager.AuthFailures call.now call.later (normalizeEmail call.email)
          s.manager.failedAttempts result t.manager.failedAttempts ∧
        t.since = Function.update s.since (normalizeEmail call.email)
          (sinceAfter (s.since (normalizeEmail call.email)) result call.later
            (t.manager.failedAttempts.lookup (normalizeEmail call.email))) := by
  unfold step at h
  split at h
  next htimes =>
    obtain ⟨hclock, hle, hbound⟩ := htimes
    have hfailures := s.manager.authFailures_authenticate lib call.now call.later call.token
      call.email call.password
    generalize s.manager.authenticate lib call.now call.later call.token call.email
      call.password = answer at h hfailures ⊢
    obtain rfl := Option.some.inj h
    refine ⟨hclock, hle, hbound, rfl, answer.1, rfl, hfailures, ?_⟩
    dsimp only
  next => cases h

/-- The entries of a bounded map whose times are past. -/
def Past (failedAttempts : DashMap String FailedAttempt) (now : ℕ) : Prop :=
  failedAttempts.entries.length ≤ failedAttemptsMaxEntries ∧
    ∀ email fa, failedAttempts.lookup email = some fa →
      fa.firstFailureAt ≤ now ∧ 1 ≤ fa.count ∧ fa.count ≤ maxFailedAttempts

/-- A count below the limit does not wrap. -/
theorem wrap_of_below {count : ℕ} (h : count < maxFailedAttempts) :
    (count + 1) % 2 ^ 32 = count + 1 := by
  refine Nat.mod_eq_of_lt ?_
  unfold maxFailedAttempts at h
  omega

/-- A check that found no lock leaves a bounded map. -/
theorem past_of_passesCheck {clock now later : ℕ} {email : String}
    {before after : DashMap String FailedAttempt} (hbefore : Past before clock)
    (hle : clock ≤ later) (hpasses : UserManager.PassesCheck now email before after) :
    Past after later := by
  refine ⟨hpasses.length.trans hbefore.1, fun key fa hfa => ?_⟩
  obtain ⟨hfirst, hcount⟩ := hbefore.2 key fa (hpasses.sub key fa hfa)
  exact ⟨hfirst.trans hle, hcount⟩

/-- Removing an entry leaves a bounded map. -/
theorem past_erase {failedAttempts : DashMap String FailedAttempt} {now : ℕ}
    (h : Past failedAttempts now) (email : String) : Past (failedAttempts.erase email) now := by
  refine ⟨(DashMap.length_erase_le _ _).trans h.1, fun key fa hfa => ?_⟩
  exact h.2 key fa (DashMap.lookup_erase_cases hfa).2

/-- Recording a failure leaves a bounded map. -/
theorem past_recordFailure {m : UserManager} {now : ℕ} {email : String}
    (h : Past m.failedAttempts now) (hnow : now < 2 ^ 63)
    (hbelow : ∀ fa, m.failedAttempts.lookup email = some fa → fa.count < maxFailedAttempts) :
    Past (m.recordFailure now email).failedAttempts now := by
  constructor
  · have hlt : (UserManager.pruneFailures m.failedAttempts now).entries.length <
        failedAttemptsMaxEntries :=
      UserManager.length_pruneFailures_lt h.1 fun key fa hfa =>
        (h.2 key fa hfa).1.trans_lt (hnow.trans (by decide))
    exact (DashMap.length_insert_le _ _ _).trans hlt
  · intro key fa hfa
    rw [lookup_recordFailure] at hfa
    split at hfa
    next heq =>
      cases hpruned : (UserManager.pruneFailures m.failedAttempts now).lookup email with
      | none =>
          rw [hpruned] at hfa
          cases hfa
          exact ⟨le_rfl, le_rfl, Nat.succ_le_of_lt (Nat.zero_lt_succ _)⟩
      | some old =>
          rw [hpruned] at hfa
          cases hfa
          have hold := UserManager.of_lookup_pruneFailures hpruned
          have hlt := hbelow old hold
          have hmod : (old.count + 1) % 2 ^ 32 = old.count + 1 := wrap_of_below hlt
          dsimp only
          rw [hmod]
          exact ⟨(h.2 email old hold).1, Nat.succ_pos _, hlt⟩
    next => exact h.2 key fa (UserManager.of_lookup_pruneFailures hfa)

/-- A step leaves a bounded map. -/
theorem inv_step {s t : LockoutState} {call : AuthCall}
    (hs : Past s.manager.failedAttempts s.clock) (h : s.step lib call = some t) :
    Past t.manager.failedAttempts t.clock := by
  obtain ⟨hclock, hle, hbound, htime, result, -, hfailures, -⟩ := step_cases h
  rw [htime]
  have hchecked : ∀ after, UserManager.PassesCheck call.now (normalizeEmail call.email)
      s.manager.failedAttempts after → Past after call.later :=
    fun _ hpasses => past_of_passesCheck hs (hclock.trans hle) hpasses
  generalize t.manager.failedAttempts = failedAttempts at hfailures ⊢
  cases hfailures with
  | locked _ _ _ _ =>
      exact ⟨hs.1, fun email fa hfa =>
        ⟨(hs.2 email fa hfa).1.trans (hclock.trans hle), (hs.2 email fa hfa).2⟩⟩
  | failed m hpasses => exact past_recordFailure (hchecked _ hpasses) hbound hpasses.below
  | disabled _ hpasses => exact hchecked _ hpasses
  | mfa after userId hpasses => exact past_erase (hchecked after hpasses) _
  | success after user token hpasses => exact past_erase (hchecked after hpasses) _

/-- Recording a failure counts it in every entry that its email has had, if the window of that
entry is not over. -/
theorem tracked_recordFailure {m : UserManager} {now : ℕ} {email : String}
    {since : List FailedAttempt}
    (hroom : liveFailures m.failedAttempts now < failedAttemptsMaxEntries)
    (hbelow : ∀ fa, m.failedAttempts.lookup email = some fa → fa.count < maxFailedAttempts)
    (hpos : ∀ fa, m.failedAttempts.lookup email = some fa → 1 ≤ fa.count)
    (hsince : ∀ fa ∈ since, fa.live now = true → m.failedAttempts.lookup email = some fa) :
    ∀ fa ∈ sinceAfter since .invalidCredentials now
        ((m.recordFailure now email).failedAttempts.lookup email),
      fa.live now = true → (m.recordFailure now email).failedAttempts.lookup email = some fa := by
  have hcounted : ∀ fa ∈ since.map fun fa => { fa with count := fa.count + 1 },
      fa.live now = true → (m.recordFailure now email).failedAttempts.lookup email = some fa := by
    intro fa hmem hlive
    obtain ⟨old, hold, rfl⟩ := List.mem_map.mp hmem
    have hlookup := hsince old hold hlive
    have hpruned := UserManager.lookup_pruneFailures hlookup hlive hroom
    rw [lookup_recordFailure, if_pos rfl, hpruned]
    simp only [wrap_of_below (hbelow old hlookup)]
  intro fa hmem hlive
  simp only [sinceAfter] at hmem
  split at hmem
  next hfirst =>
    rcases List.mem_cons.mp hmem with rfl | hmem
    · rw [lookup_recordFailure, if_pos rfl] at hfirst ⊢
      cases hpruned : (UserManager.pruneFailures m.failedAttempts now).lookup email with
      | none => rfl
      | some old =>
          -- An entry that was there already counts two failures at least.
          have hold := UserManager.of_lookup_pruneFailures hpruned
          rw [hpruned] at hfirst
          simp only [wrap_of_below (hbelow old hold), Option.map_some, Option.some.injEq] at hfirst
          have hold' := hpos old hold
          omega
    · exact hcounted fa hmem hlive
  next => exact hcounted fa hmem hlive

/-- What was there for an email stays, unless the call is for it. -/
theorem tracked_other {before after : DashMap String FailedAttempt} {now later : ℕ}
    {email key : String} {result : AuthResult}
    (h : UserManager.AuthFailures now later email before result after) (hle : now ≤ later)
    (hroom : result = .invalidCredentials → liveFailures before later < failedAttemptsMaxEntries)
    (hne : key ≠ email) {fa : FailedAttempt} (hlookup : before.lookup key = some fa)
    (hlive : fa.live later = true) : after.lookup key = some fa := by
  have hlive' := live_of_le hlive hle
  cases h with
  | locked _ _ _ _ => exact hlookup
  | failed m hpasses =>
      rw [lookup_recordFailure, if_neg hne]
      exact UserManager.lookup_pruneFailures (hpasses.keeps key fa hlookup hlive') hlive
        ((hpasses.liveFailures later).trans_lt (hroom rfl))
  | disabled _ hpasses => exact hpasses.keeps key fa hlookup hlive'
  | mfa _ _ hpasses =>
      rw [DashMap.lookup_erase, if_neg hne]
      exact hpasses.keeps key fa hlookup hlive'
  | success _ _ _ hpasses =>
      rw [DashMap.lookup_erase, if_neg hne]
      exact hpasses.keeps key fa hlookup hlive'

/-- A step with room keeps every entry whose window is not over, and counts all failures in it. -/
theorem tracked_step {s t : LockoutState} {call : AuthCall}
    (hs : Past s.manager.failedAttempts s.clock) (htracked : s.Tracked)
    (hroom : s.HasRoom lib call) (h : s.step lib call = some t) : t.Tracked := by
  obtain ⟨hclock, hle, -, htime, result, hresult, hfailures, hsince⟩ := step_cases h
  have hroom' : result = .invalidCredentials →
      liveFailures s.manager.failedAttempts call.later < failedAttemptsMaxEntries :=
    fun heq => hroom (recordsFailure_of_invalidCredentials (hresult.trans heq))
  -- What the state says of an entry that is not over at the end of the call.
  have hbefore : ∀ email, ∀ fa ∈ s.since email, fa.live call.later = true →
      s.manager.failedAttempts.lookup email = some fa :=
    fun email fa hmem hlive => htracked email fa hmem (live_of_le hlive (hclock.trans hle))
  intro email fa hmem hlive
  rw [htime] at hlive
  rw [hsince] at hmem
  by_cases heq : email = normalizeEmail call.email
  · subst heq
    rw [Function.update_self] at hmem
    generalize t.manager.failedAttempts = after at hfailures hmem ⊢
    cases hfailures with
    | locked _ _ _ _ => exact hbefore _ fa hmem hlive
    | failed m hpasses =>
        refine tracked_recordFailure ((hpasses.liveFailures call.later).trans_lt (hroom' rfl))
          hpasses.below (fun fa hfa => (hs.2 _ fa (hpasses.sub _ fa hfa)).2.1) ?_ fa hmem hlive
        intro fa hmem hlive
        exact hpasses.keeps _ fa (hbefore _ fa hmem hlive) (live_of_le hlive hle)
    | disabled _ hpasses =>
        exact hpasses.keeps _ fa (hbefore _ fa hmem hlive) (live_of_le hlive hle)
    -- The right password has ended the count.
    | mfa _ _ _ => cases hmem
    | success _ _ _ _ => cases hmem
  · rw [Function.update_of_ne heq] at hmem
    exact tracked_other hfailures hle hroom' heq (hbefore email fa hmem hlive) hlive

/-- Entries that are still there hold their locks. -/
theorem lockHeld_of_tracked {s : LockoutState} (hs : Past s.manager.failedAttempts s.clock)
    (htracked : s.Tracked) : s.LockHeld lib := by
  intro email fa hmem hcount now later token password hnow hwindow
  have hlive : fa.live s.clock = true := decide_eq_true (hnow.trans_lt hwindow)
  have hlookup := htracked _ fa hmem hlive
  have hfirst := (hs.2 _ fa hlookup).1
  have hfailures := s.manager.authFailures_authenticate lib now later token email password
  have hnot : ∀ after, ¬ UserManager.PassesCheck now (normalizeEmail email)
      s.manager.failedAttempts after := by
    intro after hpasses
    exact absurd hcount (not_le.mpr (hpasses.below fa (hpasses.keeps _ fa hlookup
      (decide_eq_true hwindow))))
  generalize s.manager.authenticate lib now later token email password = answer at hfailures ⊢
  obtain ⟨result, manager⟩ := answer
  dsimp only at hfailures ⊢
  generalize manager.failedAttempts = after at hfailures
  cases hfailures with
  | locked fa' hlookup' hcount' hwindow' =>
      cases hlookup.symm.trans hlookup'
      exact ⟨_, rfl, by omega, by omega⟩
  | failed _ hpasses => exact absurd hpasses (hnot _)
  | disabled _ hpasses => exact absurd hpasses (hnot _)
  | mfa _ _ hpasses => exact absurd hpasses (hnot _)
  | success _ _ _ hpasses => exact absurd hpasses (hnot _)

/-- The failed attempts are bounded over every run, and a lock holds over every run that never finds
the map full of entries whose windows are not over. -/
theorem lockHeld_of_runs (lib : UserLib) (m : UserManager) (calls : List AuthCall)
    (s : LockoutState)
    (hrun : (machine lib).Runs Machine.unrestricted (initial m) calls s) :
    s.Bounded ∧ ((machine lib).Runs (HasRoom lib) (initial m) calls s → s.LockHeld lib) := by
  have hinitial : Past (initial m).manager.failedAttempts (initial m).clock :=
    ⟨Nat.zero_le _, by simp [initial]⟩
  constructor
  · exact (hrun.invariant (I := fun s => Past s.manager.failedAttempts s.clock)
      (fun _ _ _ hs _ h => inv_step hs h) hinitial).1
  · intro hroom
    obtain ⟨hpast, htracked⟩ := hroom.invariant
      (I := fun s => Past s.manager.failedAttempts s.clock ∧ s.Tracked)
      (fun _ _ _ hs hok h => ⟨inv_step hs.1 h, tracked_step hs.1 hs.2 hok h⟩)
      ⟨hinitial, by simp [Tracked, initial]⟩
    exact lockHeld_of_tracked hpast htracked

/-- A user store without users. -/
def noUsers : UserManager := ⟨∅, ∅, none, ∅, User.keyed_empty⟩

/-- A library in which no password is right. -/
def strictLib : UserLib where
  verifyArgon2 _ _ := false
  hmac _ _ _ := 0
  debugString s := s
  permissionsJson _ := "[]"
  encryptMfaSecret s := s

/-- Ten failures for one email. -/
def tenFailures : List AuthCall :=
  List.replicate 10 ⟨0, 0, "", " Victim@example.org", "guess"⟩

/-- Ten failures lock the email. -/
theorem lockHeld_tenFailures :
    ∃ s, (machine strictLib).Runs Machine.unrestricted (initial noUsers) tenFailures s ∧
      s.since "victim@example.org" = [⟨10, 0⟩] ∧ s.Bounded ∧ s.LockHeld strictLib := by
  obtain ⟨s, hs, hsince⟩ : ∃ s,
      (machine strictLib).exec (HasRoom strictLib) (initial noUsers) tenFailures = some s ∧
        s.since "victim@example.org" = [⟨10, 0⟩] := by
    refine ⟨_, rfl, ?_⟩
    decide
  have hroom := Machine.runs_of_exec hs
  have hrun := hroom.mono fun _ _ _ => (trivial : Machine.unrestricted _ _)
  obtain ⟨hbounded, hheld⟩ := lockHeld_of_runs strictLib noUsers tenFailures s hrun
  exact ⟨s, hrun, hsince, hbounded, hheld hroom⟩

/-- The email that is locked. -/
def victim : String := "victim@example.org"

/-- The emails of the attacker. -/
def otherEmail (i : ℕ) : String := String.ofList (List.replicate (i + 1) 'a')

/-- A failure for an email of the attacker. -/
def otherCall (i : ℕ) : AuthCall := ⟨1, 1, "", otherEmail i, "guess"⟩

/-- The emails of the attacker are normalized. -/
theorem normalizeEmail_otherEmail (i : ℕ) : normalizeEmail (otherEmail i) = otherEmail i := by
  have hspace : Text.isWhitespace 'a' = false := by decide
  have hlower : Char.toLower 'a' = 'a' := by decide
  have hdrop : (List.replicate (i + 1) 'a').dropWhile Text.isWhitespace =
      List.replicate (i + 1) 'a' := by
    rw [List.replicate_succ, List.dropWhile_cons_of_neg (by simp [hspace])]
  have hrdrop : (List.replicate (i + 1) 'a').rdropWhile Text.isWhitespace =
      List.replicate (i + 1) 'a' := by
    rw [List.rdropWhile, List.reverse_replicate, hdrop, List.reverse_replicate]
  simp only [normalizeEmail, Text.toAsciiLowercase, Text.trim, otherEmail, String.toList_ofList,
    hdrop, hrdrop, List.map_replicate, hlower]

/-- The emails of the attacker are different. -/
theorem otherEmail_inj {i j : ℕ} (h : otherEmail i = otherEmail j) : i = j := by
  have hlength := congrArg (fun s => s.toList.length) h
  simpa [otherEmail] using hlength

/-- The email that is locked is none of them. -/
theorem otherEmail_ne_victim (i : ℕ) : otherEmail i ≠ victim := by
  intro h
  have hmem : 'v' ∈ (otherEmail i).toList := by
    rw [h]
    decide
  simp [otherEmail] at hmem

/-- An unknown email without failures. -/
theorem authenticate_unknown (lib : UserLib) {m : UserManager} (now later : ℕ)
    (token password : String) {email : String} (hindex : m.emailIndex = ∅)
    (hlookup : m.failedAttempts.lookup (normalizeEmail email) = none) :
    m.authenticate lib now later token email password =
      (.invalidCredentials, m.recordFailure later (normalizeEmail email)) := by
  simp only [UserManager.authenticate, UserManager.lockoutCheck, hlookup, hindex,
    AList.lookup_empty, Option.bind_none]

/-- The map holds the lock and `n` failures of the attacker. -/
structure Filling (n : ℕ) (s : LockoutState) : Prop where
  clock : s.clock ≤ 1
  index : s.manager.emailIndex = ∅
  length : s.manager.failedAttempts.entries.length = n + 1
  locked : s.manager.failedAttempts.lookup victim = some ⟨10, 0⟩
  times : ∀ email fa, s.manager.failedAttempts.lookup email = some fa →
    email = victim ∨ fa.firstFailureAt = 1
  fresh : ∀ i, n ≤ i → s.manager.failedAttempts.lookup (otherEmail i) = none
  since : s.since victim = [⟨10, 0⟩]

/-- The step that the next failure of the attacker takes. -/
theorem Filling.step_other {n : ℕ} {s : LockoutState} (hs : Filling n s) :
    ∃ t, s.step strictLib (otherCall n) = some t ∧ t.clock = 1 ∧
      t.manager = s.manager.recordFailure 1 (otherEmail n) ∧ t.since victim = [⟨10, 0⟩] := by
  have hfresh : s.manager.failedAttempts.lookup (normalizeEmail (otherEmail n)) = none := by
    rw [normalizeEmail_otherEmail]
    exact hs.fresh n le_rfl
  have hanswer := authenticate_unknown strictLib 1 1 "" "guess" hs.index hfresh
  have htimes : s.clock ≤ (otherCall n).now ∧ (otherCall n).now ≤ (otherCall n).later ∧
      (otherCall n).later < 2 ^ 63 := ⟨hs.clock, le_rfl, Nat.one_lt_two_pow (by decide)⟩
  refine ⟨_, if_pos htimes, rfl, ?_, ?_⟩
  · simp only [otherCall]
    rw [hanswer, normalizeEmail_otherEmail]
  · simp only [otherCall, normalizeEmail_otherEmail]
    rw [Function.update_of_ne (otherEmail_ne_victim n).symm]
    exact hs.since

/-- As long as there is room, the map fills up. -/
theorem Filling.next {n : ℕ} {s : LockoutState} (hs : Filling n s)
    (hn : n + 1 < failedAttemptsMaxEntries) :
    ∃ t, s.step strictLib (otherCall n) = some t ∧ Filling (n + 1) t := by
  obtain ⟨t, ht, hclock, hmanager, hsince⟩ := hs.step_other
  have hpruned : UserManager.pruneFailures s.manager.failedAttempts 1 =
      s.manager.failedAttempts := by
    rw [UserManager.pruneFailures, if_neg]
    rw [hs.length]
    exact not_le.mpr hn
  have hmap : t.manager.failedAttempts =
      s.manager.failedAttempts.insert (otherEmail n) ⟨1, 1⟩ := by
    rw [hmanager]
    simp only [UserManager.recordFailure, hpruned, hs.fresh n le_rfl]
  refine ⟨t, ht, hclock.le, ?_, ?_, ?_, fun email fa hfa => ?_, fun i hi => ?_, hsince⟩
  · rw [hmanager]
    exact hs.index
  · have hnew : otherEmail n ∉ s.manager.failedAttempts := by
      rw [← AList.lookup_eq_none]
      exact hs.fresh n le_rfl
    rw [hmap, AList.entries_insert_of_notMem hnew, List.length_cons, hs.length]
  · rw [hmap, DashMap.lookup_insert, if_neg (otherEmail_ne_victim n).symm]
    exact hs.locked
  · rw [hmap, DashMap.lookup_insert] at hfa
    split at hfa
    next =>
      cases hfa
      exact .inr rfl
    next => exact hs.times email fa hfa
  · rw [hmap, DashMap.lookup_insert, if_neg fun h => absurd (otherEmail_inj h) (by omega)]
    exact hs.fresh i (by omega)

/-- The failures of the attacker fill the map. -/
theorem Filling.run {s : LockoutState} (hs : Filling 0 s) (n : ℕ)
    (hn : n < failedAttemptsMaxEntries) :
    ∃ t, (machine strictLib).Runs Machine.unrestricted s ((List.range n).map otherCall) t ∧
      Filling n t := by
  induction n with
  | zero => exact ⟨s, .nil s, hs⟩
  | succ n ih =>
      obtain ⟨t, hrun, ht⟩ := ih (Nat.lt_of_succ_lt hn)
      obtain ⟨u, hstep, hu⟩ := ht.next hn
      refine ⟨u, ?_, hu⟩
      rw [List.range_succ, List.map_append]
      exact hrun.append (.cons trivial hstep (.nil u))

/-- One more failure in a full map removes the lock. -/
theorem Filling.evicts {s : LockoutState} (hs : Filling (failedAttemptsMaxEntries - 1) s) :
    (s.manager.recordFailure 1 (otherEmail (failedAttemptsMaxEntries - 1))).failedAttempts.lookup
      victim = none := by
  have hlength : s.manager.failedAttempts.entries.length = failedAttemptsMaxEntries := hs.length
  let kept := s.manager.failedAttempts.retain fun _ fa => 1 - lockoutWindowSecs ≤ fa.firstFailureAt
  -- Nothing has expired.
  have hall : kept = s.manager.failedAttempts :=
    AList.ext (List.filter_eq_self.mpr fun _ _ => decide_eq_true (Nat.zero_le _))
  have hsome : (UserManager.oldestFailure kept).isSome := by
    rw [hall]
    exact UserManager.oldestFailure_isSome hs.locked (by decide)
  obtain ⟨key, hkey⟩ := Option.isSome_iff_exists.mp hsome
  have hvictim : key = victim := by
    obtain ⟨fa, hfa, holdest⟩ := UserManager.oldestFailure_some hkey
    rw [hall] at hfa holdest
    have hle : fa.firstFailureAt ≤ 0 :=
      holdest ⟨victim, ⟨10, 0⟩⟩ (AList.mem_lookup_iff.mp hs.locked)
    rcases hs.times key fa hfa with hvictim | hfirst
    · exact hvictim
    · omega
  have hpruned : UserManager.pruneFailures s.manager.failedAttempts 1 = kept.erase victim := by
    have hstill : failedAttemptsMaxEntries ≤ kept.entries.length := by rw [hall, hlength]
    unfold UserManager.pruneFailures
    dsimp only
    rw [if_pos hlength.ge, if_pos hstill, hkey, hvictim]
  rw [lookup_recordFailure, if_neg (otherEmail_ne_victim _).symm, hpruned, DashMap.lookup_erase,
    if_pos rfl]

/-- Failures for 10,000 other emails lift a lock. -/
theorem lockHeld_fails :
    ¬ ∀ (lib : UserLib) (m : UserManager) (calls : List AuthCall) (s : LockoutState),
      (machine lib).Runs Machine.unrestricted (initial m) calls s → s.LockHeld lib := by
  intro hall
  obtain ⟨s, hs, hclock, hindex, hentries, hsince⟩ : ∃ s,
      (machine strictLib).exec Machine.unrestricted (initial noUsers) tenFailures = some s ∧
        s.clock = 0 ∧ s.manager.emailIndex = ∅ ∧
        s.manager.failedAttempts.entries = [⟨victim, ⟨10, 0⟩⟩] ∧
        s.since victim = [⟨10, 0⟩] := by
    refine ⟨_, rfl, rfl, rfl, ?_, ?_⟩ <;> decide
  have honly : ∀ email fa, s.manager.failedAttempts.lookup email = some fa → email = victim := by
    intro email fa hfa
    have hmem := AList.mem_lookup_iff.mp hfa
    rw [hentries] at hmem
    cases List.mem_singleton.mp hmem
    rfl
  have hfilling : Filling 0 s :=
    { clock := by rw [hclock]; exact Nat.zero_le 1
      index := hindex
      length := by rw [hentries]; rfl
      locked := AList.mem_lookup_iff.mpr (by rw [hentries]; exact List.mem_singleton_self _)
      times := fun email fa hfa => .inl (honly email fa hfa)
      fresh := fun i _ => Option.eq_none_iff_forall_ne_some.mpr fun fa hfa =>
        otherEmail_ne_victim i (honly _ fa hfa)
      since := hsince }
  obtain ⟨t, hrun, ht⟩ := hfilling.run (failedAttemptsMaxEntries - 1) (by decide)
  obtain ⟨u, hstep, hclock, hmanager, hsince⟩ := ht.step_other
  have hheld := hall _ _ _ u ((Machine.runs_of_exec hs).append
    (hrun.append (.cons trivial hstep (.nil u))))
  have hlookup : u.manager.failedAttempts.lookup (normalizeEmail victim) = none := by
    rw [hmanager, show normalizeEmail victim = victim by decide]
    exact ht.evicts
  obtain ⟨retry, hlocked, -⟩ := hheld victim ⟨10, 0⟩ (by
    rw [show normalizeEmail victim = victim by decide, hsince]
    exact List.mem_singleton_self _) le_rfl 2 2 "" "guess" (by omega) (by decide)
  have hindex' : u.manager.emailIndex = ∅ := by
    rw [hmanager]
    exact ht.index
  rw [authenticate_unknown strictLib 2 2 "" "guess" hindex' hlookup] at hlocked
  cases hlocked

end LockoutState

end XiraNet

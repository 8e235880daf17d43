import XiraNet.Identity.Lockout
import XiraNet.Lib.AnchoredWindow

/-!
# The rate of failures

How many wrong passwords an email has room for. The failures for an email are counted from the
first one on, and the lock ends with the window of that first failure, so that two counts may fall
into one interval of the length of a window.

`failures_le_of_runs`: at most 19 failures in 900 seconds without a right password, as long as the
map of failed attempts is not full.
-/

namespace XiraNet

/-- An answered call. -/
structure AuthAnswer where
  call : AuthCall
  result : AuthResult
  /-- The password was checked and right. -/
  passwordOk : Bool
  deriving DecidableEq, Repr

/-- Whether a call was for an email, however it was written. -/
def AuthAnswer.isFor (email : String) (a : AuthAnswer) : Bool :=
  normalizeEmail a.call.email = normalizeEmail email

/-- A user store, the time of the last call and the answers, the last one first. -/
structure AuthLog where
  manager : UserManager
  clock : ℕ
  answers : List AuthAnswer

namespace AuthLog

/-- The `password_ok` of `authenticate`. No password is checked where a lock is found. -/
def passwordOk (lib : UserLib) (m : UserManager) (call : AuthCall) : Bool :=
  let email := normalizeEmail call.email
  (m.lockoutCheck call.now email).1.isNone &&
    ((m.emailIndex.lookup email).bind m.users.lookup).any fun user =>
      verifyPassword lib call.password user.passwordHash

/-- One call. -/
def step (lib : UserLib) (s : AuthLog) (call : AuthCall) : Option AuthLog :=
  if s.clock ≤ call.now ∧ call.now ≤ call.later then
    let answer := s.manager.authenticate lib call.now call.later call.token call.email call.password
    some ⟨answer.2, call.later, ⟨call, answer.1, passwordOk lib s.manager call⟩ :: s.answers⟩
  else none

/-- Calls to the user store, one after the other. -/
def machine (lib : UserLib) : Machine AuthLog AuthCall := ⟨step lib⟩

/-- A user store without failed attempts. -/
def initial (m : UserManager) : AuthLog := ⟨{ m with failedAttempts := ∅ }, 0, []⟩

/-- Fewer than 10,000 emails have an entry. -/
def FewEntries (s : AuthLog) (_ : AuthCall) : Prop :=
  s.manager.failedAttempts.entries.length < failedAttemptsMaxEntries

instance (s : AuthLog) (call : AuthCall) : Decidable (s.FewEntries call) :=
  inferInstanceAs (Decidable (_ < _))

open AnchoredWindow

/-- The entry of an email as a counter. -/
def counter (fa : FailedAttempt) : Counter := ⟨fa.count, fa.firstFailureAt⟩

/-- The counter of an email. -/
def counterOf (failedAttempts : DashMap String FailedAttempt) (email : String) : Option Counter :=
  (failedAttempts.lookup email).map counter

/-- What an answer is for the counter. -/
def outcome : AuthResult → Outcome
  | .invalidCredentials => .counted
  | .success _ _ | .mfaRequired _ => .cleared
  | .accountDisabled | .lockedOut _ => .ignored

/-- The events of an email, each at its instant. -/
def events (instant : AuthCall → ℕ) (email : String) (answers : List AuthAnswer) : List Event :=
  (answers.filter fun a => normalizeEmail a.call.email = email).map fun a =>
    ⟨instant a.call, outcome a.result⟩

/-- The entry of every email has the history of the answers for it, and an answer that clears it
followed on a right password. -/
structure Inv (instant : AuthCall → ℕ) (s : AuthLog) : Prop where
  history : ∀ email, History maxFailedAttempts lockoutWindowSecs s.clock
    (counterOf s.manager.failedAttempts email) (events instant email s.answers)
  cleared : ∀ a ∈ s.answers, outcome a.result = .cleared → a.passwordOk = true

/-- A lockout check drops only entries whose windows are over. -/
theorem passes_of_passesCheck {now : ℕ} {email : String}
    {before after : DashMap String FailedAttempt}
    (h : UserManager.PassesCheck now email before after) (key : String) :
    Passes lockoutWindowSecs now (counterOf before key) (counterOf after key) := by
  unfold counterOf
  cases hafter : after.lookup key with
  | some fa => exact .inl (by rw [h.sub key fa hafter])
  | none =>
      cases hbefore : before.lookup key with
      | none => exact .inl rfl
      | some fa =>
          refine .inr ⟨rfl, counter fa, rfl, ?_⟩
          by_contra hlive
          have hkept := h.keeps key fa hbefore (decide_eq_true (not_le.mp hlive))
          cases hafter.symm.trans hkept

/-- A failure is recorded in the entry of its email and in no other. -/
theorem lookup_recordFailure_of_few {m : UserManager} {later : ℕ} {email : String}
    (hfew : m.failedAttempts.entries.length < failedAttemptsMaxEntries) (key : String) :
    (m.recordFailure later email).failedAttempts.lookup key =
      if key = email then
        some (match m.failedAttempts.lookup email with
          | some fa => { fa with count := (fa.count + 1) % 2 ^ 32 }
          | none => ⟨1, later⟩)
      else m.failedAttempts.lookup key := by
  have hpruned : UserManager.pruneFailures m.failedAttempts later = m.failedAttempts :=
    if_neg (not_le.mpr hfew)
  have hlookup := LockoutState.lookup_recordFailure m later email key
  rw [hpruned] at hlookup
  exact hlookup

/-- What a recorded failure is for the counter of its email. -/
theorem effect_recordFailure {m : UserManager} {later : ℕ} {email : String}
    (hfew : m.failedAttempts.entries.length < failedAttemptsMaxEntries)
    (hbelow : ∀ fa, m.failedAttempts.lookup email = some fa → fa.count < maxFailedAttempts) :
    Effect maxFailedAttempts later (counterOf m.failedAttempts email) .counted
      (counterOf (m.recordFailure later email).failedAttempts email) := by
  unfold counterOf
  rw [lookup_recordFailure_of_few hfew, if_pos rfl]
  cases hlookup : m.failedAttempts.lookup email with
  | none => exact .start
  | some fa =>
      have hcount := hbelow fa hlookup
      have hlt : fa.count < 10 := hcount
      have hmod : (fa.count + 1) % 2 ^ 32 = fa.count + 1 := Nat.mod_eq_of_lt (by omega)
      -- Below the limit the counter does not overflow.
      dsimp only
      rw [hmod]
      exact .more hcount

/-- What a call does to the counter of its email. -/
theorem history_call {now later instant : ℕ} {email : String}
    {before after : DashMap String FailedAttempt} {result : AuthResult} {es : List Event}
    (hfailures : UserManager.AuthFailures now later email before result after)
    (hfew : before.entries.length < failedAttemptsMaxEntries) (hnow : now ≤ instant)
    (hlater : instant ≤ later)
    (h : History maxFailedAttempts lockoutWindowSecs now (counterOf before email) es) :
    History maxFailedAttempts lockoutWindowSecs later (counterOf after email)
      (⟨instant, outcome result⟩ :: es) := by
  have herased : ∀ failedAttempts : DashMap String FailedAttempt,
      counterOf (failedAttempts.erase email) email = none := by
    intro failedAttempts
    unfold counterOf
    rw [DashMap.lookup_erase, if_pos rfl]
    rfl
  cases hfailures with
  | locked _ _ _ _ => exact h.event hnow hlater (.ignored _)
  | failed m hpasses =>
      have hchecked := h.check le_rfl (passes_of_passesCheck hpasses email)
      exact hchecked.event hnow hlater
        (effect_recordFailure (hpasses.length.trans_lt hfew) hpasses.below)
  | disabled _ hpasses =>
      exact (h.check le_rfl (passes_of_passesCheck hpasses email)).event hnow hlater (.ignored _)
  | mfa _ _ _ =>
      rw [herased]
      exact h.event hnow hlater (.cleared _)
  | success _ _ _ _ =>
      rw [herased]
      exact h.event hnow hlater (.cleared _)

/-- What a call does to the counter of another email. -/
theorem history_other {now later : ℕ} {email other : String}
    {before after : DashMap String FailedAttempt} {result : AuthResult} {es : List Event}
    (hfailures : UserManager.AuthFailures now later email before result after)
    (hfew : before.entries.length < failedAttemptsMaxEntries) (hle : now ≤ later)
    (hne : other ≠ email)
    (h : History maxFailedAttempts lockoutWindowSecs now (counterOf before other) es) :
    History maxFailedAttempts lockoutWindowSecs later (counterOf after other) es := by
  have hchecked : ∀ {checked}, UserManager.PassesCheck now email before checked →
      History maxFailedAttempts lockoutWindowSecs later (counterOf checked other) es :=
    fun hpasses => (h.check le_rfl (passes_of_passesCheck hpasses other)).check hle (.inl rfl)
  have herased : ∀ failedAttempts : DashMap String FailedAttempt,
      counterOf (failedAttempts.erase email) other = counterOf failedAttempts other := by
    intro failedAttempts
    unfold counterOf
    rw [DashMap.lookup_erase, if_neg hne]
  cases hfailures with
  | locked _ _ _ _ => exact h.check hle (.inl rfl)
  | failed m hpasses =>
      have hsame : counterOf (m.recordFailure later email).failedAttempts other =
          counterOf m.failedAttempts other := by
        unfold counterOf
        rw [lookup_recordFailure_of_few (hpasses.length.trans_lt hfew), if_neg hne]
      rw [hsame]
      exact hchecked hpasses
  | disabled _ hpasses => exact hchecked hpasses
  | mfa _ _ hpasses =>
      rw [herased]
      exact hchecked hpasses
  | success _ _ _ hpasses =>
      rw [herased]
      exact hchecked hpasses

/-- A success, and a password that leaves only the second factor open, follow on a right
password. -/
theorem passwordOk_of_cleared {lib : UserLib} {m : UserManager} {call : AuthCall}
    (h : outcome (m.authenticate lib call.now call.later call.token call.email
      call.password).1 = .cleared) : passwordOk lib m call = true := by
  obtain ⟨husers, hindex⟩ := m.lockoutCheck_users call.now (normalizeEmail call.email)
  unfold UserManager.authenticate at h
  unfold passwordOk
  -- The check for a lock leaves the users alone, so both look the same one up.
  dsimp only at h ⊢
  rw [← husers, ← hindex]
  generalize m.lockoutCheck call.now (normalizeEmail call.email) = checked at h ⊢
  obtain ⟨_ | retry, m'⟩ := checked
  · dsimp only at h ⊢
    generalize (m'.emailIndex.lookup (normalizeEmail call.email)).bind m'.users.lookup = found
      at h ⊢
    cases found with
    | none => cases h
    | some user =>
        show verifyPassword lib call.password user.passwordHash = true
        dsimp only at h
        by_contra hwrong
        rw [Bool.not_eq_true] at hwrong
        rw [hwrong, Bool.not_false, if_pos rfl] at h
        split at h
        next => cases h
        next => cases h
  · cases h

/-- A call keeps the invariant. -/
theorem inv_step {lib : UserLib} {instant : AuthCall → ℕ}
    (hinstant : ∀ call : AuthCall, call.now ≤ call.later →
      call.now ≤ instant call ∧ instant call ≤ call.later)
    {s t : AuthLog} {call : AuthCall} (hs : s.Inv instant) (hfew : s.FewEntries call)
    (h : s.step lib call = some t) : t.Inv instant := by
  unfold step at h
  split at h
  next htimes =>
    cases h
    obtain ⟨hclock, hle⟩ := htimes
    have hfailures := s.manager.authFailures_authenticate lib call.now call.later call.token
      call.email call.password
    refine ⟨fun email => ?_, fun a ha => ?_⟩
    · have hhistory := (hs.history email).check hclock (.inl rfl)
      by_cases heq : normalizeEmail call.email = email
      · subst heq
        unfold events
        rw [List.filter_cons_of_pos (by simp), List.map_cons]
        exact history_call hfailures hfew (hinstant call hle).1 (hinstant call hle).2 hhistory
      · unfold events
        rw [List.filter_cons_of_neg (by simpa using heq)]
        exact history_other hfailures hfew hle (Ne.symm heq) hhistory
    · rcases List.mem_cons.mp ha with rfl | ha
      · exact passwordOk_of_cleared
      · exact hs.cleared a ha
  next => cases h

/-- Whatever instant between its two readings of the clock a call is taken to have: in a run that
never finds 10,000 entries, an email gets at most 19 answers of invalid credentials within a
half-open interval of 900 seconds without a right password. -/
theorem failures_le_of_runs {lib : UserLib} {m : UserManager} {calls : List AuthCall} {s : AuthLog}
    (hrun : (machine lib).Runs FewEntries (initial m) calls s) {instant : AuthCall → ℕ}
    (hinstant : ∀ call : AuthCall, call.now ≤ call.later →
      call.now ≤ instant call ∧ instant call ≤ call.later)
    (email : String) (start : ℕ)
    (hwrong : ∀ a ∈ s.answers, a.isFor email → start ≤ instant a.call →
      instant a.call < start + 900 → a.passwordOk = false) :
    (s.answers.countP fun a => a.isFor email ∧ a.result = .invalidCredentials ∧
      start ≤ instant a.call ∧ instant a.call < start + 900) ≤ 19 := by
  have hinv : s.Inv instant := hrun.invariant (I := Inv instant)
    (fun _ _ _ hs hok h => inv_step hinstant hs hok h)
    ⟨fun _ => .nil, fun _ ha => absurd ha List.not_mem_nil⟩
  -- Nothing clears the counter where no password is right.
  have hcleared : ∀ e ∈ events instant (normalizeEmail email) s.answers, start ≤ e.time →
      e.time < start + lockoutWindowSecs → e.outcome ≠ .cleared := by
    intro e he hstart hend hcleared
    obtain ⟨a, ha, rfl⟩ := List.mem_map.mp he
    obtain ⟨hmem, hfor⟩ := List.mem_filter.mp ha
    have hok := hinv.cleared a hmem hcleared
    rw [hwrong a hmem hfor hstart hend] at hok
    cases hok
  have hbound := (hinv.history (normalizeEmail email)).count_le (by decide) hcleared
  have hcounted : ∀ result, outcome result = .counted ↔ result = .invalidCredentials := by
    intro result
    cases result <;> simp [outcome]
  -- The events that were counted are the failures.
  unfold countedIn events at hbound
  rw [List.countP_map, List.countP_filter] at hbound
  refine le_trans (le_of_eq (List.countP_congr fun a _ => ?_)) hbound
  simp only [AuthAnswer.isFor, Function.comp_apply, hcounted, Bool.and_eq_true, decide_eq_true_eq]
  rw [show lockoutWindowSecs = 900 from rfl]
  tauto

/-- One failure, and twenty more after its window. -/
def burst : List AuthCall :=
  ⟨0, 0, "", "a@b.org", "guess"⟩ ::
    List.replicate 20 ⟨950, 950, "", " A@b.org", "guess"⟩

/-- The bound is met. -/
theorem failures_le_burst :
    ∃ s, (machine LockoutState.strictLib).Runs FewEntries (initial LockoutState.noUsers) burst s ∧
      (s.answers.countP fun a => a.isFor "A@B.org" ∧ a.result = .invalidCredentials ∧
        51 ≤ a.call.later ∧ a.call.later < 51 + 900) = 19 ∧
      (s.answers.countP fun a => a.isFor "A@B.org" ∧ a.result = .invalidCredentials ∧
        51 ≤ a.call.later ∧ a.call.later < 51 + 900) ≤ 19 := by
  have hend : ((machine LockoutState.strictLib).exec FewEntries
      (initial LockoutState.noUsers) burst).any fun s =>
        (s.answers.countP fun a => a.isFor "A@B.org" ∧
          a.result = .invalidCredentials ∧ 51 ≤ a.call.later ∧ a.call.later < 51 + 900) = 19 ∧
        ∀ a ∈ s.answers, a.passwordOk = false := by
    decide +kernel
  obtain ⟨s, hs, hboth⟩ := (Option.any_eq_true _ _).mp hend
  obtain ⟨hcount, hwrong⟩ := of_decide_eq_true hboth
  have hrun := Machine.runs_of_exec hs
  exact ⟨s, hrun, hcount, @failures_le_of_runs _ _ _ s hrun AuthCall.later
    (fun _ hle => ⟨hle, le_rfl⟩) _ 51 fun a ha _ _ _ => hwrong a ha⟩

end AuthLog

end XiraNet

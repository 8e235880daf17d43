import XiraNet.Identity.Accounts
import XiraNet.Identity.Authenticator

/-!
# Confirmed secrets

Whether the secret of a user with MFA was confirmed. A pending secret and an active one are kept in
the same field, and starting an enrollment replaces what is there.

* `mfaBound_throughout_iff`: every user with MFA has a confirmed secret throughout a run exactly if
  no enrollment is started for a user who has MFA already.
* `mfaBound_fails`: a second enrollment of such a user.
-/

namespace XiraNet

/-- A call to `verify_mfa_setup` that succeeded. -/
structure VerifyCall where
  now : ℕ
  userId : String
  code : String
  deriving DecidableEq, Repr

/-- A user store, with the confirmations that every user has made since its last secret was
generated. -/
structure MfaState where
  manager : UserManager
  verified : List VerifyCall

/-- The codes that complete a login. -/
def UserManager.CompletesLogin (lib : UserLib) (m : UserManager) (userId : String) (now : ℕ)
    (code : String) : Prop :=
  ∃ later token user token',
    (m.completeMfaLogin lib now later token userId code).1 = .success user token'

namespace MfaState

/-- The confirmations after a call. -/
def verifiedAfter (lib : UserLib) (s : MfaState) : UserAction → List VerifyCall
  | .startMfaEnrollment userId _ => s.verified.filter fun call => call.userId ≠ userId
  | .verifyMfaSetup now userId code =>
      if (s.manager.verifyMfaSetup lib now userId code).1 then ⟨now, userId, code⟩ :: s.verified
      else s.verified
  | _ => s.verified

/-- One call. -/
def step (lib : UserLib) (s : MfaState) (a : UserAction) : Option MfaState :=
  (s.manager.step lib a).map fun manager => ⟨manager, s.verifiedAfter lib a⟩

/-- Calls to the user store, one after the other. -/
def machine (lib : UserLib) : Machine MfaState UserAction := ⟨step lib⟩

/-- A store without users. -/
def initial (storage : Option (Table UserRow)) : MfaState :=
  ⟨⟨∅, ∅, storage, ∅, User.keyed_empty⟩, []⟩

/-- Every user with MFA has a secret, and has confirmed it with one of its codes since it was
generated. -/
def Bound (lib : UserLib) (s : MfaState) : Prop :=
  ∀ id user, s.manager.users.lookup id = some user → user.mfaEnabled = true →
    ∃ secret, user.mfaSecret = some secret ∧
      ∃ call ∈ s.verified, call.userId = id ∧
        verifyTotp lib.hmac call.now secret call.code = true

/-- An enrollment is started only for a user without MFA. -/
def EnrollsWhileOff (s : MfaState) (a : UserAction) : Prop :=
  match a with
  | .startMfaEnrollment userId _ =>
      ∀ user ∈ s.manager.users.lookup userId, user.mfaEnabled = false
  | _ => True

instance (s : MfaState) : (a : UserAction) → Decidable (s.EnrollsWhileOff a)
  | .startMfaEnrollment userId _ =>
      inferInstanceAs (Decidable (∀ user ∈ s.manager.users.lookup userId, user.mfaEnabled = false))
  | .register .. | .updateRole .. | .addPermission .. | .disableUser .. | .verifyMfaSetup ..
  | .disableMfa .. | .authenticate .. | .completeMfaLogin .. => .isTrue trivial

variable {lib : UserLib}

/-- The user that a call writes: without MFA, with the MFA it had, with a new secret, or
confirmed. -/
theorem written_cases {m : UserManager} {a : UserAction} {user : User}
    (h : m.written lib a = some user) :
    user.mfaEnabled = false ∨
      ∃ old, m.users.lookup user.id = some old ∧
        ((∀ userId secret, a ≠ .startMfaEnrollment userId secret) ∧
            user.mfaEnabled = old.mfaEnabled ∧ user.mfaSecret = old.mfaSecret ∨
          (∃ secret, a = .startMfaEnrollment user.id secret) ∧ user.mfaEnabled = old.mfaEnabled ∨
          ∃ now code secret, a = .verifyMfaSetup now user.id code ∧
            user.mfaSecret = some secret ∧ old.mfaSecret = some secret ∧
            verifyTotp lib.hmac now secret code = true) := by
  -- A user that is found is stored under its own id.
  have hown : ∀ {id : String} {old : User}, m.users.lookup id = some old →
      m.users.lookup old.id = some old := by
    intro id old hold
    rw [m.keyed id old hold]
    exact hold
  cases a with
  | register id now passwordHash email username role =>
      simp only [UserManager.written] at h
      split at h
      next => cases h
      next =>
        cases h
        exact .inl rfl
  | updateRole id role =>
      obtain ⟨old, hold, rfl⟩ := Option.map_eq_some_iff.mp h
      exact .inr ⟨old, hown hold, .inl ⟨by rintro _ _ ⟨⟩, rfl, rfl⟩⟩
  | addPermission id permission =>
      obtain ⟨old, hold, rfl⟩ := Option.map_eq_some_iff.mp h
      exact .inr ⟨old, hown hold, .inl ⟨by rintro _ _ ⟨⟩, rfl, rfl⟩⟩
  | disableUser id =>
      obtain ⟨old, hold, rfl⟩ := Option.map_eq_some_iff.mp h
      exact .inr ⟨old, hown hold, .inl ⟨by rintro _ _ ⟨⟩, rfl, rfl⟩⟩
  | startMfaEnrollment userId secret =>
      obtain ⟨old, hold, rfl⟩ := Option.map_eq_some_iff.mp h
      have hid : old.id = userId := m.keyed userId old hold
      exact .inr ⟨old, hown hold, .inr (.inl ⟨⟨secret, by rw [hid]⟩, rfl⟩)⟩
  | verifyMfaSetup now userId code =>
      obtain ⟨old, hold, hwritten⟩ := Option.bind_eq_some_iff.mp h
      split at hwritten
      next hcode =>
        cases hwritten
        obtain ⟨secret, hsecret, hcode⟩ := hcode
        have hid : old.id = userId := m.keyed userId old hold
        exact .inr ⟨old, hown hold, .inr (.inr ⟨now, code, secret, by rw [hid], hsecret, hsecret,
          hcode⟩)⟩
      next => cases hwritten
  | disableMfa userId =>
      obtain ⟨old, -, rfl⟩ := Option.map_eq_some_iff.mp h
      exact .inl rfl
  | authenticate now later token email password =>
      simp only [UserManager.written] at h
      split at h
      next hres =>
        cases h
        obtain ⟨old, -, -, hmfa, -, rfl⟩ := UserManager.authenticate_success hres
        exact .inl hmfa
      next => cases h
  | completeMfaLogin now later token userId code =>
      simp only [UserManager.written] at h
      split at h
      next hres =>
        cases h
        obtain ⟨old, _, hold, -, -, -, -, rfl⟩ := UserManager.completeMfaLogin_success hres
        exact .inr ⟨old, hold, .inl ⟨by rintro _ _ ⟨⟩, rfl, rfl⟩⟩
      next => cases h

/-- Only the user that a call writes changes. -/
theorem lookup_users_step {m m' : UserManager} {a : UserAction} (h : m.step lib a = some m')
    (id : String) :
    m'.users.lookup id = m.users.lookup id ∧ (∀ user, m.written lib a = some user → user.id ≠ id) ∨
      ∃ user, m.written lib a = some user ∧ user.id = id ∧ m'.users.lookup id = some user := by
  rcases UserManager.step_cases h with ⟨hnone, hsame⟩ | ⟨user, hwritten, hcase⟩
  · rw [hsame.users, hnone]
    exact .inl ⟨rfl, by rintro _ ⟨⟩⟩
  · have husers : m'.users = m.users.insert user.id user := by
      rcases hcase with hcase | hcase
      · exact hcase.users
      · exact hcase.users
    rw [husers, DashMap.lookup_insert, hwritten]
    split
    next heq => exact .inr ⟨user, rfl, heq.symm, rfl⟩
    next hne =>
      refine .inl ⟨rfl, ?_⟩
      rintro _ ⟨⟩
      exact Ne.symm hne

/-- A confirmation is kept unless a secret is generated for its user. -/
theorem mem_verifiedAfter {s : MfaState} {a : UserAction} {call : VerifyCall}
    (hcall : call ∈ s.verified) (h : ∀ secret, a ≠ .startMfaEnrollment call.userId secret) :
    call ∈ s.verifiedAfter lib a := by
  unfold verifiedAfter
  split
  next userId secret =>
    refine List.mem_filter.mpr ⟨hcall, decide_eq_true fun heq => ?_⟩
    exact h secret (by rw [heq])
  next =>
    split
    next => exact List.mem_cons_of_mem _ hcall
    next => exact hcall
  next => exact hcall

/-- A step that starts no enrollment for a user with MFA keeps every secret confirmed. -/
theorem bound_step {s t : MfaState} {a : UserAction} (hs : s.Bound lib)
    (hok : s.EnrollsWhileOff a) (h : s.step lib a = some t) : t.Bound lib := by
  obtain ⟨m', hm', rfl⟩ := Option.map_eq_some_iff.mp h
  intro id user hlookup hmfa
  dsimp only at hlookup ⊢
  rcases lookup_users_step hm' id with ⟨hsame, hnot⟩ | ⟨user', hwritten, hid, hnew⟩
  · rw [hsame] at hlookup
    obtain ⟨secret, hsecret, call, hcall, hcallid, hcode⟩ := hs id user hlookup hmfa
    refine ⟨secret, hsecret, call, mem_verifiedAfter hcall fun secret' heq => ?_, hcallid, hcode⟩
    -- The enrollment would have written the user.
    refine hnot { user with mfaSecret := some secret' } ?_ (s.manager.keyed id user hlookup)
    rw [heq, hcallid]
    simp only [UserManager.written, hlookup, Option.map_some]
  · cases hlookup.symm.trans hnew
    rcases written_cases hwritten with hoff | ⟨old, hold, hcase⟩
    · rw [hmfa] at hoff
      cases hoff
    rw [hid] at hold
    rcases hcase with ⟨hother, hflag, hsecret⟩ | ⟨⟨secret, heq⟩, hflag⟩ |
      ⟨now, code, secret, heq, hsecret, hold', hcode⟩
    · obtain ⟨secret, hsecret', call, hcall, hcallid, hcode⟩ := hs id old hold (hflag ▸ hmfa)
      exact ⟨secret, hsecret.trans hsecret', call,
        mem_verifiedAfter hcall fun secret' => hother _ secret', hcallid, hcode⟩
    · subst heq
      have hoff := hok old (hid ▸ hold)
      rw [← hflag, hmfa] at hoff
      cases hoff
    · subst heq
      refine ⟨secret, hsecret, ⟨now, user.id, code⟩, ?_, hid, hcode⟩
      have hresult : (s.manager.verifyMfaSetup lib now user.id code).1 = true := by
        rw [hid]
        simp only [UserManager.verifyMfaSetup, hold, hold', hcode, Bool.not_true,
          Bool.false_eq_true, if_false]
      simp only [verifiedAfter, hresult, if_true, List.mem_cons, true_or]

/-- An enrollment of a user with MFA leaves a secret that is not confirmed. -/
theorem not_bound_of_step {s t : MfaState} {a : UserAction} (hbad : ¬ s.EnrollsWhileOff a)
    (h : s.step lib a = some t) : ¬ t.Bound lib := by
  obtain ⟨m', hm', rfl⟩ := Option.map_eq_some_iff.mp h
  unfold EnrollsWhileOff at hbad
  split at hbad
  next userId secret =>
    push Not at hbad
    obtain ⟨user, hlookup, hmfa⟩ := hbad
    intro hbound
    have hlookup' : s.manager.users.lookup userId = some user := hlookup
    rcases lookup_users_step hm' userId with ⟨-, hnot⟩ | ⟨user', hwritten, -, hnew⟩
    · refine hnot { user with mfaSecret := some secret } ?_ (s.manager.keyed userId user hlookup')
      simp only [UserManager.written, hlookup', Option.map_some]
    · simp only [UserManager.written, hlookup', Option.map_some, Option.some.injEq] at hwritten
      subst hwritten
      obtain ⟨_, -, call, hcall, hcallid, -⟩ := hbound userId _ hnew (by simpa using hmfa)
      simp only [verifiedAfter, List.mem_filter, decide_eq_true_eq] at hcall
      exact hcall.2 hcallid
  next => exact absurd trivial hbad

/-- The codes that complete a login are those of the secret of an enabled user with MFA. -/
theorem completesLogin_iff (m : UserManager) (userId : String) (now : ℕ) (code : String) :
    m.CompletesLogin lib userId now code ↔
      ∃ user secret, m.users.lookup userId = some user ∧ user.enabled = true ∧
        user.mfaEnabled = true ∧ user.mfaSecret = some secret ∧
        verifyTotp lib.hmac now secret code = true := by
  constructor
  · rintro ⟨later, token, user, token', hres⟩
    rcases m.completeMfaLogin_cases lib now later token userId code with
      ⟨-, hnot, -⟩ | ⟨user, secret, hlookup, henabled, hmfa, hsecret, hcode, -⟩
    · exact absurd hres (hnot user token')
    · exact ⟨user, secret, hlookup, henabled, hmfa, hsecret, hcode⟩
  · intro hcode
    rcases m.completeMfaLogin_cases lib now 0 "" userId code with
      ⟨-, -, hnot⟩ | ⟨user, secret, -, -, -, -, -, hres⟩
    · exact absurd hcode hnot
    · exact ⟨0, "", user.loggedIn 0, "", by rw [hres]⟩

/-- Starting an enrollment for a user without MFA changes for nobody which codes complete a
login. -/
theorem completesLogin_start {s t : MfaState} {userId secret : String}
    (hok : s.EnrollsWhileOff (.startMfaEnrollment userId secret))
    (h : s.step lib (.startMfaEnrollment userId secret) = some t) (id : String) (now : ℕ)
    (code : String) :
    t.manager.CompletesLogin lib id now code ↔ s.manager.CompletesLogin lib id now code := by
  obtain ⟨m', hm', rfl⟩ := Option.map_eq_some_iff.mp h
  rw [completesLogin_iff, completesLogin_iff]
  dsimp only
  rcases lookup_users_step hm' id with ⟨hsame, -⟩ | ⟨user, hwritten, hid, hnew⟩
  · rw [hsame]
  · rw [hnew]
    obtain ⟨old, hold, rfl⟩ := Option.map_eq_some_iff.mp hwritten
    have holdid : old.id = userId := s.manager.keyed userId old hold
    have hoff : old.mfaEnabled = false := hok old hold
    have hlookup : s.manager.users.lookup id = some old := by
      rw [← hid, holdid]
      exact hold
    rw [hlookup]
    simp [hoff]

/-- Throughout a run every user with MFA has a confirmed secret exactly if no enrollment is started
for a user who has MFA; and where that is so, an enrollment does not change which codes complete a
login. -/
theorem mfaBound_throughout_iff (lib : UserLib) (storage : Option (Table UserRow))
    (as : List UserAction) (s : MfaState)
    (hrun : (machine lib).Runs Machine.unrestricted (initial storage) as s) :
    ((machine lib).Throughout (Bound lib) (initial storage) as ↔
        (machine lib).Runs EnrollsWhileOff (initial storage) as s) ∧
      ∀ userId secret t, s.EnrollsWhileOff (.startMfaEnrollment userId secret) →
        s.step lib (.startMfaEnrollment userId secret) = some t → ∀ id now code,
          t.manager.CompletesLogin lib id now code ↔ s.manager.CompletesLogin lib id now code :=
  ⟨hrun.throughout_iff (I := Bound lib) (fun _ hs => hs) (fun _ _ _ hs hok h => bound_step hs hok h)
      (fun _ _ _ _ hbad h => not_bound_of_step hbad h) (by simp [Bound, initial]),
    fun _ _ _ hok h => completesLogin_start hok h⟩

open AuthHistory (simpleLib)

/-- A user enrolls, gives the second factor up and enrolls again. -/
def enrollingTwice : List UserAction :=
  [.register "u" 1000 "$argon2id$" "user@example.org" "User" .viewer,
    .startMfaEnrollment "u" "AAAAAAAA", .verifyMfaSetup 1001 "u" "000000",
    .completeMfaLogin 1002 1003 "xira_tok_1" "u" "000000", .disableMfa "u",
    .startMfaEnrollment "u" "BBBBBBBB", .verifyMfaSetup 1004 "u" "000000"]

/-- The secrets of that user are confirmed. -/
theorem mfaBound_enrollingTwice :
    (machine simpleLib).Throughout (Bound simpleLib) (initial none) enrollingTwice := by
  obtain ⟨s, hs⟩ : ∃ s, (machine simpleLib).exec EnrollsWhileOff (initial none) enrollingTwice =
      some s := Option.isSome_iff_exists.mp (by decide +kernel)
  have hok := Machine.runs_of_exec hs
  have hrun := hok.mono fun _ _ _ => (trivial : Machine.unrestricted _ _)
  exact (mfaBound_throughout_iff simpleLib none enrollingTwice s hrun).1.mpr hok

/-- A second enrollment replaces a confirmed secret. -/
theorem mfaBound_fails :
    ¬ ∀ (lib : UserLib) (storage : Option (Table UserRow)) (as : List UserAction) (s : MfaState),
      (machine lib).Runs Machine.unrestricted (initial storage) as s → s.Bound lib := by
  intro hall
  obtain ⟨s, hs, user, huser, hmfa, hverified⟩ : ∃ s,
      (machine simpleLib).exec Machine.unrestricted (initial none)
        [.register "u" 1000 "$argon2id$" "user@example.org" "User" .viewer,
          .startMfaEnrollment "u" "AAAAAAAA", .verifyMfaSetup 1001 "u" "000000",
          .startMfaEnrollment "u" "BBBBBBBB"] = some s ∧
      ∃ user, s.manager.users.lookup "u" = some user ∧ user.mfaEnabled = true ∧
        s.verified = [] := by
    refine ⟨_, rfl, _, rfl, ?_, ?_⟩ <;> decide +kernel
  obtain ⟨_, -, call, hcall, -⟩ := hall _ _ _ s (Machine.runs_of_exec hs) "u" user huser hmfa
  rw [hverified] at hcall
  cases hcall

end MfaState

end XiraNet

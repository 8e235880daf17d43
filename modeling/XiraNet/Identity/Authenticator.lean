import XiraNet.Identity.Sessions
import XiraNet.Identity.Users
import XiraNet.Lib.Runs

/-!
# Authenticator

The façade of `identity/authenticator.rs` over the user store and the session store, and the
runs of its two requests, which arbitrary clients send with arbitrary arguments.

* `twoFactor_iff`: a session of a user with MFA is always backed by an earlier `MfaRequired`
  answer of its own exactly if no user could pass the second step at all.
* `twoFactor_fails`: the second step on its own opens a session.
-/

namespace XiraNet

/-- The user store, the session store and the lifetime of a session. -/
structure Authenticator where
  users : UserManager
  sessions : SessionManager
  sessionTtlSecs : ℕ

/-- The outcome of a request. -/
inductive AuthOutcome
  | success (userId email : String) (session : Session)
  | mfaRequired (userId : String)
  | accountDisabled
  | lockedOut (retryAfterSecs : ℕ)
  | invalidCredentials
  deriving DecidableEq, Repr

/-- A request of a client, with the clock readings of its steps and the token that is drawn if it
succeeds. -/
inductive AuthRequest
  | login (now later : ℕ) (token email password ip userAgent : String)
  /-- The handler `mfa_login`, which passes on what the client sends. -/
  | mfaLogin (now later : ℕ) (token userId code ip userAgent : String)
  deriving DecidableEq, Repr

namespace Authenticator

variable (lib : UserLib) (hashToken : String → String)

/-- Open the session of an authenticated user. -/
def openSession (a : Authenticator) (later : ℕ) (user : User) (token ip userAgent : String) :
    AuthOutcome × Authenticator :=
  let (session, sessions) :=
    a.sessions.create hashToken later later user.id token ip userAgent a.sessionTtlSecs
  (.success user.id user.email session, { a with sessions })

/-- `login`. -/
def login (a : Authenticator) (now later : ℕ) (token email password ip userAgent : String) :
    AuthOutcome × Authenticator :=
  let (result, users) := a.users.authenticate lib now later token email password
  let a := { a with users }
  match result with
  | .success user token => a.openSession hashToken later user token ip userAgent
  | .mfaRequired userId => (.mfaRequired userId, a)
  | .accountDisabled => (.accountDisabled, a)
  | .lockedOut retryAfterSecs => (.lockedOut retryAfterSecs, a)
  | .invalidCredentials => (.invalidCredentials, a)

/-- `complete_mfa`. -/
def completeMfa (a : Authenticator) (now later : ℕ) (token userId code ip userAgent : String) :
    AuthOutcome × Authenticator :=
  let (result, users) := a.users.completeMfaLogin lib now later token userId code
  let a := { a with users }
  match result with
  | .success user token => a.openSession hashToken later user token ip userAgent
  | .accountDisabled => (.accountDisabled, a)
  -- `complete_mfa_login` answers nothing else.
  | _ => (.invalidCredentials, a)

/-- A request. -/
def handle (a : Authenticator) : AuthRequest → AuthOutcome × Authenticator
  | .login now later token email password ip userAgent =>
      a.login lib hashToken now later token email password ip userAgent
  | .mfaLogin now later token userId code ip userAgent =>
      a.completeMfa lib hashToken now later token userId code ip userAgent

end Authenticator

/-- An authenticator and the outcomes of its requests so far. -/
structure AuthHistory where
  authenticator : Authenticator
  /-- The users for whom a `login` was answered with `MfaRequired`, once for each answer. -/
  challenges : List String
  /-- The users with MFA for whom a session was opened, once for each session. -/
  mfaSessions : List String

namespace AuthHistory

variable (lib : UserLib) (hashToken : String → String)

/-- Note the outcome of a request. -/
def note (s : AuthHistory) : AuthOutcome → AuthHistory
  | .mfaRequired userId => { s with challenges := userId :: s.challenges }
  -- Whether MFA is enabled is read before the request, which does not change it.
  | .success userId _ _ =>
      if (s.authenticator.users.access userId).any (·.mfaEnabled) then
        { s with mfaSessions := userId :: s.mfaSessions }
      else s
  | _ => s

/-- One request. -/
def step (s : AuthHistory) (r : AuthRequest) : Option AuthHistory :=
  let (outcome, authenticator) := s.authenticator.handle lib hashToken r
  some { s.note outcome with authenticator }

/-- Every run of requests. -/
def machine : Machine AuthHistory AuthRequest := ⟨step lib hashToken⟩

/-- No request has been made yet. -/
def initial (authenticator : Authenticator) : AuthHistory where
  authenticator
  challenges := []
  mfaSessions := []

/-- Every session of a user with MFA has an earlier `MfaRequired` answer for itself. Such an
answer is only given to the user's password, see `handle_mfaRequired`. -/
def TwoFactor (s : AuthHistory) : Prop :=
  ∀ userId, s.mfaSessions.count userId ≤ s.challenges.count userId

/-- No user could pass the second step: no enabled user with MFA has a secret that decodes. -/
def NoSecondStep (m : UserManager) : Prop :=
  ∀ id, ∀ access ∈ m.access id, access.enabled = true → access.mfaEnabled = true →
    ∀ secret ∈ access.mfaSecret, base32Decode secret = none

/-- A request changes nobody's access. -/
theorem access_handle (a : Authenticator) (r : AuthRequest) (id : String) :
    (a.handle lib hashToken r).2.users.access id = a.users.access id := by
  cases r with
  | login now later token email password ip userAgent =>
      have haccess := a.users.access_authenticate lib now later token email password id
      simp only [Authenticator.handle, Authenticator.login]
      split <;> exact haccess
  | mfaLogin now later token userId code ip userAgent =>
      have haccess := a.users.access_completeMfaLogin lib now later token userId code id
      simp only [Authenticator.handle, Authenticator.completeMfa]
      split <;> exact haccess

variable {lib hashToken}

/-- `MfaRequired` is only answered to a `login` with the password of an enabled user with MFA. -/
theorem handle_mfaRequired {a : Authenticator} {r : AuthRequest} {userId : String}
    (h : (a.handle lib hashToken r).1 = .mfaRequired userId) :
    ∃ now later token email password ip userAgent,
      r = .login now later token email password ip userAgent ∧
        ∃ user, a.users.users.lookup userId = some user ∧ user.enabled = true ∧
          user.mfaEnabled = true ∧ verifyPassword lib password user.passwordHash = true := by
  cases r with
  | login now later token email password ip userAgent =>
      simp only [Authenticator.handle, Authenticator.login] at h
      split at h
      next => cases h
      next userId' hrequired =>
        cases h
        exact ⟨now, later, token, email, password, ip, userAgent, rfl,
          UserManager.authenticate_mfaRequired hrequired⟩
      all_goals cases h
  | mfaLogin now later token userId' code ip userAgent =>
      -- The second step answers with a session, a disabled account or invalid credentials.
      simp only [Authenticator.handle, Authenticator.completeMfa] at h
      split at h
      all_goals cases h

/-- A session is opened for a user with MFA only through the second step. -/
theorem handle_success {a : Authenticator} (hnone : NoSecondStep a.users) {r : AuthRequest}
    {userId email : String} {session : Session}
    (h : (a.handle lib hashToken r).1 = .success userId email session) :
    (a.users.access userId).any (·.mfaEnabled) = false := by
  cases r with
  | login now later token email' password ip userAgent =>
      simp only [Authenticator.handle, Authenticator.login] at h
      split at h
      next user token' hsuccess =>
        cases h
        obtain ⟨old, hlookup, -, hmfa, -⟩ := UserManager.authenticate_success hsuccess
        simp [UserManager.access, hlookup, User.access, hmfa]
      all_goals cases h
  | mfaLogin now later token userId' code ip userAgent =>
      simp only [Authenticator.handle, Authenticator.completeMfa] at h
      split at h
      next user token' hsuccess =>
        obtain ⟨old, secret, hlookup, henabled, hmfa, hsecret, hcode, -⟩ :=
          UserManager.completeMfaLogin_success hsuccess
        -- The code was checked against a secret that does not decode, which fails.
        have hdecode := hnone user.id old.access (by simp [UserManager.access, hlookup]) henabled
          hmfa secret hsecret
        simp [verifyTotp, hdecode] at hcode
      all_goals cases h

/-- If nobody can pass the second step, no session is opened for a user with MFA. -/
theorem noSession_step (s : AuthHistory) (r : AuthRequest) (s' : AuthHistory)
    (hs : NoSecondStep s.authenticator.users ∧ s.mfaSessions = [])
    (_ : Machine.unrestricted s r) (h : s.step lib hashToken r = some s') :
    NoSecondStep s'.authenticator.users ∧ s'.mfaSessions = [] := by
  obtain ⟨hnone, hsessions⟩ := hs
  obtain rfl := Option.some.inj h
  refine ⟨fun id access haccess => ?_, ?_⟩
  · have hsame := access_handle lib hashToken s.authenticator r id
    exact hnone id access (hsame ▸ haccess)
  · unfold note
    split
    next => exact hsessions
    next userId email session hsuccess =>
      rw [handle_success hnone hsuccess]
      exact hsessions
    next => exact hsessions

/-- Two factors are required, in every run of requests, exactly of the user stores in which
nobody could pass the second step at all: whoever can needs no first step. -/
theorem twoFactor_iff (lib : UserLib) (hashToken : String → String) (a : Authenticator) :
    (∀ rs s, (machine lib hashToken).Runs Machine.unrestricted (initial a) rs s → s.TwoFactor) ↔
      NoSecondStep a.users := by
  constructor
  · intro hall id access haccess henabled hmfa secret hsecret
    rw [← Option.not_isSome_iff_eq_none]
    intro hdecodes
    obtain ⟨user, hlookup, rfl⟩ := Option.map_eq_some_iff.mp haccess
    obtain ⟨code, hcode⟩ := (exists_verifyTotp lib.hmac 0 secret).mpr hdecodes
    -- A single request for the second step, with the right code.
    have hres := (a.users.completeMfaLogin_cases lib 0 0 "" id code).resolve_left fun hfail =>
      hfail.2.2 ⟨user, secret, hlookup, henabled, hmfa, hsecret, hcode⟩
    obtain ⟨old, -, hold, -, -, -, -, hres⟩ := hres
    obtain rfl : user = old := Option.some.inj (hlookup.symm.trans hold)
    have hid := a.users.keyed id user hlookup
    obtain ⟨session, a', hhandle⟩ : ∃ session a',
        a.handle lib hashToken (.mfaLogin 0 0 "" id code "" "") =
          (.success id user.email session, a') := by
      simp only [Authenticator.handle, Authenticator.completeMfa, hres, Authenticator.openSession,
        User.loggedIn, hid]
      exact ⟨_, _, rfl⟩
    have hs : (machine lib hashToken).step (initial a) (.mfaLogin 0 0 "" id code "" "") =
        some ⟨a', [], [id]⟩ := by
      have hmfa' : user.mfaEnabled = true := hmfa
      simp only [machine, step, initial]
      rw [hhandle]
      simp [note, UserManager.access, hlookup, User.access, hmfa']
    have hcount := hall _ _ (.cons trivial hs (.nil _)) id
    simp at hcount
  -- Nobody gets past the code, so no session of a user with MFA is ever opened.
  · intro hnone rs s hrun userId
    have hinv := hrun.invariant noSession_step ⟨hnone, rfl⟩
    rw [hinv.2]
    exact Nat.zero_le _

/-- A library in which every password is right, for concrete runs. -/
def simpleLib : UserLib where
  verifyArgon2 _ _ := true
  hmac _ _ _ := 0
  debugString s := s
  permissionsJson _ := "[]"
  encryptMfaSecret s := s

/-- One user with MFA and the secret `"AAAAAAAA"`. -/
def mfaUser : UserManager where
  users := (∅ : DashMap String User).insert "u" ⟨"u", "u@example.org", "u", "$argon2id$", .viewer,
    [], 0, 0, 0, true, true, some "AAAAAAAA"⟩
  emailIndex := (∅ : DashMap String String).insert "u@example.org" "u"
  storage := none
  failedAttempts := ∅
  keyed := by
    intro id user huser
    rcases DashMap.lookup_insert_cases huser with ⟨rfl, rfl⟩ | ⟨-, hnone⟩
    · rfl
    · exact nomatch hnone

/-- The claim fails: the second step opens a session for a user with MFA although no request
presented a password. -/
theorem twoFactor_fails :
    ¬ ∀ (lib : UserLib) (hashToken : String → String) (a : Authenticator) (rs : List AuthRequest)
      (s : AuthHistory),
      (machine lib hashToken).Runs Machine.unrestricted (initial a) rs s → s.TwoFactor := by
  intro hall
  have hend : ∃ s, (machine simpleLib id).exec Machine.unrestricted
      (initial ⟨mfaUser, .new 5, 86400⟩)
      [.mfaLogin 1000 1000 "xira_tok_1" "u" "000000" "10.0.0.1" "curl"] = some s ∧
        s.mfaSessions = ["u"] ∧ s.challenges = [] := by
    refine ⟨_, rfl, ?_, ?_⟩ <;> decide
  obtain ⟨s, hs, hopened, hchallenges⟩ := hend
  have hcount := hall _ _ _ _ s (Machine.runs_of_exec hs) "u"
  rw [hopened, hchallenges] at hcount
  exact absurd hcount (by decide)

end AuthHistory

end XiraNet

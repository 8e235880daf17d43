import XiraNet.Identity.Mfa
import XiraNet.Lib.DashMap
import XiraNet.Lib.Table

/-!
# User store

The parts of `identity/users.rs` that authenticate a user and disable one. A user is held under
the lock of its entry while it is authenticated, so an authentication is one step.

Argon2, the secret box, JSON and the `Debug` form of a string come from other crates and the
standard library; `UserLib` collects them. Metrics, log lines and the user's metadata, which no
function here reads, are left out.

* `UserManager.keyed`: a user is stored under its own id.
* `access_authenticate`, `access_completeMfaLogin`: authentication does not change who may log in.
-/

namespace XiraNet

/-- The roles. -/
inductive UserRole
  | superAdmin
  | admin
  | developer
  | viewer
  | service
  | custom (name : String)
  deriving DecidableEq, Repr

/-- A user. -/
structure User where
  id : String
  email : String
  username : String
  passwordHash : String
  role : UserRole
  permissions : List String
  createdAt : ℕ
  lastLogin : ℕ
  loginCount : ℕ
  enabled : Bool
  mfaEnabled : Bool
  mfaSecret : Option String
  deriving DecidableEq, Repr

/-- A row of the table `identity_users`. -/
structure UserRow where
  id : String
  email : String
  username : String
  passwordHash : String
  role : String
  permissions : String
  createdAt : ℤ
  lastLogin : ℤ
  loginCount : ℤ
  enabled : ℤ
  mfaEnabled : ℤ
  mfaSecret : Option String
  deriving DecidableEq, Repr

/-- The failed attempts for an email. -/
structure FailedAttempt where
  count : ℕ
  firstFailureAt : ℕ
  deriving DecidableEq, Repr

/-- The outcome of an authentication. -/
inductive AuthResult
  | success (user : User) (token : String)
  | invalidCredentials
  | accountDisabled
  | mfaRequired (userId : String)
  | lockedOut (retryAfterSecs : ℕ)
  deriving DecidableEq, Repr

/-- What the user store takes from elsewhere. -/
structure UserLib where
  /-- Argon2 verification of a password against a stored hash, for a hash that starts with
  `$argon2`. -/
  verifyArgon2 : String → String → Bool
  hmac : HmacSha1
  /-- `format!("{:?}", s)`. -/
  debugString : String → String
  /-- `serde_json::to_string` of a list of strings. -/
  permissionsJson : List String → String
  /-- `encrypt_mfa_secret` with the secret box that is configured. -/
  encryptMfaSecret : String → String

/-- `MAX_FAILED_ATTEMPTS`. -/
def maxFailedAttempts : ℕ := 10

/-- `LOCKOUT_WINDOW_SECS`. -/
def lockoutWindowSecs : ℕ := 900

/-- `FAILED_ATTEMPTS_MAX_ENTRIES`. -/
def failedAttemptsMaxEntries : ℕ := 10000

/-- `normalize_email`. -/
def normalizeEmail (email : String) : String := Text.toAsciiLowercase (Text.trim email)

/-- `verify_password`. -/
def verifyPassword (lib : UserLib) (password stored : String) : Bool :=
  Text.startsWith stored "$argon2" && lib.verifyArgon2 password stored

/-- The `Debug` form of a role. -/
def UserRole.debug (lib : UserLib) : UserRole → String
  | .superAdmin => "SuperAdmin"
  | .admin => "Admin"
  | .developer => "Developer"
  | .viewer => "Viewer"
  | .service => "Service"
  | .custom name => "Custom(" ++ lib.debugString name ++ ")"

/-- The row that `persist_user` writes. -/
def User.toRow (lib : UserLib) (user : User) : UserRow where
  id := user.id
  email := user.email
  username := user.username
  passwordHash := user.passwordHash
  role := user.role.debug lib
  permissions := lib.permissionsJson user.permissions
  createdAt := asI64 user.createdAt
  lastLogin := asI64 user.lastLogin
  loginCount := asI64 user.loginCount
  enabled := if user.enabled then 1 else 0
  mfaEnabled := if user.mfaEnabled then 1 else 0
  mfaSecret := user.mfaSecret.map lib.encryptMfaSecret

/-- What decides whether a user may log in. -/
structure UserAccess where
  enabled : Bool
  mfaEnabled : Bool
  mfaSecret : Option String
  deriving DecidableEq, Repr

/-- What decides whether this user may log in. -/
def User.access (user : User) : UserAccess where
  enabled := user.enabled
  mfaEnabled := user.mfaEnabled
  mfaSecret := user.mfaSecret

/-- A successful authentication is noted in the user. -/
def User.loggedIn (user : User) (now : ℕ) : User :=
  { user with lastLogin := now, loginCount := wrappingAdd user.loginCount 1 }

/-- Without users, every user is stored under its own id. -/
theorem User.keyed_empty :
    ∀ id user, (∅ : DashMap String User).lookup id = some user → user.id = id := by
  simp

/-- The user store. -/
structure UserManager where
  users : DashMap String User
  /-- Normalized email to user id. -/
  emailIndex : DashMap String String
  storage : Option (Table UserRow)
  failedAttempts : DashMap String FailedAttempt
  /-- Every user is stored under its own id. -/
  keyed : ∀ id user, users.lookup id = some user → user.id = id

namespace UserManager

/-- Replace the user found under an id by one with the same id. -/
def store (m : UserManager) (user : User) : UserManager :=
  { m with
    users := m.users.insert user.id user
    keyed := DashMap.keyed_insert m.keyed user }

/-- `persist_user`. A row with the id or the email of the user is replaced. -/
def persistUser (lib : UserLib) (m : UserManager) (user : User) : UserManager :=
  { m with
    storage := m.storage.map
      (·.insertOrReplace (fun r r' => r.id = r'.id || r.email = r'.email) (user.toRow lib)) }

/-- `lockout_check`: the seconds to wait, if the email is locked. -/
def lockoutCheck (m : UserManager) (now : ℕ) (email : String) : Option ℕ × UserManager :=
  match m.failedAttempts.lookup email with
  | none => (none, m)
  | some entry =>
      if entry.count < maxFailedAttempts then (none, m)
      -- The window is over: the entry is dropped and counting starts afresh.
      else if lockoutWindowSecs ≤ now - entry.firstFailureAt then
        (none, { m with failedAttempts := m.failedAttempts.erase email })
      else (some (lockoutWindowSecs + entry.firstFailureAt - now), m)

/-- The oldest entry that an iteration over the failed attempts meets first. -/
def oldestFailure (failedAttempts : DashMap String FailedAttempt) : Option String :=
  (failedAttempts.entries.foldl (fun (oldest : ℕ × Option String) entry =>
    if entry.2.firstFailureAt < oldest.1 then (entry.2.firstFailureAt, some entry.1) else oldest)
    (2 ^ 64 - 1, none)).2

/-- The pruning of `record_failure` when there are too many entries. -/
def pruneFailures (failedAttempts : DashMap String FailedAttempt) (now : ℕ) :
    DashMap String FailedAttempt :=
  if failedAttemptsMaxEntries ≤ failedAttempts.entries.length then
    let failedAttempts :=
      failedAttempts.retain fun _ fa => now - lockoutWindowSecs ≤ fa.firstFailureAt
    -- Nothing has expired: the oldest entry makes room.
    if failedAttemptsMaxEntries ≤ failedAttempts.entries.length then
      match oldestFailure failedAttempts with
      | some key => failedAttempts.erase key
      | none => failedAttempts
    else failedAttempts
  else failedAttempts

/-- `record_failure`. -/
def recordFailure (m : UserManager) (now : ℕ) (email : String) : UserManager :=
  let failedAttempts := pruneFailures m.failedAttempts now
  let entry : FailedAttempt :=
    match failedAttempts.lookup email with
    | some fa => { fa with count := (fa.count + 1) % 2 ^ 32 }
    | none => ⟨1, now⟩
  { m with failedAttempts := failedAttempts.insert email entry }

/-- `authenticate`, which reads the clock at the lockout check and again when it records the
outcome. The token of a success is drawn at random. -/
def authenticate (lib : UserLib) (m : UserManager) (now later : ℕ) (token email password : String) :
    AuthResult × UserManager :=
  let emailKey := normalizeEmail email
  match m.lockoutCheck now emailKey with
  | (some retry, m) => (.lockedOut retry, m)
  | (none, m) =>
      match (m.emailIndex.lookup emailKey).bind m.users.lookup with
      -- An unknown email counts as a failure too, so it is not told apart from a wrong password.
      | none => (.invalidCredentials, m.recordFailure later emailKey)
      | some user =>
          if !user.enabled then (.accountDisabled, m)
          else if !verifyPassword lib password user.passwordHash then
            (.invalidCredentials, m.recordFailure later emailKey)
          else
            -- The right password resets the count, also when MFA is still to come.
            let m := { m with failedAttempts := m.failedAttempts.erase emailKey }
            if user.mfaEnabled then (.mfaRequired user.id, m)
            else
              let user := user.loggedIn later
              (.success user token, (m.store user).persistUser lib user)

/-- `complete_mfa_login`, the second step of a login with MFA. -/
def completeMfaLogin (lib : UserLib) (m : UserManager) (now later : ℕ)
    (token userId code : String) : AuthResult × UserManager :=
  -- Neither a password nor an earlier answer is asked for, and no failure is counted.
  match m.users.lookup userId with
  | none => (.invalidCredentials, m)
  | some user =>
      if !user.enabled then (.accountDisabled, m)
      else if !user.mfaEnabled then (.invalidCredentials, m)
      else
        match user.mfaSecret with
        | none => (.invalidCredentials, m)
        | some secret =>
            if !verifyTotp lib.hmac now secret code then (.invalidCredentials, m)
            else
              let user := user.loggedIn later
              (.success user token, (m.store user).persistUser lib user)

/-- `disable_user`. -/
def disableUser (lib : UserLib) (m : UserManager) (id : String) : Bool × UserManager :=
  match m.users.lookup id with
  | none => (false, m)
  | some user =>
      let user := { user with enabled := false }
      (true, (m.store user).persistUser lib user)

/-- What decides whether a user may log in, by id. -/
def access (m : UserManager) (id : String) : Option UserAccess :=
  (m.users.lookup id).map User.access

/-- The lockout check does not touch users or emails. -/
theorem lockoutCheck_users (m : UserManager) (now : ℕ) (email : String) :
    (m.lockoutCheck now email).2.users = m.users ∧
      (m.lockoutCheck now email).2.emailIndex = m.emailIndex := by
  unfold lockoutCheck
  split
  next => exact ⟨rfl, rfl⟩
  next =>
    split
    next => exact ⟨rfl, rfl⟩
    next => split <;> exact ⟨rfl, rfl⟩

/-- Noting a login of a user changes nobody's access. -/
theorem access_store_loggedIn (lib : UserLib) {m : UserManager} {id : String} {user : User}
    (huser : m.users.lookup id = some user) (later : ℕ) (id' : String) :
    ((m.store (user.loggedIn later)).persistUser lib (user.loggedIn later)).access id' =
      m.access id' := by
  have hid : (user.loggedIn later).id = id := m.keyed id user huser
  simp only [access, persistUser, store, DashMap.lookup_insert]
  split
  next heq =>
    rw [heq, hid, huser]
    rfl
  next => rfl

/-- How an authentication goes on behind the lockout check: without a session, and with
`MfaRequired` only for an enabled user with MFA whose password was given, or with a session. -/
theorem authenticate_cases (lib : UserLib) (m : UserManager) (now later : ℕ)
    (token email password : String) :
    ((m.authenticate lib now later token email password).2.users = m.users ∧
        (∀ user token', (m.authenticate lib now later token email password).1 ≠
          .success user token') ∧
        ∀ userId, (m.authenticate lib now later token email password).1 = .mfaRequired userId →
          ∃ user, m.users.lookup userId = some user ∧ user.enabled = true ∧
            user.mfaEnabled = true ∧ verifyPassword lib password user.passwordHash = true) ∨
      ∃ user, m.users.lookup user.id = some user ∧ user.enabled = true ∧
        user.mfaEnabled = false ∧ verifyPassword lib password user.passwordHash = true ∧
        (m.authenticate lib now later token email password).1 =
          .success (user.loggedIn later) token ∧
        ∀ id, (m.authenticate lib now later token email password).2.access id = m.access id := by
  obtain ⟨husers, hindex⟩ := m.lockoutCheck_users now (normalizeEmail email)
  unfold authenticate
  dsimp only
  generalize m.lockoutCheck now (normalizeEmail email) = checked at husers hindex ⊢
  obtain ⟨retry, m'⟩ := checked
  cases retry with
  | some retry => exact .inl ⟨husers, by rintro _ _ ⟨⟩, by rintro _ ⟨⟩⟩
  | none =>
      dsimp only
      cases hfound : (m'.emailIndex.lookup (normalizeEmail email)).bind m'.users.lookup with
      | none => exact .inl ⟨husers, by rintro _ _ ⟨⟩, by rintro _ ⟨⟩⟩
      | some user =>
          dsimp only
          obtain ⟨id, -, hlookup⟩ := Option.bind_eq_some_iff.mp hfound
          -- The user is stored under its own id, which is what the answers carry.
          have huser : m.users.lookup user.id = some user := by
            rw [← husers, m'.keyed id user hlookup]
            exact hlookup
          split
          next => exact .inl ⟨husers, by rintro _ _ ⟨⟩, by rintro _ ⟨⟩⟩
          next henabled =>
            split
            next => exact .inl ⟨husers, by rintro _ _ ⟨⟩, by rintro _ ⟨⟩⟩
            next hpassword =>
              split
              next hmfa =>
                refine .inl ⟨husers, by rintro _ _ ⟨⟩, ?_⟩
                rintro _ ⟨⟩
                exact ⟨user, huser, by simpa using henabled, hmfa, by simpa using hpassword⟩
              next hmfa =>
                refine .inr ⟨user, huser, by simpa using henabled, by simpa using hmfa,
                  by simpa using hpassword, rfl, fun id' => ?_⟩
                · have haccess := access_store_loggedIn lib hlookup later id'
                  have hsame : m'.access id' = m.access id' := by
                    unfold access
                    rw [husers]
                  exact haccess.trans hsame

/-- An authentication changes nobody's access. -/
theorem access_authenticate (lib : UserLib) (m : UserManager) (now later : ℕ)
    (token email password id : String) :
    (m.authenticate lib now later token email password).2.access id = m.access id := by
  rcases m.authenticate_cases lib now later token email password with
    ⟨husers, -, -⟩ | ⟨user, -, -, -, -, -, haccess⟩
  · unfold access
    rw [husers]
  · exact haccess id

/-- An authentication succeeds only for an enabled user without MFA whose password was given. -/
theorem authenticate_success {lib : UserLib} {m : UserManager} {now later : ℕ}
    {token email password token' : String} {user : User}
    (h : (m.authenticate lib now later token email password).1 = .success user token') :
    ∃ old, m.users.lookup user.id = some old ∧ old.enabled = true ∧ old.mfaEnabled = false ∧
      verifyPassword lib password old.passwordHash = true ∧ user = old.loggedIn later := by
  rcases m.authenticate_cases lib now later token email password with
    ⟨-, hnot, -⟩ | ⟨old, hlookup, henabled, hmfa, hpassword, hres, -⟩
  · exact absurd h (hnot user token')
  · rw [hres] at h
    cases h
    exact ⟨old, hlookup, henabled, hmfa, hpassword, rfl⟩

/-- `MfaRequired` is answered only for an enabled user with MFA whose password was given. -/
theorem authenticate_mfaRequired {lib : UserLib} {m : UserManager} {now later : ℕ}
    {token email password userId : String}
    (h : (m.authenticate lib now later token email password).1 = .mfaRequired userId) :
    ∃ user, m.users.lookup userId = some user ∧ user.enabled = true ∧ user.mfaEnabled = true ∧
      verifyPassword lib password user.passwordHash = true := by
  rcases m.authenticate_cases lib now later token email password with
    ⟨-, -, hrequired⟩ | ⟨old, -, -, -, -, hres, -⟩
  · exact hrequired userId h
  · rw [hres] at h
    cases h

/-- How the second step of a login goes on. -/
theorem completeMfaLogin_cases (lib : UserLib) (m : UserManager) (now later : ℕ)
    (token userId code : String) :
    ((m.completeMfaLogin lib now later token userId code).2 = m ∧
        (∀ user token', (m.completeMfaLogin lib now later token userId code).1 ≠
          .success user token') ∧
        ¬ ∃ user secret, m.users.lookup userId = some user ∧ user.enabled = true ∧
          user.mfaEnabled = true ∧ user.mfaSecret = some secret ∧
          verifyTotp lib.hmac now secret code = true) ∨
      ∃ user secret, m.users.lookup userId = some user ∧ user.enabled = true ∧
        user.mfaEnabled = true ∧ user.mfaSecret = some secret ∧
        verifyTotp lib.hmac now secret code = true ∧
        m.completeMfaLogin lib now later token userId code =
          (.success (user.loggedIn later) token,
            (m.store (user.loggedIn later)).persistUser lib (user.loggedIn later)) := by
  unfold completeMfaLogin
  cases hlookup : m.users.lookup userId with
  | none => exact .inl ⟨rfl, by simp, by simp⟩
  | some user =>
      cases henabled : user.enabled with
      | false => exact .inl ⟨by simp [henabled], by simp [henabled], by simp [henabled]⟩
      | true =>
          cases hmfa : user.mfaEnabled with
          | false =>
              exact .inl ⟨by simp [henabled, hmfa], by simp [henabled, hmfa], by simp [hmfa]⟩
          | true =>
              cases hsecret : user.mfaSecret with
              | none =>
                  exact .inl ⟨by simp [henabled, hmfa, hsecret], by simp [henabled, hmfa, hsecret],
                    by simp [hsecret]⟩
              | some secret =>
                  cases hcode : verifyTotp lib.hmac now secret code with
                  | false =>
                      exact .inl ⟨by simp [henabled, hmfa, hsecret, hcode],
                        by simp [henabled, hmfa, hsecret, hcode], by simp [hsecret, hcode]⟩
                  | true =>
                      exact .inr ⟨user, secret, rfl, henabled, hmfa, hsecret, hcode,
                        by simp [henabled, hmfa, hsecret, hcode]⟩

/-- The second step of a login changes nobody's access. -/
theorem access_completeMfaLogin (lib : UserLib) (m : UserManager) (now later : ℕ)
    (token userId code id : String) :
    (m.completeMfaLogin lib now later token userId code).2.access id = m.access id := by
  rcases m.completeMfaLogin_cases lib now later token userId code with
    ⟨hsame, -⟩ | ⟨user, secret, hlookup, -, -, -, -, hres⟩
  · rw [hsame]
  · rw [hres]
    exact access_store_loggedIn lib hlookup later id

/-- The second step of a login succeeds only for an enabled user with MFA whose code was given. -/
theorem completeMfaLogin_success {lib : UserLib} {m : UserManager} {now later : ℕ}
    {token userId code token' : String} {user : User}
    (h : (m.completeMfaLogin lib now later token userId code).1 = .success user token') :
    ∃ old secret, m.users.lookup user.id = some old ∧ old.enabled = true ∧
      old.mfaEnabled = true ∧ old.mfaSecret = some secret ∧
      verifyTotp lib.hmac now secret code = true ∧ user = old.loggedIn later := by
  rcases m.completeMfaLogin_cases lib now later token userId code with
    ⟨-, hnot, -⟩ | ⟨old, secret, hlookup, henabled, hmfa, hsecret, hcode, hres⟩
  · exact absurd h (hnot user token')
  · rw [hres] at h
    cases h
    have hid := m.keyed userId old hlookup
    exact ⟨old, secret, hid.symm ▸ hlookup, henabled, hmfa, hsecret, hcode, rfl⟩

/-- Disabling a user clears the flag of that user only. -/
theorem access_disableUser (lib : UserLib) (m : UserManager) (id id' : String) :
    (m.disableUser lib id).2.access id' =
      if id' = id then (m.access id).map fun access => { access with enabled := false }
      else m.access id' := by
  unfold disableUser access
  cases hlookup : m.users.lookup id with
  | none =>
      dsimp only
      split
      next heq =>
        rw [heq, hlookup]
        rfl
      next => rfl
  | some user =>
      have hid := m.keyed id user hlookup
      simp only [persistUser, store, DashMap.lookup_insert, hid]
      split
      next => rfl
      next => rfl

end UserManager

end XiraNet

import XiraNet.Identity.Users
import XiraNet.Lib.Runs

/-!
# User accounts

The operations of `identity/users.rs` that create and change users, and the loading of the users at
a start. Every operation holds the lock of the entry it changes, so it is one step here; a
registration is taken apart where it matters that it holds none.

* `UserManager.step_cases`: what a step does to the users, the email index and the table.
-/

namespace XiraNet

/-- What the loading of the users takes from elsewhere. -/
structure UserLoader where
  /-- `serde_json::from_str` of a list of strings. -/
  parsePermissions : String → Option (List String)
  /-- `SecretBox::open`; the text in the box, if what is in it is text. -/
  openSecret : String → Option (Option String)

/-- `decrypt_mfa_secret`, with a secret box. -/
def decryptMfaSecret (loader : UserLoader) (stored : Option String) : Option String :=
  stored.bind fun stored =>
    match loader.openSecret stored with
    | some text => text
    -- What cannot be opened was stored before there was a secret box.
    | none => some stored

/-- The role of a row. The name of a custom role is what stands between the parentheses. -/
def UserRole.ofText (s : String) : UserRole :=
  if s = "SuperAdmin" then .superAdmin
  else if s = "Admin" then .admin
  else if s = "Developer" then .developer
  else if s = "Service" then .service
  else if Text.startsWith s "Custom(" then
    .custom (String.ofList ((s.toList.drop 7).dropLast))
  else .viewer

/-- The user that is loaded from a row. -/
def UserRow.toUser (loader : UserLoader) (row : UserRow) : User where
  id := row.id
  email := row.email
  username := row.username
  passwordHash := row.passwordHash
  role := .ofText row.role
  permissions := (loader.parsePermissions row.permissions).getD []
  createdAt := asU64 row.createdAt
  lastLogin := asU64 row.lastLogin
  loginCount := asU64 row.loginCount
  enabled := row.enabled = 1
  mfaEnabled := row.mfaEnabled = 1
  mfaSecret := decryptMfaSecret loader row.mfaSecret

namespace UserManager

/-- `with_storage_and_secrets`, on a table that is there already. -/
def withStorageAndSecrets (loader : UserLoader) (rows : Table UserRow) : UserManager where
  users := (rows.map (UserRow.toUser loader)).foldl (fun m user => m.insert user.id user) ∅
  -- The emails as they are stored, not normalized.
  emailIndex := rows.foldl (fun m row => m.insert row.email row.id) ∅
  storage := some rows
  failedAttempts := ∅
  keyed := DashMap.keyed_foldl_insert _ (by simp)

/-- `register`, with the id, the time and the password hash it draws. -/
def register (lib : UserLib) (m : UserManager) (id : String) (now : ℕ)
    (passwordHash email username : String) (role : UserRole) : Except String User × UserManager :=
  let emailKey := normalizeEmail email
  if (m.emailIndex.lookup emailKey).isSome then (.error "Email already registered", m)
  else
    let user : User := ⟨id, email, username, passwordHash, role, [], now, 0, 0, true, false, none⟩
    let m := m.persistUser lib user
    (.ok user, { m with emailIndex := m.emailIndex.insert emailKey id }.store user)

/-- Replace a user and write its row. -/
def update (lib : UserLib) (m : UserManager) (user : User) : UserManager :=
  (m.store user).persistUser lib user

/-- `update_role`. The row it writes to `events` is read by none of the functions here. -/
def updateRole (lib : UserLib) (m : UserManager) (id : String) (role : UserRole) :
    Bool × UserManager :=
  match m.users.lookup id with
  | none => (false, m)
  | some user => (true, m.update lib { user with role })

/-- `add_permission`. -/
def addPermission (lib : UserLib) (m : UserManager) (id permission : String) :
    Bool × UserManager :=
  match m.users.lookup id with
  | none => (false, m)
  | some user =>
      let permissions :=
        if permission ∈ user.permissions then user.permissions
        else user.permissions ++ [permission]
      (true, m.update lib { user with permissions })

/-- `generate_qr_url`. -/
def generateQrUrl (email secret : String) : String :=
  "otpauth://totp/XIRA:" ++ email ++ "?secret=" ++ secret ++ "&issuer=XIRA&digits=" ++
    toString totpDigits ++ "&period=" ++ toString totpPeriod

/-- `start_mfa_enrollment`, with the secret it draws. -/
def startMfaEnrollment (lib : UserLib) (m : UserManager) (userId secret : String) :
    Except String (String × String) × UserManager :=
  match m.users.lookup userId with
  | none => (.error "user not found", m)
  | some user =>
      -- The flag is left as it is.
      (.ok (secret, generateQrUrl user.email secret),
        m.update lib { user with mfaSecret := some secret })

/-- `verify_mfa_setup`. -/
def verifyMfaSetup (lib : UserLib) (m : UserManager) (now : ℕ) (userId code : String) :
    Bool × UserManager :=
  match m.users.lookup userId with
  | none => (false, m)
  | some user =>
      match user.mfaSecret with
      | none => (false, m)
      | some secret =>
          if !verifyTotp lib.hmac now secret code then (false, m)
          else (true, m.update lib { user with mfaEnabled := true })

/-- `disable_mfa`. -/
def disableMfa (lib : UserLib) (m : UserManager) (userId : String) : Bool × UserManager :=
  match m.users.lookup userId with
  | none => (false, m)
  | some user => (true, m.update lib { user with mfaEnabled := false, mfaSecret := none })

end UserManager

/-- A call to the user store, with what it draws at random and reads from the clock. -/
inductive UserAction
  | register (id : String) (now : ℕ) (passwordHash email username : String) (role : UserRole)
  | updateRole (id : String) (role : UserRole)
  | addPermission (id permission : String)
  | disableUser (id : String)
  | startMfaEnrollment (userId secret : String)
  | verifyMfaSetup (now : ℕ) (userId code : String)
  | disableMfa (userId : String)
  | authenticate (now later : ℕ) (token email password : String)
  | completeMfaLogin (now later : ℕ) (token userId code : String)
  deriving DecidableEq, Repr

namespace UserManager

/-- One call. The id of a new user is fresh. -/
def step (lib : UserLib) (m : UserManager) : UserAction → Option UserManager
  | .register id now passwordHash email username role =>
      if (m.users.lookup id).isSome then none
      else some (m.register lib id now passwordHash email username role).2
  | .updateRole id role => some (m.updateRole lib id role).2
  | .addPermission id permission => some (m.addPermission lib id permission).2
  | .disableUser id => some (m.disableUser lib id).2
  | .startMfaEnrollment userId secret => some (m.startMfaEnrollment lib userId secret).2
  | .verifyMfaSetup now userId code => some (m.verifyMfaSetup lib now userId code).2
  | .disableMfa userId => some (m.disableMfa lib userId).2
  | .authenticate now later token email password =>
      some (m.authenticate lib now later token email password).2
  | .completeMfaLogin now later token userId code =>
      some (m.completeMfaLogin lib now later token userId code).2

/-- The user store as a machine. -/
def machine (lib : UserLib) : Machine UserManager UserAction := ⟨step lib⟩

/-- The user that a call writes to the table. -/
def written (lib : UserLib) (m : UserManager) : UserAction → Option User
  | .register id now passwordHash email username role =>
      if (m.emailIndex.lookup (normalizeEmail email)).isSome then none
      else some ⟨id, email, username, passwordHash, role, [], now, 0, 0, true, false, none⟩
  | .updateRole id role => (m.users.lookup id).map fun user => { user with role }
  | .addPermission id permission => (m.users.lookup id).map fun user =>
      { user with permissions :=
          if permission ∈ user.permissions then user.permissions
          else user.permissions ++ [permission] }
  | .disableUser id => (m.users.lookup id).map fun user => { user with enabled := false }
  | .startMfaEnrollment userId secret =>
      (m.users.lookup userId).map fun user => { user with mfaSecret := some secret }
  | .verifyMfaSetup now userId code => (m.users.lookup userId).bind fun user =>
      if ∃ secret ∈ user.mfaSecret, verifyTotp lib.hmac now secret code then
        some { user with mfaEnabled := true }
      else none
  | .disableMfa userId => (m.users.lookup userId).map fun user =>
      { user with mfaEnabled := false, mfaSecret := none }
  | .authenticate now later token email password =>
      match (m.authenticate lib now later token email password).1 with
      | .success user _ => some user
      | _ => none
  | .completeMfaLogin now later token userId code =>
      match (m.completeMfaLogin lib now later token userId code).1 with
      | .success user _ => some user
      | _ => none

/-- A step that leaves the users, the email index and the table alone. -/
structure Same (m m' : UserManager) : Prop where
  users : m'.users = m.users
  emailIndex : m'.emailIndex = m.emailIndex
  storage : m'.storage = m.storage

/-- A step that replaces a user and writes its row. -/
structure Updates (lib : UserLib) (user : User) (m m' : UserManager) : Prop where
  users : m'.users = m.users.insert user.id user
  emailIndex : m'.emailIndex = m.emailIndex
  storage : m'.storage = (m.persistUser lib user).storage
  /-- The user keeps its email. -/
  old : ∃ old, m.users.lookup user.id = some old ∧ old.email = user.email

/-- A step that adds a user under an email that is free, and writes its row. -/
structure Adds (lib : UserLib) (user : User) (m m' : UserManager) : Prop where
  users : m'.users = m.users.insert user.id user
  emailIndex : m'.emailIndex = m.emailIndex.insert (normalizeEmail user.email) user.id
  storage : m'.storage = (m.persistUser lib user).storage
  new : m.users.lookup user.id = none
  free : m.emailIndex.lookup (normalizeEmail user.email) = none

/-- An update of a user that is there. -/
theorem updates_update (lib : UserLib) {m : UserManager} {id : String} {old user : User}
    (hold : m.users.lookup id = some old) (hid : user.id = old.id)
    (hemail : user.email = old.email) : Updates lib user m (m.update lib user) where
  users := rfl
  emailIndex := rfl
  storage := rfl
  old := ⟨old, by rw [hid, m.keyed id old hold]; exact hold, hemail.symm⟩

/-- The lockout check does not touch the table. -/
theorem lockoutCheck_storage (m : UserManager) (now : ℕ) (email : String) :
    (m.lockoutCheck now email).2.storage = m.storage := by
  unfold lockoutCheck
  split
  next => rfl
  next =>
    split
    next => rfl
    next => split <;> rfl

/-- What an authentication does to the users, the email index and the table. -/
theorem authenticate_store (lib : UserLib) (m : UserManager) (now later : ℕ)
    (token email password : String) :
    (Same m (m.authenticate lib now later token email password).2 ∧
        ∀ user token', (m.authenticate lib now later token email password).1 ≠
          .success user token') ∨
      ∃ user, (m.authenticate lib now later token email password).1 = .success user token ∧
        Updates lib user m (m.authenticate lib now later token email password).2 := by
  obtain ⟨husers, hindex⟩ := m.lockoutCheck_users now (normalizeEmail email)
  have hstorage := m.lockoutCheck_storage now (normalizeEmail email)
  unfold authenticate
  dsimp only
  generalize m.lockoutCheck now (normalizeEmail email) = checked at husers hindex hstorage ⊢
  obtain ⟨retry, m'⟩ := checked
  have hsame : Same m m' := ⟨husers, hindex, hstorage⟩
  cases retry with
  | some retry => exact .inl ⟨hsame, by rintro _ _ ⟨⟩⟩
  | none =>
      dsimp only
      cases hfound : (m'.emailIndex.lookup (normalizeEmail email)).bind m'.users.lookup with
      | none => exact .inl ⟨⟨husers, hindex, hstorage⟩, by rintro _ _ ⟨⟩⟩
      | some user =>
          dsimp only
          obtain ⟨id, -, hlookup⟩ := Option.bind_eq_some_iff.mp hfound
          split_ifs
          · exact .inl ⟨hsame, by rintro _ _ ⟨⟩⟩
          · exact .inl ⟨⟨husers, hindex, hstorage⟩, by rintro _ _ ⟨⟩⟩
          · exact .inl ⟨⟨husers, hindex, hstorage⟩, by rintro _ _ ⟨⟩⟩
          -- Only a success changes the user.
          · obtain ⟨hu, hi, hs, hold⟩ : Updates lib (user.loggedIn later) m'
                (m'.update lib (user.loggedIn later)) := updates_update lib hlookup rfl rfl
            refine .inr ⟨user.loggedIn later, rfl, ?_, ?_, ?_, husers ▸ hold⟩
            · exact husers ▸ hu
            · exact hindex
            · exact hs.trans (congrArg (Option.map _) hstorage)

/-- How the confirmation of a secret goes on. -/
theorem verifyMfaSetup_cases (lib : UserLib) (m : UserManager) (now : ℕ) (userId code : String) :
    (m.verifyMfaSetup lib now userId code = (false, m) ∧
        ¬ ∃ user secret, m.users.lookup userId = some user ∧ user.mfaSecret = some secret ∧
          verifyTotp lib.hmac now secret code = true) ∨
      ∃ user secret, m.users.lookup userId = some user ∧ user.mfaSecret = some secret ∧
        verifyTotp lib.hmac now secret code = true ∧
        m.verifyMfaSetup lib now userId code =
          (true, m.update lib { user with mfaEnabled := true }) := by
  unfold verifyMfaSetup
  cases hlookup : m.users.lookup userId with
  | none => exact .inl ⟨rfl, by simp⟩
  | some user =>
      cases hsecret : user.mfaSecret with
      | none => exact .inl ⟨by simp [hsecret], by simp [hsecret]⟩
      | some secret =>
          cases hcode : verifyTotp lib.hmac now secret code with
          | false => exact .inl ⟨by simp [hsecret, hcode], by simp [hsecret, hcode]⟩
          | true => exact .inr ⟨user, secret, rfl, hsecret, hcode, by simp [hsecret, hcode]⟩

/-- A change of the user found under an id, if there is one. -/
theorem cases_of_lookup {lib : UserLib} {m m' : UserManager} {id : String} {f : User → User}
    (hid : ∀ user, (f user).id = user.id) (hemail : ∀ user, (f user).email = user.email)
    (hnone : m.users.lookup id = none → m' = m)
    (hsome : ∀ user, m.users.lookup id = some user → m' = m.update lib (f user)) :
    ((m.users.lookup id).map f = none ∧ Same m m') ∨
      ∃ user, (m.users.lookup id).map f = some user ∧
        (Updates lib user m m' ∨ Adds lib user m m') := by
  cases hlookup : m.users.lookup id with
  | none =>
      rw [hnone hlookup]
      exact .inl ⟨rfl, rfl, rfl, rfl⟩
  | some user =>
      rw [hsome user hlookup]
      exact .inr ⟨f user, rfl, .inl (updates_update lib hlookup (hid user) (hemail user))⟩

/-- What a call does to the users, the email index and the table. -/
theorem step_cases {lib : UserLib} {m m' : UserManager} {a : UserAction}
    (h : m.step lib a = some m') :
    (m.written lib a = none ∧ Same m m') ∨
      ∃ user, m.written lib a = some user ∧ (Updates lib user m m' ∨ Adds lib user m m') := by
  cases a with
  | register id now passwordHash email username role =>
      simp only [step] at h
      split at h
      next => cases h
      next hnew =>
        cases h
        simp only [register, written]
        split_ifs with hindex
        · exact .inl ⟨rfl, rfl, rfl, rfl⟩
        · exact .inr ⟨_, rfl, .inr ⟨rfl, rfl, rfl, Option.not_isSome_iff_eq_none.mp hnew,
            Option.not_isSome_iff_eq_none.mp hindex⟩⟩
  | updateRole id role =>
      cases h
      refine cases_of_lookup (fun _ => rfl) (fun _ => rfl) (fun hlookup => ?_)
        fun user hlookup => ?_
      · simp only [updateRole, hlookup]
      · simp only [updateRole, hlookup]
  | addPermission id permission =>
      cases h
      refine cases_of_lookup (fun _ => rfl) (fun _ => rfl) (fun hlookup => ?_)
        fun user hlookup => ?_
      · simp only [addPermission, hlookup]
      · simp only [addPermission, hlookup]
  | disableUser id =>
      cases h
      refine cases_of_lookup (fun _ => rfl) (fun _ => rfl) (fun hlookup => ?_)
        fun user hlookup => ?_
      · simp only [disableUser, hlookup]
      · simp only [disableUser, hlookup, update]
  | startMfaEnrollment userId secret =>
      cases h
      refine cases_of_lookup (fun _ => rfl) (fun _ => rfl) (fun hlookup => ?_)
        fun user hlookup => ?_
      · simp only [startMfaEnrollment, hlookup]
      · simp only [startMfaEnrollment, hlookup]
  | verifyMfaSetup now userId code =>
      cases h
      rcases m.verifyMfaSetup_cases lib now userId code with
        ⟨hres, hnot⟩ | ⟨user, secret, hlookup, hsecret, hcode, hres⟩
      · refine .inl ⟨?_, hres ▸ ⟨rfl, rfl, rfl⟩⟩
        simp only [written, Option.bind_eq_none_iff, ite_eq_right_iff, reduceCtorEq, imp_false]
        rintro user hlookup ⟨secret, hsecret, hcode⟩
        exact hnot ⟨user, secret, hlookup, hsecret, hcode⟩
      · refine .inr ⟨{ user with mfaEnabled := true }, ?_, .inl ?_⟩
        · simp only [written, hlookup, Option.bind_some]
          exact if_pos ⟨secret, hsecret, hcode⟩
        · rw [hres]
          exact updates_update lib hlookup rfl rfl
  | disableMfa userId =>
      cases h
      refine cases_of_lookup (fun _ => rfl) (fun _ => rfl) (fun hlookup => ?_)
        fun user hlookup => ?_
      · simp only [disableMfa, hlookup]
      · simp only [disableMfa, hlookup]
  | authenticate now later token email password =>
      cases h
      rcases m.authenticate_store lib now later token email password with
        ⟨hsame, hnot⟩ | ⟨user, hres, hupdates⟩
      · refine .inl ⟨?_, hsame⟩
        -- Only a success is written.
        simp only [written]
      · exact .inr ⟨user, by simp only [written, hres], .inl hupdates⟩
  | completeMfaLogin now later token userId code =>
      cases h
      rcases m.completeMfaLogin_cases lib now later token userId code with
        ⟨hsame, hnot, -⟩ | ⟨user, secret, hlookup, -, -, -, -, hres⟩
      · rw [hsame]
        refine .inl ⟨?_, rfl, rfl, rfl⟩
        -- Only a success is written.
        simp only [written]
      · refine .inr ⟨user.loggedIn later, by simp only [written, hres], .inl ?_⟩
        rw [hres]
        exact updates_update lib hlookup rfl rfl

end UserManager

end XiraNet

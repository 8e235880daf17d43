import XiraNet.Http
import XiraNet.Identity.Accounts
import XiraNet.Identity.DisableUser

/-!
# The authenticated routes

The routes of the scope `/auth` behind `SessionAuth`, those of `/auth/admin` behind `RequireRole`
as well, with the logins and the user creation that feed them: `middleware/session.rs`,
`middleware/require_role.rs` and the handlers of `admin/v2_handlers.rs`.

A request first validates its session, then its role is compared, then its body is read and its
handler runs; a handler that takes rights away changes the user first and the user's sessions after
that. Other requests run between these steps, between the blocks of a session operation and between
the two steps of a login. Restarts load both stores from the database.

* `AuthScope.machine`: every interleaving of these steps.
* `AuthScope.call_eq`, `AuthScope.handle_eq`: what a call and a handler leave behind.
-/

namespace XiraNet

/-- `UserRole::level`. -/
def UserRole.level : UserRole → ℕ
  | .superAdmin => 100
  | .admin => 80
  | .developer => 60
  | .service => 40
  | .viewer => 20
  | .custom _ => 0

/-- `UserRole::as_str`. -/
def UserRole.asStr : UserRole → String
  | .superAdmin => "SuperAdmin"
  | .admin => "Admin"
  | .developer => "Developer"
  | .viewer => "Viewer"
  | .service => "Service"
  | .custom s => s

/-- `UserRole::satisfies`. A custom role only satisfies itself. -/
def UserRole.satisfies (self required : UserRole) : Bool :=
  match required, self with
  | .custom _, _ => self = required
  | _, .custom _ => false
  | _, _ => required.level ≤ self.level

/-- Only a SuperAdmin may do what is asked of a SuperAdmin. -/
theorem UserRole.satisfies_superAdmin (role : UserRole) :
    role.satisfies .superAdmin = true ↔ role = .superAdmin := by
  cases role <;> simp [satisfies, level]

/-- The role that `create_user` and `admin_update_role` read from a body. -/
def UserRole.parse (s : String) : Option UserRole :=
  if s = "SuperAdmin" then some .superAdmin
  else if s = "Admin" then some .admin
  else if s = "Developer" then some .developer
  else if s = "Service" then some .service
  else if s = "Viewer" then some .viewer
  else none

/-- `user_role`. -/
def UserManager.userRole (m : UserManager) (id : String) : Option UserRole :=
  (m.users.lookup id).map User.role

/-- The extension that `SessionAuth` puts into a request. -/
structure SessionInfo where
  userId : String
  token : String
  deriving DecidableEq, Repr

/-- The token of a request: `X-Session-Token`, or else a bearer token. -/
def sessionToken (req : HttpRequest) : Option String :=
  (req.header "X-Session-Token").or
    ((req.header "Authorization").bind fun s => Text.stripPrefix s "Bearer ")

/-- The answer of `SessionAuth` to a request without a token. -/
def sessionMissing : HttpResponse :=
  .json 401 [("error", .string "missing session token"),
    ("hint", .string "Use: Authorization: Bearer <token> or X-Session-Token: <token>")]

/-- The answer of `SessionAuth` to a token that does not validate. -/
def sessionInvalid : HttpResponse := .json 401 [("error", .string "invalid or expired session")]

/-- `RequireRole`, on the extension that `SessionAuth` has left. -/
def requireRole (users : UserManager) (minRole : UserRole) :
    Option SessionInfo → MiddlewareResult
  -- Without `SessionAuth` before it, nobody gets through.
  | none =>
      .respond (.json 401
        [("error", .string "session required (RequireRole expects SessionAuth upstream)")])
  | some info =>
      match users.userRole info.userId with
      | none => .respond (.json 403 [("error", .string "user not found")])
      | some role =>
          if role.satisfies minRole then .forward
          else .respond (.json 403 [("error", .string "insufficient role"),
            ("required", .string minRole.asStr), ("actual", .string role.asStr)])

/-- What `create_user` reads of the configuration. -/
structure RegistrationPolicy where
  registrationEnabled : Bool
  passwordMinLength : ℕ
  deriving DecidableEq, Repr

/-- The body of `create_user`. -/
structure CreateUserRequest where
  email : String
  username : String
  password : String
  role : String
  deriving DecidableEq, Repr

/-- `create_user`, with the id, the time and the password hash that `register` draws. -/
def createUser (lib : UserLib) (cfg : RegistrationPolicy) (m : UserManager) (id : String) (now : ℕ)
    (passwordHash : String) (body : CreateUserRequest) : HttpResponse × UserManager :=
  if !cfg.registrationEnabled then
    (.json 403 [("error", .string "Registration is disabled")], m)
  else if Text.byteLength body.password.toList < cfg.passwordMinLength then
    (.json 400 [("error", .string ("Password must be at least " ++
      toString cfg.passwordMinLength ++ " characters"))], m)
  else if body.email = "" || body.username = "" then
    (.json 400 [("error", .string "email and username are required")], m)
  else
    match UserRole.parse body.role with
    | none =>
        (.json 400 [("error", .string ("Unknown role: " ++ body.role)),
          ("valid_roles", .array (["SuperAdmin", "Admin", "Developer", "Service", "Viewer"].map
            Json.string))], m)
    | some role =>
        match m.register lib id now passwordHash body.email body.username role with
        | (.ok user, m) => (.json 201 [("id", .string user.id), ("email", .string user.email),
            ("username", .string user.username)], m)
        | (.error e, m) => (.json 400 [("error", .string e)], m)

/-- The routes behind `SessionAuth`, with what their handlers read from the path and the body and
draw at random. -/
inductive AuthRoute
  | me
  | logout
  | logoutAll
  | mySessions
  | mfaEnroll (secret : String)
  | mfaVerify (code : String)
  | adminListUsers
  | adminUpdateRole (target role : String)
  | adminDisableUser (target : String)
  | adminDisableMfa (target : String)
  | adminLogoutAll (target : String)
  deriving DecidableEq, Repr

/-- The routes of `/auth/admin`, which `RequireRole` guards. -/
def AuthRoute.admin : AuthRoute → Bool
  | .adminListUsers | .adminUpdateRole _ _ | .adminDisableUser _ | .adminDisableMfa _
  | .adminLogoutAll _ => true
  | .me | .logout | .logoutAll | .mySessions | .mfaEnroll _ | .mfaVerify _ => false

/-- What a handler does next with the user's sessions. -/
inductive SessionEffect
  /-- The handler answers. -/
  | done
  /-- The handler makes a call of the session store and answers with what it returns. -/
  | call (call : SessionCall)
  /-- The handler has changed the user store and goes on with `invalidate_all`. -/
  | revoke (target : String)
  deriving DecidableEq, Repr

/-- A handler up to its first call of the session store. The handlers that only read are `done`. -/
def AuthRoute.handle (lib : UserLib) (users : UserManager) (now : ℕ) (info : SessionInfo) :
    AuthRoute → UserManager × SessionEffect
  | .me => (users, .done)
  | .mySessions => (users, .done)
  | .adminListUsers => (users, .done)
  | .logout => (users, .call (.invalidate info.token))
  | .logoutAll => (users, .call (.invalidateAll info.userId))
  | .mfaEnroll secret => ((users.startMfaEnrollment lib info.userId secret).2, .done)
  | .mfaVerify code => ((users.verifyMfaSetup lib now info.userId code).2, .done)
  | .adminUpdateRole target role =>
      match UserRole.parse role with
      | none => (users, .done)
      | some role =>
          match users.updateRole lib target role with
          | (true, users) => (users, .revoke target)
          | (false, users) => (users, .done)
  | .adminDisableUser target =>
      match users.disableUser lib target with
      | (true, users) => (users, .revoke target)
      | (false, users) => (users, .done)
  -- The sessions stay: the user only needs no code any more.
  | .adminDisableMfa target => ((users.disableMfa lib target).2, .done)
  | .adminLogoutAll target => (users, .call (.invalidateAll target))

/-- Where a request behind `SessionAuth` stands. -/
inductive AuthStage
  /-- `SessionAuth` validates the token. -/
  | validating (token : String)
  /-- `SessionAuth` has let it in. -/
  | admitted (info : SessionInfo)
  /-- Its middleware has let it in, and its body is read. -/
  | authorized (info : SessionInfo)
  /-- Its handler has changed the user store and calls `invalidate_all` next. -/
  | revoking (target : String)
  deriving DecidableEq, Repr

/-- A request under way. -/
structure AuthTask where
  route : AuthRoute
  peerIp : String
  /-- The time at which `SessionAuth` read the clock. -/
  since : ℕ
  stage : AuthStage
  deriving DecidableEq, Repr

/-- What the history of the system keeps of the use of rights. -/
inductive AuthorityEvent
  /-- `create_user`, which the API key guards, made a SuperAdmin. -/
  | created (userId : String)
  /-- The handler of a route of `/auth/admin` ran for a user. -/
  | acted (userId : String) (route : AuthRoute)
  deriving DecidableEq, Repr

/-- The stores, the requests under way, and what has happened. -/
structure AuthScope where
  users : UserManager
  system : SessionState
  /-- The logins that are authenticated and have not called `create`. -/
  opening : DashMap ℕ OpeningSession
  /-- The requests behind `SessionAuth`. -/
  tasks : DashMap ℕ AuthTask
  /-- The logins that were successful. -/
  logins : List OpeningSession
  /-- The uses of rights, the latest first. -/
  events : List AuthorityEvent

/-- One step of a request, under the id of the request, or of the system. -/
inductive AuthScopeAction
  /-- `login` authenticates. -/
  | login (id now later : ℕ) (token email password ip userAgent : String) (ttlSecs : ℕ)
  /-- `complete_mfa` authenticates. -/
  | completeMfa (id now later : ℕ) (token userId code ip userAgent : String) (ttlSecs : ℕ)
  /-- An authenticated login calls `create`. -/
  | create (id : ℕ)
  /-- `create_user`. -/
  | createUser (cfg : RegistrationPolicy) (id : String) (now : ℕ) (passwordHash : String)
      (body : CreateUserRequest)
  /-- A request for a route behind `SessionAuth` arrives. -/
  | request (id : ℕ) (req : HttpRequest) (route : AuthRoute)
  /-- `RequireRole`, on the routes that it guards. -/
  | requireRole (id : ℕ)
  /-- The handler runs. -/
  | handle (id now : ℕ)
  /-- The handler calls `invalidate_all`. -/
  | revoke (id : ℕ)
  /-- A session operation runs its next block. -/
  | advance (id : ℕ)
  /-- Anything else the session store does: the clock, the calls of the bus and of
  `flush_sessions`, an iteration. -/
  | background (action : SessionAction)
  /-- A new process on the same database. -/
  | restart (loader : UserLoader) (maxSessions : ℕ)

/-- What the block of a validation makes of the request that waits for it. -/
def AuthTask.validated (m : SessionManager) (task : AuthTask) : SessionProc → Option AuthTask
  | .validateCheck now hashed expectedIp =>
      match task.stage, (m.checkSession now hashed expectedIp).1 with
      | .validating token, .validated snap _ =>
          some { task with stage := .admitted ⟨snap.userId, token⟩ }
      -- The request is answered with `sessionInvalid`.
      | .validating _, _ => none
      | _, _ => some task
  | _ => some task

namespace AuthScope

/-- Whether an id is in use. -/
def busy (s : AuthScope) (id : ℕ) : Bool :=
  (s.opening.lookup id).isSome || (s.tasks.lookup id).isSome ||
    (s.system.procs.lookup id).isSome

/-- An authentication has ended: a success goes on to `create`. -/
def authenticated (s : AuthScope) (id : ℕ) (ip userAgent : String) (ttlSecs : ℕ)
    (res : AuthResult × UserManager) : AuthScope :=
  match res with
  | (.success user token, users) =>
      let login : OpeningSession := ⟨user.id, token, ip, userAgent, ttlSecs⟩
      { s with users, opening := s.opening.insert id login, logins := login :: s.logins }
  | (_, users) => { s with users }

/-- Note that the handler of an admin route runs. -/
def note (s : AuthScope) (userId : String) (route : AuthRoute) : AuthScope :=
  if route.admin then { s with events := .acted userId route :: s.events } else s

variable (lib : UserLib) (hashToken : String → String)

/-- A session operation starts under the id of a request. -/
def call (s : AuthScope) (id : ℕ) (call : SessionCall) : Option AuthScope :=
  (s.system.step hashToken (.call id call)).map fun system => { s with system }

/-- The handler of a request that has passed its middleware. -/
def handle (s : AuthScope) (id now : ℕ) (task : AuthTask) (info : SessionInfo) :
    Option AuthScope :=
  let s := s.note info.userId task.route
  let (users, effect) := task.route.handle lib s.users now info
  match effect with
  | .done => some { s with users, tasks := s.tasks.erase id }
  | .call call => { s with users, tasks := s.tasks.erase id }.call hashToken id call
  | .revoke target =>
      some { s with users, tasks := s.tasks.insert id { task with stage := .revoking target } }

/-- One step. -/
def step (s : AuthScope) : AuthScopeAction → Option AuthScope
  | .login id now later token email password ip userAgent ttlSecs =>
      if s.busy id then none
      else some (s.authenticated id ip userAgent ttlSecs
        (s.users.authenticate lib now later token email password))
  | .completeMfa id now later token userId code ip userAgent ttlSecs =>
      if s.busy id then none
      else some (s.authenticated id ip userAgent ttlSecs
        (s.users.completeMfaLogin lib now later token userId code))
  | .create id =>
      (s.opening.lookup id).bind fun o =>
        { s with opening := s.opening.erase id }.call hashToken id
          (.create o.userId o.token o.ip o.userAgent o.ttlSecs)
  | .createUser cfg id now passwordHash body =>
      -- The id of a new user is fresh.
      if (s.users.users.lookup id).isSome then none
      else
        let (res, users) := XiraNet.createUser lib cfg s.users id now passwordHash body
        some { s with
          users
          events :=
            if res.status = 201 ∧ UserRole.parse body.role = some .superAdmin then
              .created id :: s.events
            else s.events }
  | .request id req route =>
      match sessionToken req with
      -- The request is answered with `sessionMissing`.
      | none => some s
      | some token =>
          if s.busy id then none
          else
            let task : AuthTask := ⟨route, req.peerIp, s.system.now, .validating token⟩
            { s with tasks := s.tasks.insert id task }.call hashToken id
              (.validateWithRequest token (some req.peerIp))
  | .requireRole id =>
      (s.tasks.lookup id).bind fun task =>
        -- `SessionAuth` has returned from `validate_with_request`.
        match task.stage, s.system.procs.lookup id with
        | .admitted info, none =>
            if task.route.admin then
              match XiraNet.requireRole s.users .superAdmin (some info) with
              | .forward =>
                  some { s with
                    tasks := s.tasks.insert id { task with stage := .authorized info } }
              | .respond _ => some { s with tasks := s.tasks.erase id }
            else
              some { s with tasks := s.tasks.insert id { task with stage := .authorized info } }
        | _, _ => none
  | .handle id now =>
      (s.tasks.lookup id).bind fun task =>
        match task.stage with
        | .authorized info => s.handle lib hashToken id now task info
        | _ => none
  | .revoke id =>
      (s.tasks.lookup id).bind fun task =>
        match task.stage with
        | .revoking target =>
            { s with tasks := s.tasks.erase id }.call hashToken id (.invalidateAll target)
        | _ => none
  | .advance id =>
      (s.system.procs.lookup id).bind fun proc =>
        (s.system.step hashToken (.advance id)).map fun system =>
          { s with
            system
            tasks := s.tasks.put id
              ((s.tasks.lookup id).bind fun task => task.validated s.system.manager proc) }
  | .background action =>
      match action with
      | .tick _ | .visit _ _ =>
          (s.system.step hashToken action).map fun system => { s with system }
      | .call id call =>
          if s.busy id ∨ (call.issues hashToken).isSome then none else s.call hashToken id call
      | .advance _ | .restart _ => none
  | .restart loader maxSessions =>
      s.users.storage.bind fun rows =>
        (s.system.step hashToken (.restart maxSessions)).map fun system =>
          { s with
            users := .withStorageAndSecrets loader rows
            system
            opening := ∅
            tasks := ∅ }

/-- The first start of a gateway: any users, and no session, in memory or in the database. -/
def initial (users : UserManager) (maxSessions now : ℕ) (persistent : Bool) : AuthScope where
  users
  system := .initial
    { SessionManager.new maxSessions with storage := if persistent then some [] else none } now []
  opening := ∅
  tasks := ∅
  logins := []
  events := []

/-- Every interleaving of requests, with restarts. -/
def machine : Machine AuthScope AuthScopeAction := ⟨step lib hashToken⟩

/-- A store without users. -/
def noUsers : UserManager := ⟨∅, ∅, none, ∅, User.keyed_empty⟩

/-- A request with a bearer token. -/
def bearerRequest (token : String) : HttpRequest where
  method := "PUT"
  path := "/auth/admin/users/u/role"
  query := ""
  headers := [("authorization", Utf8.encode ("Bearer " ++ token))]
  peerAddr := none
  body := []

/-- Two users created as SuperAdmins log in, and each sends a request that changes the role of the
user `u`; both requests get past `RequireRole`. -/
def twoRequests : List AuthScopeAction :=
  [.createUser ⟨true, 0⟩ "r" 0 "$argon2id$" ⟨"r@x", "r", "pw", "SuperAdmin"⟩,
    .createUser ⟨true, 0⟩ "u" 0 "$argon2id$" ⟨"u@x", "u", "pw", "SuperAdmin"⟩,
    .login 1 0 0 "tr" "r@x" "pw" "" "curl" 60, .create 1, .advance 1, .advance 1, .advance 1,
    .login 2 0 0 "tu" "u@x" "pw" "" "curl" 60, .create 2, .advance 2, .advance 2, .advance 2,
    .request 3 (bearerRequest "tr") (.adminUpdateRole "u" "Viewer"), .advance 3, .requireRole 3,
    .request 4 (bearerRequest "tu") (.adminUpdateRole "u" "SuperAdmin"), .advance 4,
    .requireRole 4]

variable {lib hashToken}

/-- A call of the session store leaves everything else alone. -/
theorem call_eq {s s' : AuthScope} {id : ℕ} {call : SessionCall}
    (h : s.call hashToken id call = some s') :
    ∃ system, s.system.step hashToken (.call id call) = some system ∧ s' = { s with system } := by
  obtain ⟨system, hsystem, rfl⟩ := Option.map_eq_some_iff.mp h
  exact ⟨system, hsystem, rfl⟩

/-- What the handler of a request leaves behind, but for the session store. -/
theorem handle_eq {s s' : AuthScope} {id now : ℕ} {task : AuthTask} {info : SessionInfo}
    (h : s.handle lib hashToken id now task info = some s') :
    s'.users = (task.route.handle lib s.users now info).1 ∧
      s'.events = (s.note info.userId task.route).events ∧
      (s'.tasks = s.tasks.erase id ∨ ∃ target,
        s'.tasks = s.tasks.insert id { task with stage := .revoking target }) := by
  have hnote : (s.note info.userId task.route).users = s.users ∧
      (s.note info.userId task.route).tasks = s.tasks := by
    unfold note
    split <;> exact ⟨rfl, rfl⟩
  dsimp only [handle] at h
  rw [hnote.1, hnote.2] at h
  generalize task.route.handle lib s.users now info = res at h ⊢
  obtain ⟨users, effect⟩ := res
  cases effect with
  | done =>
      cases h
      exact ⟨rfl, rfl, .inl rfl⟩
  | call call =>
      obtain ⟨system, -, rfl⟩ := call_eq h
      exact ⟨rfl, rfl, .inl rfl⟩
  | revoke target =>
      cases h
      exact ⟨rfl, rfl, .inr ⟨target, rfl⟩⟩

end AuthScope

end XiraNet

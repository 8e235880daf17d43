import XiraNet.Identity.AuthScope
import XiraNet.Lib.DashCount

/-!
# The chain of authority

Who can be a SuperAdmin, and who can use the rights of one, in every interleaving of requests with
logins, session maintenance and restarts.

* `AuthScope.entitled_of_runs`: every SuperAdmin, and everybody for whom the handler of an admin
  route has run, is entitled by a chain of promotions that starts at a SuperAdmin of the first start
  or at a user created under the API key.
* `AuthScope.acts_le_of_runs`: as long as a user is no SuperAdmin, no handler of an admin route runs
  for the user but those that `RequireRole` let in before.
-/

namespace XiraNet

namespace UserManager

/-- A user is a SuperAdmin, or would be one after a restart. -/
def Superior (m : UserManager) (id : String) : Prop :=
  m.userRole id = some .superAdmin ∨
    ∃ rows ∈ m.storage, ∃ row ∈ rows, row.id = id ∧ row.role = "SuperAdmin"

end UserManager

/-- The calls that make a user a SuperAdmin. -/
def UserAction.Promotes (id : String) : UserAction → Prop
  | .register id' _ _ _ _ role => id' = id ∧ role = .superAdmin
  | .updateRole id' role => id' = id ∧ role = .superAdmin
  | _ => False

/-- The call of the user store that a handler makes. -/
def AuthRoute.userAction (now : ℕ) (info : SessionInfo) : AuthRoute → Option UserAction
  | .mfaEnroll secret => some (.startMfaEnrollment info.userId secret)
  | .mfaVerify code => some (.verifyMfaSetup now info.userId code)
  | .adminUpdateRole target role => (UserRole.parse role).map (.updateRole target)
  | .adminDisableUser target => some (.disableUser target)
  | .adminDisableMfa target => some (.disableMfa target)
  | .me | .logout | .logoutAll | .mySessions | .adminListUsers | .adminLogoutAll _ => none

section Roles

variable {lib : UserLib}

/-- Only the role of a SuperAdmin is written as that of a SuperAdmin. -/
theorem UserRole.debug_eq_superAdmin (role : UserRole) :
    role.debug lib = "SuperAdmin" ↔ role = .superAdmin := by
  cases role with
  | custom name =>
      refine iff_of_false (fun heq => ?_) (by simp)
      have hlist := congrArg String.toList heq
      simp [debug, String.toList_append] at hlist
  | _ => simp [debug]

/-- Only the role of a SuperAdmin is read as that of a SuperAdmin. -/
theorem UserRole.ofText_eq_superAdmin (s : String) : ofText s = .superAdmin ↔ s = "SuperAdmin" := by
  unfold ofText
  split_ifs <;> simp_all

namespace UserManager

/-- A user that is stored, with its row, is the only one who may have become a SuperAdmin. -/
theorem superior_of_written {m m' : UserManager} {user : User}
    (husers : m'.users = m.users.insert user.id user)
    (hstorage : m'.storage = (m.persistUser lib user).storage) {id : String}
    (h : m'.Superior id) : m.Superior id ∨ user.id = id ∧ user.role = .superAdmin := by
  rcases h with hrole | ⟨rows, hrows, row, hrow, hid, hrole⟩
  · simp only [userRole, husers, DashMap.lookup_insert] at hrole
    split at hrole
    next heq => exact .inr ⟨heq.symm, Option.some.inj hrole⟩
    next => exact .inl (.inl hrole)
  · rw [hstorage] at hrows
    obtain ⟨old, hold, rfl⟩ := Option.map_eq_some_iff.mp hrows
    rcases Table.mem_insertOrReplace.mp hrow with ⟨hmem, -⟩ | rfl
    · exact .inl (.inr ⟨old, hold, row, hmem, hid, hrole⟩)
    · exact .inr ⟨hid, (UserRole.debug_eq_superAdmin user.role).mp hrole⟩

/-- The user that a call writes has the role it had, unless the call gives it one. -/
theorem promotes_of_written {m : UserManager} {a : UserAction} {user : User}
    (h : m.written lib a = some user) (hrole : user.role = .superAdmin) :
    a.Promotes user.id ∨ m.Superior user.id := by
  -- A user that is found in the store and keeps its role.
  have hkeeps : ∀ old : User, m.users.lookup old.id = some old → user.id = old.id →
      user.role = old.role → m.Superior user.id := by
    intro old hold hid hsame
    refine .inl ?_
    rw [userRole, hid, hold, Option.map_some, ← hsame, hrole]
  cases a with
  | register id now passwordHash email username role =>
      simp only [written] at h
      split_ifs at h
      cases h
      exact .inl ⟨rfl, hrole⟩
  | updateRole id role =>
      obtain ⟨old, hold, rfl⟩ := Option.map_eq_some_iff.mp h
      exact .inl ⟨(m.keyed id old hold).symm, hrole⟩
  | addPermission id permission =>
      obtain ⟨old, hold, rfl⟩ := Option.map_eq_some_iff.mp h
      exact .inr (hkeeps old (m.keyed id old hold ▸ hold) rfl rfl)
  | disableUser id =>
      obtain ⟨old, hold, rfl⟩ := Option.map_eq_some_iff.mp h
      exact .inr (hkeeps old (m.keyed id old hold ▸ hold) rfl rfl)
  | startMfaEnrollment userId secret =>
      obtain ⟨old, hold, rfl⟩ := Option.map_eq_some_iff.mp h
      exact .inr (hkeeps old (m.keyed userId old hold ▸ hold) rfl rfl)
  | verifyMfaSetup now userId code =>
      obtain ⟨old, hold, hif⟩ := Option.bind_eq_some_iff.mp h
      split_ifs at hif
      cases hif
      exact .inr (hkeeps old (m.keyed userId old hold ▸ hold) rfl rfl)
  | disableMfa userId =>
      obtain ⟨old, hold, rfl⟩ := Option.map_eq_some_iff.mp h
      exact .inr (hkeeps old (m.keyed userId old hold ▸ hold) rfl rfl)
  | authenticate now later token email password =>
      simp only [written] at h
      split at h
      next user' token' hsuccess =>
        cases h
        obtain ⟨old, hold, -, -, -, rfl⟩ := authenticate_success hsuccess
        have hid : old.id = (old.loggedIn later).id := rfl
        exact .inr (hkeeps old (hid ▸ hold) rfl rfl)
      next => cases h
  | completeMfaLogin now later token userId code =>
      simp only [written] at h
      split at h
      next user' token' hsuccess =>
        cases h
        rcases m.completeMfaLogin_cases lib now later token userId code with
          ⟨-, hnot, -⟩ | ⟨old, secret, hold, -, -, -, -, hres⟩
        · exact absurd hsuccess (hnot _ _)
        · rw [hres] at hsuccess
          cases hsuccess
          exact .inr (hkeeps old (m.keyed userId old hold ▸ hold) rfl rfl)
      next => cases h

/-- Only a call that gives the role of a SuperAdmin makes a SuperAdmin. -/
theorem superior_step {m m' : UserManager} {a : UserAction} (h : m.step lib a = some m')
    {id : String} (hsuperior : m'.Superior id) : m.Superior id ∨ a.Promotes id := by
  rcases step_cases h with ⟨-, hsame⟩ | ⟨user, hwritten, hchange⟩
  · refine .inl ?_
    unfold Superior userRole at hsuperior ⊢
    rwa [hsame.users, hsame.storage] at hsuperior
  -- A user was written, so the role is an old one or that of the user.
  · have hcases : m.Superior id ∨ user.id = id ∧ user.role = .superAdmin := by
      rcases hchange with hupdates | hadds
      · exact superior_of_written hupdates.users hupdates.storage hsuperior
      · exact superior_of_written hadds.users hadds.storage hsuperior
    rcases hcases with hold | ⟨rfl, hrole⟩
    · exact .inl hold
    · exact (promotes_of_written hwritten hrole).symm

/-- A restart makes nobody a SuperAdmin. -/
theorem superior_restart {m : UserManager} {loader : UserLoader} {rows : Table UserRow}
    (hrows : m.storage = some rows) {id : String}
    (h : (withStorageAndSecrets loader rows).Superior id) : m.Superior id := by
  rcases h with hrole | ⟨rows', hrows', hrow⟩
  · obtain ⟨user, huser, hrole⟩ := Option.map_eq_some_iff.mp hrole
    -- What is found in the store after the start stands in a row.
    have hfill : ∀ (users : List User) (m : DashMap String User),
        (users.foldl (fun m user => m.insert user.id user) m).lookup id = some user →
          (user ∈ users ∧ user.id = id) ∨ m.lookup id = some user := by
      intro users
      induction users with
      | nil => exact fun _ h => .inr h
      | cons first users ih =>
          intro m h
          rcases ih _ h with ⟨hmem, hid⟩ | hold
          · exact .inl ⟨List.mem_cons_of_mem _ hmem, hid⟩
          · rcases DashMap.lookup_insert_cases hold with ⟨rfl, rfl⟩ | ⟨-, hold⟩
            · exact .inl ⟨List.mem_cons_self, rfl⟩
            · exact .inr hold
    rcases hfill _ _ huser with ⟨hmem, hid⟩ | hnone
    · obtain ⟨row, hrow, rfl⟩ := List.mem_map.mp hmem
      exact .inr ⟨rows, hrows, row, hrow, hid, (UserRole.ofText_eq_superAdmin row.role).mp hrole⟩
    · simp at hnone
  · exact .inr ⟨rows', Option.some.inj hrows' ▸ hrows, hrow⟩

end UserManager

/-- A handler makes at most one call of the user store. -/
theorem AuthRoute.handle_users (lib : UserLib) (users : UserManager) (now : ℕ) (info : SessionInfo)
    (route : AuthRoute) :
    (route.handle lib users now info).1 = users ∨ ∃ a, route.userAction now info = some a ∧
      users.step lib a = some (route.handle lib users now info).1 := by
  cases route with
  | mfaEnroll secret => exact .inr ⟨_, rfl, rfl⟩
  | mfaVerify code => exact .inr ⟨_, rfl, rfl⟩
  | adminUpdateRole target role =>
      simp only [handle, userAction]
      cases hrole : UserRole.parse role with
      | none => exact .inl rfl
      | some role =>
          refine .inr ⟨_, rfl, ?_⟩
          simp only [UserManager.step]
          split <;> rename_i heq <;> rw [heq]
  | adminDisableUser target =>
      refine .inr ⟨_, rfl, ?_⟩
      simp only [handle, UserManager.step]
      split <;> rename_i heq <;> rw [heq]
  | adminDisableMfa target => exact .inr ⟨_, rfl, rfl⟩
  | _ => exact .inl rfl

/-- A handler makes a SuperAdmin only of the user it is to give that role to. -/
theorem AuthRoute.superior_handle {users : UserManager} {now : ℕ} {info : SessionInfo}
    {route : AuthRoute} {id : String} (h : (route.handle lib users now info).1.Superior id) :
    users.Superior id ∨
      ∃ role, route = .adminUpdateRole id role ∧ UserRole.parse role = some .superAdmin := by
  rcases route.handle_users lib users now info with hsame | ⟨a, ha, hstep⟩
  · exact .inl (hsame ▸ h)
  · rcases UserManager.superior_step hstep h with hold | hpromotes
    · exact .inl hold
    · refine .inr ?_
      cases route with
      | adminUpdateRole target role =>
          obtain ⟨role', hrole, rfl⟩ := Option.map_eq_some_iff.mp ha
          obtain ⟨rfl, rfl⟩ := hpromotes
          exact ⟨role, rfl, hrole⟩
      | _ => cases ha <;> cases hpromotes

/-- A user creation makes a SuperAdmin only of the new user, and answers so. -/
theorem superior_createUser {cfg : RegistrationPolicy} {m : UserManager} {id : String} {now : ℕ}
    {passwordHash : String} {body : CreateUserRequest} (hnew : m.users.lookup id = none)
    {id' : String}
    (h : (createUser lib cfg m id now passwordHash body).2.Superior id') :
    m.Superior id' ∨ id' = id ∧ UserRole.parse body.role = some .superAdmin ∧
      (createUser lib cfg m id now passwordHash body).1.status = 201 := by
  unfold createUser at h ⊢
  split_ifs at h ⊢
  · exact .inl h
  · exact .inl h
  · exact .inl h
  · cases hrole : UserRole.parse body.role with
    | none =>
        rw [hrole] at h
        exact .inl h
    | some role =>
        rw [hrole] at h
        have hstep : m.step lib (.register id now passwordHash body.email body.username role) =
            some (m.register lib id now passwordHash body.email body.username role).2 := by
          simp [UserManager.step, hnew]
        cases hregister : m.register lib id now passwordHash body.email body.username role with
        | mk res m' =>
            rw [hregister] at hstep
            cases res with
            | error e =>
                simp only [hregister] at h ⊢
                rcases UserManager.superior_step hstep h with hold | ⟨rfl, rfl⟩
                · exact .inl hold
                -- A registration that fails leaves the store as it is.
                · simp only [UserManager.register] at hregister
                  split at hregister
                  next =>
                    cases hregister
                    exact .inl h
                  next => cases hregister
            | ok user =>
                simp only [hregister] at h ⊢
                rcases UserManager.superior_step hstep h with hold | ⟨rfl, rfl⟩
                · exact .inl hold
                · exact .inr ⟨rfl, rfl, rfl⟩

end Roles

/-- Who may be a SuperAdmin after what has happened: a root, a user who was created as one, or a
user to whom somebody entitled before gave the role. -/
inductive Entitled (root : String → Prop) : List AuthorityEvent → String → Prop
  | root {events : List AuthorityEvent} {id : String} : root id → Entitled root events id
  | created {events : List AuthorityEvent} {id : String} :
      Entitled root (.created id :: events) id
  | promoted {events : List AuthorityEvent} {actor target role : String} :
      Entitled root events actor → UserRole.parse role = some .superAdmin →
        Entitled root (.acted actor (.adminUpdateRole target role) :: events) target
  | older {events : List AuthorityEvent} {event : AuthorityEvent} {id : String} :
      Entitled root events id → Entitled root (event :: events) id

/-- Every use of the rights of a SuperAdmin was made by somebody who was entitled before. -/
def Justified (root : String → Prop) : List AuthorityEvent → Prop
  | [] => True
  | .created _ :: events => Justified root events
  | .acted actor _ :: events => Entitled root events actor ∧ Justified root events

/-- Without a root and without a user created as a SuperAdmin, nobody is entitled. -/
theorem not_entitled {root : String → Prop} (hroot : ∀ id, ¬ root id)
    {events : List AuthorityEvent} (hevents : ∀ id, .created id ∉ events) (id : String) :
    ¬ Entitled root events id := by
  intro h
  induction h with
  | root hid => exact hroot _ hid
  | created => exact hevents _ List.mem_cons_self
  | promoted _ _ ih => exact ih fun id hmem => hevents id (List.mem_cons_of_mem _ hmem)
  | older _ ih => exact ih fun id hmem => hevents id (List.mem_cons_of_mem _ hmem)

/-- Whether the handler of an admin route runs next for a user. -/
def AuthTask.ready (userId : String) (task : AuthTask) : Bool :=
  task.route.admin && match task.stage with
    | .authorized info => info.userId = userId
    | .validating _ | .admitted _ | .revoking _ => false

namespace AuthScope

/-- How a step changes the requests under way: whoever gets past `RequireRole` is a SuperAdmin. -/
def TasksOk (s s' : AuthScope) : Prop :=
  s'.tasks = s.tasks ∨ s'.tasks = ∅ ∨ ∃ id x, s'.tasks = s.tasks.put id x ∧
    ∀ userId, ∀ task ∈ x, task.ready userId = true →
      (∃ old ∈ s.tasks.lookup id, old.ready userId = true) ∨
        s.users.userRole userId = some .superAdmin

/-- What a step does to the roles, the history and the requests under way. -/
inductive Effect (s s' : AuthScope) : Prop
  | quiet (events : s'.events = s.events)
      (superior : ∀ id, s'.users.Superior id → s.users.Superior id) (tasks : TasksOk s s')
  | created (id : String) (events : s'.events = .created id :: s.events)
      (superior : ∀ id', s'.users.Superior id' → s.users.Superior id' ∨ id' = id)
      (tasks : s'.tasks = s.tasks)
  | acted (id : ℕ) (task : AuthTask) (userId : String) (x : Option AuthTask)
      (lookup : s.tasks.lookup id = some task) (ready : task.ready userId = true)
      (events : s'.events = .acted userId task.route :: s.events)
      (superior : ∀ id', s'.users.Superior id' → s.users.Superior id' ∨
        ∃ role, task.route = .adminUpdateRole id' role ∧ UserRole.parse role = some .superAdmin)
      (tasks : s'.tasks = s.tasks.put id x) (next : ∀ task' ∈ x, ∀ u, task'.ready u = false)

variable {lib : UserLib} {hashToken : String → String}

/-- A call of the user store that gives nobody a role, under a step that touches nothing else. -/
theorem Effect.of_user_step {s s' : AuthScope} {a : UserAction}
    (hstep : s.users.step lib a = some s'.users) (ha : ∀ id, ¬ a.Promotes id)
    (hevents : s'.events = s.events) (htasks : TasksOk s s') : Effect s s' :=
  .quiet hevents (fun id h => (UserManager.superior_step hstep h).resolve_right (ha id)) htasks

/-- The end of an authentication. -/
theorem effect_authenticated {s : AuthScope} {id : ℕ} {ip userAgent : String} {ttlSecs : ℕ}
    {res : AuthResult × UserManager} {a : UserAction} (hstep : s.users.step lib a = some res.2)
    (ha : ∀ id, ¬ a.Promotes id) : Effect s (s.authenticated id ip userAgent ttlSecs res) := by
  obtain ⟨result, users⟩ := res
  cases result with
  | success user token => exact .of_user_step hstep ha rfl (.inl rfl)
  | _ => exact .of_user_step hstep ha rfl (.inl rfl)

/-- The answer of the session store to a request that waits for it lets nobody past
`RequireRole`. -/
theorem not_ready_validated {m : SessionManager} {task task' : AuthTask} {proc : SessionProc}
    (h : task.validated m proc = some task') (userId : String)
    (hready : task'.ready userId = true) : task.ready userId = true := by
  unfold AuthTask.validated at h
  split at h
  next =>
    split at h
    next =>
      cases h
      simp [AuthTask.ready] at hready
    next => cases h
    next =>
      cases h
      exact hready
  next =>
    cases h
    exact hready

/-- What a step does. -/
theorem effect_step {s s' : AuthScope} {a : AuthScopeAction}
    (h : s.step lib hashToken a = some s') : Effect s s' := by
  cases a with
  | login id now later token email password ip userAgent ttlSecs =>
      simp only [step] at h
      split at h
      next => cases h
      next =>
        cases h
        have hstep : s.users.step lib (.authenticate now later token email password) =
            some (s.users.authenticate lib now later token email password).2 := rfl
        exact effect_authenticated hstep fun _ h => h
  | completeMfa id now later token userId code ip userAgent ttlSecs =>
      simp only [step] at h
      split at h
      next => cases h
      next =>
        cases h
        have hstep : s.users.step lib (.completeMfaLogin now later token userId code) =
            some (s.users.completeMfaLogin lib now later token userId code).2 := rfl
        exact effect_authenticated hstep fun _ h => h
  | create id =>
      obtain ⟨o, -, hcall⟩ := Option.bind_eq_some_iff.mp h
      obtain ⟨system, -, rfl⟩ := call_eq hcall
      exact .quiet rfl (fun _ h => h) (.inl rfl)
  | createUser cfg id now passwordHash body =>
      simp only [step] at h
      split at h
      next => cases h
      next hnew =>
        cases h
        have hsuperior := fun id'
          (h : (XiraNet.createUser lib cfg s.users id now passwordHash body).2.Superior id') =>
            superior_createUser (Option.not_isSome_iff_eq_none.mp hnew) h
        -- The history notes the creation only if the user was made with that role.
        by_cases hrole : (XiraNet.createUser lib cfg s.users id now passwordHash body).1.status =
            201 ∧ UserRole.parse body.role = some .superAdmin
        · exact .created id (if_pos hrole)
            (fun id' h => (hsuperior id' h).imp_right fun h => h.1) rfl
        · refine .quiet (if_neg hrole) (fun id' h => ?_) (.inl rfl)
          exact (hsuperior id' h).resolve_right fun h => hrole ⟨h.2.2, h.2.1⟩
  | request id req route =>
      simp only [step] at h
      split at h
      next =>
        cases h
        exact .quiet rfl (fun _ h => h) (.inl rfl)
      next token _ =>
        split at h
        next => cases h
        next =>
          obtain ⟨system, -, rfl⟩ := call_eq h
          refine .quiet rfl (fun _ h => h) (.inr (.inr ⟨id, some _, rfl, ?_⟩))
          rintro userId task ⟨⟩ hready
          simp [AuthTask.ready] at hready
  | requireRole id =>
      obtain ⟨task, hlookup, h⟩ := Option.bind_eq_some_iff.mp h
      split at h
      next info hstage _ =>
        split at h
        next hadmin =>
          split at h
          next hforward =>
            cases h
            refine .quiet rfl (fun _ h => h) (.inr (.inr ⟨id, some _, rfl, ?_⟩))
            rintro userId task' ⟨⟩ hready
            obtain rfl : info.userId = userId := by
              simpa [AuthTask.ready, hadmin] using hready
            -- `RequireRole` has found the role.
            refine .inr ?_
            simp only [XiraNet.requireRole] at hforward
            split at hforward
            next => cases hforward
            next role hrole =>
              split at hforward
              next hsatisfies =>
                rw [hrole, (UserRole.satisfies_superAdmin role).mp hsatisfies]
              next => cases hforward
          next =>
            cases h
            refine .quiet rfl (fun _ h => h) (.inr (.inr ⟨id, none, rfl, ?_⟩))
            rintro userId task' ⟨⟩
        next hadmin =>
          cases h
          refine .quiet rfl (fun _ h => h) (.inr (.inr ⟨id, some _, rfl, ?_⟩))
          rintro userId task' ⟨⟩ hready
          simp [AuthTask.ready, hadmin] at hready
      next => cases h
  | handle id now =>
      obtain ⟨task, hlookup, h⟩ := Option.bind_eq_some_iff.mp h
      split at h
      next info hstage =>
        obtain ⟨husers, hevents, htasks⟩ := handle_eq h
        have hsuperior : ∀ id', s'.users.Superior id' → s.users.Superior id' ∨
            ∃ role, task.route = .adminUpdateRole id' role ∧
              UserRole.parse role = some .superAdmin := by
          intro id' h
          rw [husers] at h
          exact AuthRoute.superior_handle h
        -- The request ends or waits for `invalidate_all`, and its handler does not run again.
        obtain ⟨x, hput, hnext⟩ : ∃ x, s'.tasks = s.tasks.put id x ∧
            ∀ task' ∈ x, ∀ u, AuthTask.ready u task' = false := by
          rcases htasks with herase | ⟨target, hinsert⟩
          · exact ⟨none, herase, by rintro _ ⟨⟩⟩
          · refine ⟨some _, hinsert, ?_⟩
            rintro task' ⟨⟩ u
            simp [AuthTask.ready]
        by_cases hadmin : task.route.admin = true
        · refine .acted id task info.userId x hlookup ?_ ?_ hsuperior hput hnext
          · simp [AuthTask.ready, hadmin, hstage]
          · rw [hevents, note, if_pos hadmin]
        -- The other routes leave the history as it is, and give no role.
        · refine .quiet ?_ (fun id' h => (hsuperior id' h).resolve_right ?_)
            (.inr (.inr ⟨id, x, hput, fun u task' hmem hready => ?_⟩))
          · rw [hevents, note, if_neg hadmin]
          · rintro ⟨role, hroute, -⟩
            exact hadmin (hroute ▸ rfl)
          · rw [hnext task' hmem u] at hready
            cases hready
      next => cases h
  | revoke id =>
      obtain ⟨task, hlookup, h⟩ := Option.bind_eq_some_iff.mp h
      split at h
      next target _ =>
        obtain ⟨system, -, rfl⟩ := call_eq h
        refine .quiet rfl (fun _ h => h) (.inr (.inr ⟨id, none, rfl, ?_⟩))
        rintro userId task' ⟨⟩
      next => cases h
  | advance id =>
      obtain ⟨proc, -, h⟩ := Option.bind_eq_some_iff.mp h
      obtain ⟨system, -, rfl⟩ := Option.map_eq_some_iff.mp h
      refine .quiet rfl (fun _ h => h)
        (.inr (.inr ⟨id, _, rfl, fun userId task' hmem hready => ?_⟩))
      -- A validation that ends here leads to `RequireRole`, and nobody past it.
      obtain ⟨task, hlookup, hvalidated⟩ := Option.bind_eq_some_iff.mp hmem
      exact .inl ⟨task, hlookup, not_ready_validated hvalidated userId hready⟩
  | background action =>
      cases action with
      | tick now =>
          obtain ⟨system, -, rfl⟩ := Option.map_eq_some_iff.mp h
          exact .quiet rfl (fun _ h => h) (.inl rfl)
      | visit id hashed =>
          obtain ⟨system, -, rfl⟩ := Option.map_eq_some_iff.mp h
          exact .quiet rfl (fun _ h => h) (.inl rfl)
      | call id call =>
          simp only [step] at h
          split at h
          next => cases h
          next =>
            obtain ⟨system, -, rfl⟩ := call_eq h
            exact .quiet rfl (fun _ h => h) (.inl rfl)
      | advance id => cases h
      | restart maxSessions => cases h
  | restart loader maxSessions =>
      obtain ⟨rows, hrows, h⟩ := Option.bind_eq_some_iff.mp h
      obtain ⟨system, -, rfl⟩ := Option.map_eq_some_iff.mp h
      exact .quiet rfl (fun _ h => UserManager.superior_restart hrows h) (.inr (.inl rfl))

/-- The invariant: SuperAdmins and those past `RequireRole` are entitled, and so were all who have
used the rights of a SuperAdmin. -/
structure Authority (root : String → Prop) (s : AuthScope) : Prop where
  superior : ∀ id, s.users.Superior id → Entitled root s.events id
  ready : ∀ id task userId, s.tasks.lookup id = some task → task.ready userId = true →
    Entitled root s.events userId
  events : Justified root s.events

/-- A step keeps the invariant. -/
theorem authority_step (root : String → Prop) (s : AuthScope) (a : AuthScopeAction) (s' : AuthScope)
    (hs : s.Authority root) (_ : Machine.unrestricted s a) (h : s.step lib hashToken a = some s') :
    s'.Authority root := by
  cases effect_step h with
  | quiet hevents hsuperior htasks =>
      refine ⟨fun id hid => ?_, fun id task userId hlookup hready => ?_, ?_⟩
      · rw [hevents]
        exact hs.superior id (hsuperior id hid)
      · rw [hevents]
        rcases htasks with hsame | hempty | ⟨id', x, hput, hx⟩
        · exact hs.ready id task userId (hsame ▸ hlookup) hready
        · rw [hempty] at hlookup
          simp at hlookup
        -- The request that has moved was ready before, or its user is a SuperAdmin now.
        · rw [hput, DashMap.lookup_put] at hlookup
          split at hlookup
          next =>
            rcases hx userId task hlookup hready with ⟨old, hold, hready⟩ | hrole
            · exact hs.ready id' old userId hold hready
            · exact hs.superior userId (.inl hrole)
          next => exact hs.ready id task userId hlookup hready
      · rw [hevents]
        exact hs.events
  | created id hevents hsuperior htasks =>
      refine ⟨fun id' hid => ?_, fun id' task userId hlookup hready => ?_, ?_⟩
      · rw [hevents]
        rcases hsuperior id' hid with hold | rfl
        · exact .older (hs.superior id' hold)
        · exact .created
      · rw [hevents]
        exact .older (hs.ready id' task userId (htasks ▸ hlookup) hready)
      · rw [hevents]
        exact hs.events
  | acted id task userId x hlookup hready hevents hsuperior htasks hnext =>
      -- Whoever acts was entitled before, which is what the history has to say.
      have hactor := hs.ready id task userId hlookup hready
      refine ⟨fun id' hid => ?_, fun id' task' userId' hlookup' hready' => ?_, ?_⟩
      · rw [hevents]
        rcases hsuperior id' hid with hold | ⟨role, hroute, hrole⟩
        · exact .older (hs.superior id' hold)
        · rw [hroute]
          exact .promoted hactor hrole
      · rw [hevents]
        rw [htasks, DashMap.lookup_put] at hlookup'
        split at hlookup'
        next =>
          rw [hnext task' hlookup' userId'] at hready'
          cases hready'
        next => exact .older (hs.ready id' task' userId' hlookup' hready')
      · rw [hevents]
        exact ⟨hactor, hs.events⟩

/-- The number of times the handler of an admin route has run for a user. -/
def acts (userId : String) (s : AuthScope) : ℕ :=
  s.events.countP fun event =>
    match event with
    | .acted actor _ => actor = userId
    | .created _ => false

/-- A step from a state in which a user is no SuperAdmin lets no further request of the user past
`RequireRole`, and the handlers that run use up those that are. -/
theorem acts_step (userId : String) (s : AuthScope) (a : AuthScopeAction) (s' : AuthScope)
    (hrole : s.users.userRole userId ≠ some .superAdmin) (h : s.step lib hashToken a = some s') :
    acts userId s' + DashMap.count s'.tasks (AuthTask.ready userId) ≤
      acts userId s + DashMap.count s.tasks (AuthTask.ready userId) := by
  cases effect_step h with
  | quiet hevents _ htasks =>
      have hacts : acts userId s' = acts userId s := by rw [acts, acts, hevents]
      have hcount : DashMap.count s'.tasks (AuthTask.ready userId) ≤
          DashMap.count s.tasks (AuthTask.ready userId) := by
        rcases htasks with hsame | hempty | ⟨id, x, hput, hx⟩
        · exact (congrArg (DashMap.count · _) hsame).le
        · rw [hempty, DashMap.count_empty]
          exact Nat.zero_le _
        · have hcount := DashMap.count_put s.tasks id x (AuthTask.ready userId)
          -- What is stored is ready only if what was there already was.
          have hle : x.toList.countP (AuthTask.ready userId) ≤
              (s.tasks.lookup id).toList.countP (AuthTask.ready userId) := by
            cases x with
            | none => exact Nat.zero_le _
            | some task =>
                by_cases hready : task.ready userId = true
                · obtain ⟨old, hold, hold'⟩ :=
                    (hx userId task rfl hready).resolve_right hrole
                  rw [Option.mem_def.mp hold]
                  simp [hready, hold']
                · simp [hready]
          rw [hput]
          omega
      omega
  | created id hevents _ htasks =>
      have hacts : acts userId s' = acts userId s := by simp [acts, hevents]
      rw [htasks, hacts]
  | acted id task actor x hlookup hready hevents _ htasks hnext =>
      have hcount := DashMap.count_put s.tasks id x (AuthTask.ready userId)
      have hnone : x.toList.countP (AuthTask.ready userId) = 0 := by
        cases x with
        | none => rfl
        | some task' => simp [hnext task' rfl userId]
      rw [htasks]
      rw [hlookup, hnone, Option.toList_some, List.countP_singleton] at hcount
      have hacts : acts userId s' = acts userId s + if actor = userId then 1 else 0 := by
        simp [acts, hevents, List.countP_cons]
      -- The handler that has run counts as one more use, and as one request less that is ready.
      by_cases hactor : actor = userId
      · rw [← hactor] at hcount hacts ⊢
        rw [if_pos hready] at hcount
        rw [if_pos rfl] at hacts
        omega
      · rw [if_neg hactor] at hacts
        omega

/-- As long as a user is no SuperAdmin, whatever else happens, the handlers of admin routes run for
the user no more often than there were requests of the user past `RequireRole` at the start. -/
theorem acts_le_of_runs (lib : UserLib) (hashToken : String → String) (userId : String)
    {s s' : AuthScope} {as : List AuthScopeAction}
    (hrun : (machine lib hashToken).Runs
      (fun s _ => s.users.userRole userId ≠ some .superAdmin) s as s') :
    acts userId s' ≤ acts userId s + DashMap.count s.tasks (AuthTask.ready userId) := by
  have hle : acts userId s' + DashMap.count s'.tasks (AuthTask.ready userId) ≤
      acts userId s + DashMap.count s.tasks (AuthTask.ready userId) := by
    -- Uses and ready requests together do not grow.
    induction hrun with
    | nil => exact le_rfl
    | cons hrole hstep _ ih => exact ih.trans (acts_step userId _ _ _ hrole hstep)
  exact (Nat.le_add_right _ _).trans hle

/-- The bound is reached: the user is demoted while a request of the user is past `RequireRole`. -/
theorem acts_twoRequests :
    ∃ s s', s.users.userRole "u" = some .viewer ∧ acts "u" s = 0 ∧ acts "u" s' = 1 ∧
      acts "u" s' ≤ acts "u" s + DashMap.count s.tasks (AuthTask.ready "u") := by
  obtain ⟨s, s', hrole, hacts, hacts', hs'⟩ : ∃ s s', s.users.userRole "u" = some .viewer ∧
      acts "u" s = 0 ∧ acts "u" s' = 1 ∧
        (machine AuthHistory.simpleLib id).exec
          (fun s _ => s.users.userRole "u" ≠ some .superAdmin) s [.handle 4 0] = some s' := by
    have hdemoted : ∃ s, (machine AuthHistory.simpleLib id).exec Machine.unrestricted
        (initial noUsers 5 0 false) (twoRequests ++ [.handle 3 0]) = some s ∧
          s.users.userRole "u" = some .viewer ∧ acts "u" s = 0 ∧
            ∃ s', (machine AuthHistory.simpleLib id).exec
              (fun s _ => s.users.userRole "u" ≠ some .superAdmin) s [.handle 4 0] = some s' ∧
                acts "u" s' = 1 := by
      refine ⟨_, rfl, ?_, ?_, _, rfl, ?_⟩ <;> decide
    obtain ⟨s, -, hrole, hacts, s', hs', hacts'⟩ := hdemoted
    exact ⟨s, s', hrole, hacts, hacts', hs'⟩
  exact ⟨s, s', hrole, hacts, hacts',
    acts_le_of_runs AuthHistory.simpleLib id "u" (Machine.runs_of_exec hs')⟩

end AuthScope

end XiraNet

import XiraNet.Identity.Authenticator
import XiraNet.Identity.SessionMachine
import XiraNet.Identity.SessionOps

/-!
# Disabling a user

Concurrent logins and `admin_disable_user` calls. A login is an authentication on the user store
and then a `create` on the session store; disabling a user clears the flag in the user store and
then calls `invalidate_all`. The two stores have no common lock.

A login of the user that is between the two when `invalidate_all` copies the user's index is
overtaken: the copy need not list its token.

* `Sealed`: a user who is barred from logging in, all of whose logins under way are overtaken.
* `locked_of_runs`: if an overtaken login inserts its session only while the `invalidate_all` has
  its token still before it, and the index lists every live session when it is copied, then no
  session of a disabled user validates.
* `locked_fails`: a login that was authenticated before opens its session afterwards.
-/

namespace XiraNet

/-- The session of an authenticated user that is to be created. -/
structure OpeningSession where
  userId : String
  token : String
  ip : String
  userAgent : String
  ttlSecs : ℕ
  deriving DecidableEq, Repr

/-- The stores, and the requests that are between their two steps. -/
structure DisableState where
  users : UserManager
  system : SessionState
  /-- The logins that are authenticated and have not called `create`. -/
  opening : DashMap ℕ OpeningSession
  /-- The `admin_disable_user` calls that have not returned, with their user. -/
  disabling : DashMap ℕ String
  /-- The users for whom an `admin_disable_user` has returned. -/
  disabled : List String
  /-- The logins under way that an `invalidate_all` of their user has overtaken. -/
  overtaken : List ℕ

/-- One step of a request, under the id of the request. -/
inductive DisableAction
  | tick (now : ℕ)
  /-- `login` authenticates. -/
  | login (id now later : ℕ) (token email password ip userAgent : String) (ttlSecs : ℕ)
  /-- `complete_mfa` authenticates. -/
  | completeMfa (id now later : ℕ) (token userId code ip userAgent : String) (ttlSecs : ℕ)
  /-- An authenticated login calls `create`. -/
  | create (id : ℕ)
  /-- `admin_disable_user` calls `disable_user`. -/
  | disableUser (id : ℕ) (userId : String)
  /-- `admin_disable_user` calls `invalidate_all`. -/
  | invalidateAll (id : ℕ)
  /-- A `create` or `invalidate_all` runs its next block. -/
  | advance (id : ℕ)
  deriving DecidableEq, Repr

namespace DisableState

/-- Whether an id is in use. -/
def busy (s : DisableState) (id : ℕ) : Bool :=
  (s.opening.lookup id).isSome || (s.disabling.lookup id).isSome ||
    (s.system.procs.lookup id).isSome

/-- The logins of a user that are authenticated and have not inserted their session. -/
def underWay (s : DisableState) (userId : String) : List ℕ :=
  (s.opening.keys.filter fun id => decide (∃ o ∈ s.opening.lookup id, o.userId = userId)) ++
    s.system.procs.keys.filter fun id =>
      decide (∃ proc ∈ s.system.procs.lookup id, ∃ stored ∈ proc.creating, stored.userId = userId)

/-- The logins that the next block of a session operation overtakes. -/
def overtakes (s : DisableState) (proc : SessionProc) : List ℕ :=
  match proc.snapshotting with
  | some userId => s.underWay userId
  | none => []

/-- An authentication has ended: a success goes on to `create`. -/
def authenticated (s : DisableState) (id : ℕ) (ip userAgent : String) (ttlSecs : ℕ)
    (res : AuthResult × UserManager) : DisableState :=
  match res with
  | (.success user token, users) =>
      { s with users, opening := s.opening.insert id ⟨user.id, token, ip, userAgent, ttlSecs⟩ }
  | (_, users) => { s with users }

variable (lib : UserLib) (hashToken : String → String)

/-- One step. -/
def step (s : DisableState) : DisableAction → Option DisableState
  | .tick now => (s.system.step hashToken (.tick now)).map fun system => { s with system }
  | .login id now later token email password ip userAgent ttlSecs =>
      if s.busy id then none
      else some (s.authenticated id ip userAgent ttlSecs
        (s.users.authenticate lib now later token email password))
  | .completeMfa id now later token userId code ip userAgent ttlSecs =>
      if s.busy id then none
      else some (s.authenticated id ip userAgent ttlSecs
        (s.users.completeMfaLogin lib now later token userId code))
  | .create id =>
      (s.opening.lookup id).bind fun o =>
        (s.system.step hashToken
          (.call id (.create o.userId o.token o.ip o.userAgent o.ttlSecs))).map fun system =>
            { s with system, opening := s.opening.erase id }
  | .disableUser id userId =>
      if s.busy id then none
      else
        match s.users.disableUser lib userId with
        | (true, users) => some { s with users, disabling := s.disabling.insert id userId }
        | (false, users) => some { s with users }
  | .invalidateAll id =>
      (s.disabling.lookup id).bind fun userId =>
        (s.system.step hashToken (.call id (.invalidateAll userId))).map fun system =>
          { s with system }
  | .advance id =>
      (s.system.procs.lookup id).bind fun proc =>
        (s.system.step hashToken (.advance id)).map fun system =>
          let overtaken := s.overtakes proc ++ s.overtaken
          -- With the end of its `invalidate_all` an `admin_disable_user` returns.
          match s.disabling.lookup id, system.procs.lookup id with
          | some userId, none =>
              { s with
                system
                overtaken
                disabling := s.disabling.erase id
                disabled := userId :: s.disabled }
          | _, _ => { s with system, overtaken }

/-- Any two stores, before any request. -/
def initial (users : UserManager) (manager : SessionManager) (now : ℕ) (issued : List String) :
    DisableState where
  users
  system := .initial manager now issued
  opening := ∅
  disabling := ∅
  disabled := []
  overtaken := []

/-- Every interleaving of logins and `admin_disable_user` calls. -/
def machine : Machine DisableState DisableAction := ⟨step lib hashToken⟩

/-- No session of a user validates after an `admin_disable_user` for the user has returned. -/
def Locked (s : DisableState) : Prop :=
  ∀ userId ∈ s.disabled, ∀ token expectedIp session,
    (s.system.manager.validateWithRequest hashToken s.system.now token expectedIp).1 =
      some session → session.userId ≠ userId

/-- Whether a session of the user that is inserted now is still removed: no `admin_disable_user`
for the user has returned, and those that have copied the index have the token before them. -/
def Met (s : DisableState) (userId token : String) : Prop :=
  userId ∉ s.disabled ∧ ∀ proc ∈ s.system.procs.values, ∀ walk ∈ proc.walking,
    walk.1 = userId → token ∈ walk.2

/-- The steps that keep disabled users out: an overtaken login inserts its session only if it is
still removed, and when `invalidate_all` copies the index it lists every live session. -/
def KeepsLocked (s : DisableState) : DisableAction → Prop
  | .advance id => ∀ proc ∈ s.system.procs.lookup id,
      (∀ stored ∈ proc.inserting, id ∈ s.overtaken → s.Met stored.userId stored.token) ∧
        ∀ userId ∈ proc.snapshotting,
          ∀ t ∈ s.system.manager.liveSessions s.system.now userId,
            t ∈ s.system.manager.index userId
  | _ => True

instance (s : DisableState) (userId token : String) : Decidable (s.Met userId token) :=
  inferInstanceAs (Decidable (_ ∧ _))

instance (s : DisableState) (a : DisableAction) : Decidable (s.KeepsLocked a) := by
  unfold KeepsLocked
  split <;> infer_instance

/-- A user who may not log in. -/
def Barred (s : DisableState) (userId : String) : Prop :=
  ∀ access ∈ s.users.access userId, access.enabled = false

/-- A barred user all of whose logins under way are overtaken. -/
structure Sealed (s : DisableState) (userId : String) : Prop where
  barred : s.Barred userId
  opening : ∀ id o, s.opening.lookup id = some o → o.userId = userId → id ∈ s.overtaken
  creating : ∀ id proc, s.system.procs.lookup id = some proc → ∀ stored ∈ proc.creating,
    stored.userId = userId → id ∈ s.overtaken

/-- What holds of an `invalidate_all` that has copied the index: it belongs to an
`admin_disable_user`, its user is sealed, and every live session of the user is before it. -/
structure WalkOk (s : DisableState) (id : ℕ) (userId : String) (left : List String) : Prop where
  disabling : s.disabling.lookup id = some userId
  sealed : s.Sealed userId
  live : ∀ t ∈ s.system.manager.liveSessions s.system.now userId, t ∈ left

/-- What the invariant says of a session operation under way. -/
def ProcOk (s : DisableState) (id : ℕ) : SessionProc → Prop
  | .createIndex _ => s.disabling.lookup id = none
  | .createEvict _ _ => s.disabling.lookup id = none
  | .createPersistEvicted _ _ _ _ => s.disabling.lookup id = none
  | .createPersist _ => s.disabling.lookup id = none
  | .userSnapshot userId => s.disabling.lookup id = some userId
  | .userDeactivate userId left => s.WalkOk id userId left
  | .userDelete userId hashed left => s.WalkOk id userId (hashed :: left)
  | .userRemove userId hashed left => s.WalkOk id userId (hashed :: left)
  | _ => False

/-- The invariant: disabled users are sealed and have no live session. -/
structure Inv (s : DisableState) : Prop where
  procs : ∀ id proc, s.system.procs.lookup id = some proc → s.ProcOk id proc
  openingFree : ∀ id o, s.opening.lookup id = some o → s.disabling.lookup id = none
  barred : ∀ id userId, s.disabling.lookup id = some userId → s.Barred userId
  disabled : ∀ userId ∈ s.disabled, s.Sealed userId ∧
    s.system.manager.liveSessions s.system.now userId = []

variable {lib hashToken}

/-- What a step may change: who is sealed stays sealed and gains only sessions that are still
removed, and whatever is under way afterwards was under way before or is as the invariant says. -/
structure Frame (s s' : DisableState) : Prop where
  barred : ∀ userId, s.Barred userId → s'.Barred userId
  sealed : ∀ userId, s.Sealed userId → s'.Sealed userId
  live : ∀ userId, s.Sealed userId →
    ∀ t ∈ s'.system.manager.liveSessions s'.system.now userId,
      t ∈ s.system.manager.liveSessions s.system.now userId ∨ s.Met userId t
  procs : ∀ id proc, s'.system.procs.lookup id = some proc →
    (s.system.procs.lookup id = some proc ∧ s'.disabling.lookup id = s.disabling.lookup id) ∨
      s'.ProcOk id proc
  openingFree : ∀ id o, s'.opening.lookup id = some o → s'.disabling.lookup id = none
  disabling : ∀ id userId, s'.disabling.lookup id = some userId →
    s.disabling.lookup id = some userId ∨ s'.Barred userId
  disabled : ∀ userId ∈ s'.disabled, userId ∈ s.disabled ∨
    s'.Sealed userId ∧ s'.system.manager.liveSessions s'.system.now userId = []

/-- A walk that a step does not move still has every live session before it. -/
theorem Frame.walk {s s' : DisableState} (h : Frame s s') {id : ℕ} {proc : SessionProc}
    (hproc : s.system.procs.lookup id = some proc)
    (hsame : s'.disabling.lookup id = s.disabling.lookup id) {userId : String}
    {left : List String} (hwalk : proc.walking = some (userId, left))
    (hok : s.WalkOk id userId left) : s'.WalkOk id userId left where
  disabling := hsame.trans hok.disabling
  sealed := h.sealed userId hok.sealed
  live := by
    intro t ht
    rcases h.live userId hok.sealed t ht with hold | hmet
    · exact hok.live t hold
    -- A new session of a sealed user is one that this walk has before it.
    · exact hmet.2 proc ((DashMap.mem_values_iff _ _).mpr ⟨id, hproc⟩) _ hwalk rfl

/-- A step within the frame keeps the invariant. -/
theorem Frame.inv {s s' : DisableState} (h : Frame s s') (hs : s.Inv) : s'.Inv where
  procs := by
    intro id proc hproc
    rcases h.procs id proc hproc with ⟨hold, hsame⟩ | hok
    · have hok := hs.procs id proc hold
      cases proc with
      | createIndex stored => exact hsame.trans hok
      | createEvict stored toEvict => exact hsame.trans hok
      | createPersistEvicted stored toEvict old snap => exact hsame.trans hok
      | createPersist stored => exact hsame.trans hok
      | userSnapshot userId => exact hsame.trans hok
      | userDeactivate userId left => exact h.walk hold hsame rfl hok
      | userDelete userId hashed left => exact h.walk hold hsame rfl hok
      | userRemove userId hashed left => exact h.walk hold hsame rfl hok
      | _ => exact False.elim hok
    · exact hok
  openingFree := h.openingFree
  barred := by
    intro id userId hdisabling
    rcases h.disabling id userId hdisabling with hold | hbarred
    · exact h.barred userId (hs.barred id userId hold)
    · exact hbarred
  disabled := by
    intro userId hmem
    rcases h.disabled userId hmem with hold | hnew
    · obtain ⟨hsealed, hnone⟩ := hs.disabled userId hold
      refine ⟨h.sealed userId hsealed, List.eq_nil_iff_forall_not_mem.mpr fun t ht => ?_⟩
      rcases h.live userId hsealed t ht with hlive | hmet
      · rw [hnone] at hlive
        cases hlive
      -- No session may be added any more once the user counts as disabled.
      · exact hmet.1 hold
    · exact hnew

/-- An id that is not in use has no part in anything. -/
theorem of_not_busy {s : DisableState} {id : ℕ} (h : s.busy id = false) :
    s.opening.lookup id = none ∧ s.disabling.lookup id = none ∧
      s.system.procs.lookup id = none := by
  simp only [busy, Bool.or_eq_false_iff, Option.isSome_eq_false_iff, Option.isNone_iff_eq_none]
    at h
  exact ⟨h.1.1, h.1.2, h.2⟩

/-- The end of an authentication: it succeeds only for an enabled user, who is not sealed. -/
theorem frame_authenticated {s : DisableState} (hs : s.Inv) {id : ℕ} (hfree : s.busy id = false)
    {ip userAgent : String} {ttlSecs : ℕ} {res : AuthResult × UserManager}
    (haccess : ∀ userId, res.2.access userId = s.users.access userId)
    (hsuccess : ∀ user token, res.1 = .success user token →
      ∃ old, s.users.users.lookup user.id = some old ∧ old.enabled = true) :
    Frame s (s.authenticated id ip userAgent ttlSecs res) := by
  obtain ⟨hopening, hdisabling, hproc⟩ := of_not_busy hfree
  obtain ⟨result, users⟩ := res
  have hbarred : ∀ s' : DisableState, s'.users = users → ∀ userId, s.Barred userId →
      s'.Barred userId := by
    rintro s' rfl userId hbarred access hmem
    exact hbarred access (haccess userId ▸ hmem)
  cases result with
  | success user token =>
      obtain ⟨old, hlookup, henabled⟩ := hsuccess user token rfl
      refine ⟨hbarred _ rfl, fun userId hsealed => ⟨hbarred _ rfl userId hsealed.barred, ?_,
        hsealed.creating⟩, fun _ _ _ ht => .inl ht, fun _ _ hproc => .inl ⟨hproc, rfl⟩, ?_,
        fun _ _ hold => .inl hold, fun _ hold => .inl hold⟩
      · intro id' o ho
        simp only [authenticated, DashMap.lookup_insert] at ho
        split at ho
        next =>
          cases ho
          rintro rfl
          -- The user is enabled, so a barred user has no new login.
          have := hsealed.barred old.access (by simp [UserManager.access, hlookup])
          rw [User.access, henabled] at this
          cases this
        next => exact hsealed.opening id' o ho
      · intro id' o ho
        simp only [authenticated, DashMap.lookup_insert] at ho
        split at ho
        next heq =>
          rw [heq]
          exact hdisabling
        next => exact hs.openingFree id' o ho
  | _ =>
      exact ⟨hbarred _ rfl, fun userId hsealed => ⟨hbarred _ rfl userId hsealed.barred,
        hsealed.opening, hsealed.creating⟩, fun _ _ _ ht => .inl ht,
        fun _ _ hproc => .inl ⟨hproc, rfl⟩, hs.openingFree, fun _ _ hold => .inl hold,
        fun _ hold => .inl hold⟩

/-- `disable_user` bars its user and nobody else is let in. -/
theorem frame_disableUser {s s' : DisableState} (hs : s.Inv) {id : ℕ} {userId : String}
    (h : s.step lib hashToken (.disableUser id userId) = some s') : Frame s s' := by
  simp only [step] at h
  split at h
  next => cases h
  next hbusy =>
    obtain ⟨hopening, hdisabling, hproc⟩ := of_not_busy (Bool.eq_false_iff.mpr hbusy)
    have haccess := fun id' => s.users.access_disableUser lib userId id'
    have hbarred : ∀ s' : DisableState, s'.users = (s.users.disableUser lib userId).2 →
        ∀ userId', s.Barred userId' ∨ userId' = userId → s'.Barred userId' := by
      intro s' husers userId' hwhy access hmem
      rw [husers, haccess] at hmem
      split at hmem
      next =>
        obtain ⟨old, -, rfl⟩ := Option.map_eq_some_iff.mp hmem
        rfl
      next hne => exact hwhy.resolve_right hne access hmem
    split at h
    next users heq =>
      cases h
      have husers : users = (s.users.disableUser lib userId).2 := by rw [heq]
      refine ⟨fun u hu => hbarred _ husers u (.inl hu), fun u hsealed =>
        ⟨hbarred _ husers u (.inl hsealed.barred), hsealed.opening, hsealed.creating⟩,
        fun _ _ _ ht => .inl ht, fun id' proc hproc' => .inl ⟨hproc', ?_⟩, fun id' o ho => ?_,
        fun id' u hu => ?_, fun _ hold => .inl hold⟩
      · rw [DashMap.lookup_insert, if_neg]
        rintro rfl
        rw [hproc] at hproc'
        cases hproc'
      · rw [DashMap.lookup_insert, if_neg]
        · exact hs.openingFree id' o ho
        · rintro rfl
          rw [hopening] at ho
          cases ho
      · rcases DashMap.lookup_insert_cases hu with ⟨-, rfl⟩ | ⟨-, hold⟩
        · exact .inr (hbarred _ husers _ (.inr rfl))
        · exact .inl hold
    next users heq =>
      cases h
      have husers : users = (s.users.disableUser lib userId).2 := by rw [heq]
      exact ⟨fun u hu => hbarred _ husers u (.inl hu), fun u hsealed =>
        ⟨hbarred _ husers u (.inl hsealed.barred), hsealed.opening, hsealed.creating⟩,
        fun _ _ _ ht => .inl ht, fun _ _ hproc => .inl ⟨hproc, rfl⟩, hs.openingFree,
        fun _ _ hold => .inl hold, fun _ hold => .inl hold⟩

/-- A `create` starts for the user that its login authenticated. -/
theorem frame_create {s s' : DisableState} (hs : s.Inv) {id : ℕ}
    (h : s.step lib hashToken (.create id) = some s') : Frame s s' := by
  obtain ⟨o, ho, hcall⟩ := Option.bind_eq_some_iff.mp h
  obtain ⟨system, hsystem, rfl⟩ := Option.map_eq_some_iff.mp hcall
  obtain ⟨hproc, -, rfl⟩ := SessionState.step_call hsystem
  refine ⟨fun _ hbarred => hbarred, fun userId hsealed => ⟨hsealed.barred, ?_, ?_⟩,
    fun _ _ _ ht => .inl ht, fun id' proc hproc' => ?_, fun id' o' ho' => ?_,
    fun _ _ hold => .inl hold, fun _ hold => .inl hold⟩
  · intro id' o' ho'
    exact hsealed.opening id' o' (DashMap.lookup_erase_cases ho').2
  · intro id' proc hproc' stored hstored
    rcases DashMap.lookup_insert_cases hproc' with ⟨rfl, rfl⟩ | ⟨-, hold⟩
    · -- The login was overtaken before its `create` started, and it keeps its id.
      cases hstored
      exact fun huser => hsealed.opening _ o ho huser
    · exact hsealed.creating id' proc hold stored hstored
  · rcases DashMap.lookup_insert_cases hproc' with ⟨rfl, rfl⟩ | ⟨-, hold⟩
    · exact .inr (hs.openingFree _ o ho)
    · exact .inl ⟨hold, rfl⟩
  · exact hs.openingFree id' o' (DashMap.lookup_erase_cases ho').2

/-- An `invalidate_all` starts for the user of its `admin_disable_user`. -/
theorem frame_invalidateAll {s s' : DisableState} (hs : s.Inv) {id : ℕ}
    (h : s.step lib hashToken (.invalidateAll id) = some s') : Frame s s' := by
  obtain ⟨userId, huser, hcall⟩ := Option.bind_eq_some_iff.mp h
  obtain ⟨system, hsystem, rfl⟩ := Option.map_eq_some_iff.mp hcall
  obtain ⟨hproc, -, rfl⟩ := SessionState.step_call hsystem
  refine ⟨fun _ hbarred => hbarred, fun userId' hsealed => ⟨hsealed.barred, hsealed.opening, ?_⟩,
    fun _ _ _ ht => .inl ht, fun id' proc hproc' => ?_, hs.openingFree,
    fun _ _ hold => .inl hold, fun _ hold => .inl hold⟩
  · intro id' proc hproc' stored hstored
    rcases DashMap.lookup_insert_cases hproc' with ⟨-, rfl⟩ | ⟨-, hold⟩
    · cases hstored
    · exact hsealed.creating id' proc hold stored hstored
  · rcases DashMap.lookup_insert_cases hproc' with ⟨rfl, rfl⟩ | ⟨-, hold⟩
    · exact .inr huser
    · exact .inl ⟨hold, rfl⟩

/-- The state after a block of a session operation, before a finished `invalidate_all` is
noted. -/
def advanced (s : DisableState) (id : ℕ) (proc : SessionProc) : DisableState :=
  { s with
    system := { s.system with
      manager := (proc.advance s.system.manager s.system.now).1
      procs := s.system.procs.put id (proc.advance s.system.manager s.system.now).2 }
    overtaken := s.overtakes proc ++ s.overtaken }

/-- Sealed users stay sealed. -/
theorem sealed_advanced {s : DisableState} {id : ℕ} {proc : SessionProc}
    (hproc : s.system.procs.lookup id = some proc) {userId : String} (hsealed : s.Sealed userId) :
    (s.advanced id proc).Sealed userId := by
  refine ⟨hsealed.barred, fun id' o ho huser => ?_, fun id' proc' hproc' stored hstored huser => ?_⟩
  · exact List.mem_append_right _ (hsealed.opening id' o ho huser)
  · refine List.mem_append_right _ ?_
    simp only [advanced, DashMap.lookup_put] at hproc'
    split at hproc'
    next heq =>
      rw [heq]
      exact hsealed.creating id proc hproc stored (proc.creating_advance hproc' hstored) huser
    next => exact hsealed.creating id' proc' hproc' stored hstored huser

/-- The copy of the index seals the user: it overtakes every login under way. -/
theorem sealed_snapshot {s : DisableState} {id : ℕ} {proc : SessionProc} {userId : String}
    (hproc : s.system.procs.lookup id = some proc) (hsnapshot : proc.snapshotting = some userId)
    (hbarred : s.Barred userId) : (s.advanced id proc).Sealed userId := by
  have hovertakes : s.overtakes proc = s.underWay userId := by
    rw [overtakes, hsnapshot]
  refine ⟨hbarred, fun id' o ho huser => ?_, fun id' proc' hproc' stored hstored huser => ?_⟩
  · refine List.mem_append_left _ ?_
    rw [hovertakes, underWay, List.mem_append, List.mem_filter]
    refine .inl ⟨AList.mem_keys.mp (AList.lookup_isSome.mp ?_), ?_⟩
    · rw [show s.opening.lookup id' = some o from ho]
      rfl
    · exact decide_eq_true ⟨o, ho, huser⟩
  · obtain ⟨old, hold, hcreating⟩ : ∃ old, s.system.procs.lookup id' = some old ∧
        stored ∈ old.creating := by
      simp only [advanced, DashMap.lookup_put] at hproc'
      split at hproc'
      next heq =>
        rw [heq]
        exact ⟨proc, hproc, proc.creating_advance hproc' hstored⟩
      next => exact ⟨proc', hproc', hstored⟩
    refine List.mem_append_left _ ?_
    rw [hovertakes, underWay, List.mem_append, List.mem_filter, List.mem_filter]
    refine .inr ⟨AList.mem_keys.mp (AList.lookup_isSome.mp ?_), ?_⟩
    · rw [hold]
      rfl
    · exact decide_eq_true ⟨old, hold, stored, hcreating, huser⟩

/-- A block that is not an insertion adds no live session. -/
theorem live_advance {s : DisableState} {proc : SessionProc} (hproc : proc.inserting = none)
    {userId t : String}
    (ht : t ∈ (proc.advance s.system.manager s.system.now).1.liveSessions s.system.now userId) :
    t ∈ s.system.manager.liveSessions s.system.now userId := by
  rcases proc.fades_advance s.system.manager s.system.now with hfades | ⟨stored, hstored, -⟩
  · exact hfades.mem_liveSessions ht
  · rw [hproc] at hstored
    cases hstored

/-- Sealed users gain only sessions that are still removed. -/
theorem live_advanced {s : DisableState} {id : ℕ} {proc : SessionProc}
    (hproc : s.system.procs.lookup id = some proc) (hok : s.KeepsLocked (.advance id))
    {userId t : String} (hsealed : s.Sealed userId)
    (ht : t ∈ (s.advanced id proc).system.manager.liveSessions s.system.now userId) :
    t ∈ s.system.manager.liveSessions s.system.now userId ∨ s.Met userId t := by
  rcases proc.fades_advance s.system.manager s.system.now with hfades | ⟨stored, hstored, hres⟩
  · exact .inl (hfades.mem_liveSessions ht)
  · simp only [advanced, hres] at ht
    obtain ⟨session, hsession, huser, hlive⟩ := SessionManager.mem_liveSessions.mp ht
    rw [SessionManager.lookup_insertSession] at hsession
    split at hsession
    next heq =>
      -- The login is overtaken, since its user is sealed.
      cases hsession
      have hovertaken := hsealed.creating id proc hproc _ (proc.creating_of_inserting hstored) huser
      rw [heq, ← huser]
      exact .inr ((hok proc hproc).1 _ hstored hovertaken)
    next => exact .inl (SessionManager.mem_liveSessions.mpr ⟨session, hsession, huser, hlive⟩)

/-- A block of a walk leaves its part of the invariant, if what it drops from the list is not
live. -/
theorem walkOk_advanced {s : DisableState} {id : ℕ} {proc : SessionProc} {userId : String}
    {left left' : List String} (hproc : s.system.procs.lookup id = some proc)
    (hinserting : proc.inserting = none) (hok : s.WalkOk id userId left)
    (hleft : ∀ t ∈ left, t ∈ left' ∨
      (proc.advance s.system.manager s.system.now).1.sessions.lookup t = none) :
    (s.advanced id proc).WalkOk id userId left' where
  disabling := hok.disabling
  sealed := sealed_advanced hproc hok.sealed
  live := by
    intro t ht
    rcases hleft t (hok.live t (live_advance hinserting ht)) with hmem | hgone
    · exact hmem
    · obtain ⟨session, hsession, -⟩ := SessionManager.mem_liveSessions.mp ht
      exact absurd (hgone.symm.trans hsession) (by simp)

/-- What the block of a call leaves to the call itself: its part of the invariant. -/
theorem procOk_advanced {s : DisableState} {id : ℕ} {proc next : SessionProc} (hs : s.Inv)
    (hproc : s.system.procs.lookup id = some proc) (hok : s.KeepsLocked (.advance id))
    (hnext : (proc.advance s.system.manager s.system.now).2 = some next) :
    (s.advanced id proc).ProcOk id next := by
  have hprocOk := hs.procs id proc hproc
  cases proc with
  | createIndex stored =>
      cases hnext
      exact hprocOk
  | createEvict stored toEvict =>
      cases toEvict with
      | nil =>
          cases hnext
          exact hprocOk
      | cons old toEvict =>
          simp only [SessionProc.advance] at hnext
          split at hnext
          next =>
            cases hnext
            exact hprocOk
          next =>
            cases hnext
            exact hprocOk
  | createPersistEvicted stored toEvict old snap =>
      cases hnext
      exact hprocOk
  | createPersist stored => cases hnext
  | userSnapshot userId =>
      cases hnext
      -- The user is barred since `disable_user`, and the index lists the live sessions.
      exact ⟨hprocOk, sealed_snapshot hproc rfl (hs.barred id userId hprocOk),
        (hok _ hproc).2 userId rfl⟩
  | userDeactivate userId left =>
      cases left with
      | nil => cases hnext
      | cons hashed left =>
          cases hnext
          exact walkOk_advanced hproc rfl hprocOk fun t ht => .inl ht
  | userDelete userId hashed left =>
      cases hnext
      exact walkOk_advanced hproc rfl hprocOk fun t ht => .inl ht
  | userRemove userId hashed left =>
      cases hnext
      refine walkOk_advanced hproc rfl hprocOk fun t ht => ?_
      -- The token taken off the list has just been removed from the map.
      rcases List.mem_cons.mp ht with rfl | hmem
      · exact .inr (AList.lookup_erase _ _)
      · exact .inl hmem
  | _ => exact False.elim hprocOk

/-- A block keeps to the frame. -/
theorem frame_advanced {s : DisableState} {id : ℕ} {proc : SessionProc} (hs : s.Inv)
    (hproc : s.system.procs.lookup id = some proc) (hok : s.KeepsLocked (.advance id)) :
    Frame s (s.advanced id proc) where
  barred := fun _ hbarred => hbarred
  sealed := fun _ hsealed => sealed_advanced hproc hsealed
  live := fun _ hsealed _ ht => live_advanced hproc hok hsealed ht
  procs := by
    intro id' proc' hproc'
    have hold := hproc'
    simp only [advanced, DashMap.lookup_put] at hold
    split at hold
    next heq =>
      rw [heq]
      exact .inr (procOk_advanced hs hproc hok hold)
    next => exact .inl ⟨hold, rfl⟩
  openingFree := hs.openingFree
  disabling := fun _ _ hold => .inl hold
  disabled := fun _ hold => .inl hold

/-- An `admin_disable_user` returns when its `invalidate_all` has met every session. -/
theorem disabled_advanced {s : DisableState} {id : ℕ} {proc : SessionProc} {userId : String}
    (hs : s.Inv) (hproc : s.system.procs.lookup id = some proc)
    (hdisabling : s.disabling.lookup id = some userId)
    (hend : (proc.advance s.system.manager s.system.now).2 = none) :
    (s.advanced id proc).Sealed userId ∧
      (s.advanced id proc).system.manager.liveSessions s.system.now userId = [] := by
  have hprocOk := hs.procs id proc hproc
  cases proc with
  | createPersist stored =>
      rw [hprocOk] at hdisabling
      cases hdisabling
  | userDeactivate userId' left =>
      cases left with
      | nil =>
          -- The walk is at its end, so nothing live is left before it.
          obtain ⟨hsame, hsealed, hleft⟩ := hprocOk
          obtain rfl : userId' = userId := Option.some.inj (hsame.symm.trans hdisabling)
          refine ⟨sealed_advanced hproc hsealed,
            List.eq_nil_iff_forall_not_mem.mpr fun t ht => ?_⟩
          exact List.not_mem_nil (hleft t (live_advance rfl ht))
      | cons hashed left => cases hend
  | createEvict stored toEvict =>
      rw [hprocOk] at hdisabling
      cases hdisabling
  | createIndex stored => cases hend
  | createPersistEvicted stored toEvict old snap => cases hend
  | userSnapshot userId' => cases hend
  | userDelete userId' hashed left => cases hend
  | userRemove userId' hashed left => cases hend
  | _ => exact False.elim hprocOk

/-- A block keeps the invariant, also when it ends an `admin_disable_user`. -/
theorem inv_advance {s s' : DisableState} (hs : s.Inv) {id : ℕ}
    (hok : s.KeepsLocked (.advance id)) (h : s.step lib hashToken (.advance id) = some s') :
    s'.Inv := by
  obtain ⟨proc, hproc, hrest⟩ := Option.bind_eq_some_iff.mp h
  obtain ⟨system, hsystem, rfl⟩ := Option.map_eq_some_iff.mp hrest
  obtain ⟨proc', hproc', rfl⟩ := SessionState.step_advance hsystem
  obtain rfl : proc = proc' := Option.some.inj (hproc.symm.trans hproc')
  have hadvanced : (s.advanced id proc).Inv := (frame_advanced hs hproc hok).inv hs
  dsimp only
  split
  next userId hdisabling hend =>
    rw [DashMap.lookup_put, if_pos rfl] at hend
    obtain ⟨hsealed, hnone⟩ := disabled_advanced hs hproc hdisabling hend
    have herase : ∀ id' u, (s.disabling.erase id).lookup id' = some u →
        s.disabling.lookup id' = some u := by
      intro id' u hu
      exact (DashMap.lookup_erase_cases hu).2
    have hframe : Frame (s.advanced id proc)
        { s.advanced id proc with
          disabling := s.disabling.erase id
          disabled := userId :: s.disabled } := by
      refine ⟨fun _ hb => hb, fun _ hsealed => ⟨hsealed.barred, hsealed.opening,
        hsealed.creating⟩, fun _ _ _ ht => .inl ht, fun id' proc' hproc' => .inl ⟨hproc', ?_⟩,
        fun id' o ho => ?_, fun id' u hu => .inl (herase id' u hu), fun u hu => ?_⟩
      · refine (DashMap.lookup_erase _ _ _).trans (if_neg ?_)
        rintro rfl
        simp [advanced, DashMap.lookup_put, hend] at hproc'
      · have hfree := hs.openingFree id' o ho
        refine (DashMap.lookup_erase _ _ _).trans ?_
        rw [hfree, ite_self]
      · rcases List.mem_cons.mp hu with rfl | hold
        · exact .inr ⟨⟨hsealed.barred, hsealed.opening, hsealed.creating⟩, hnone⟩
        · exact .inl hold
    exact hframe.inv hadvanced
  next => exact hadvanced

/-- Every step keeps the invariant under the condition. -/
theorem inv_step (s : DisableState) (a : DisableAction) (s' : DisableState) (hs : s.Inv)
    (hok : s.KeepsLocked a) (h : s.step lib hashToken a = some s') : s'.Inv := by
  cases a with
  | tick now =>
      obtain ⟨system, hsystem, rfl⟩ := Option.map_eq_some_iff.mp h
      simp only [SessionState.step] at hsystem
      split at hsystem
      next hle =>
        cases hsystem
        have hframe : Frame s { s with system := { s.system with now } } := by
          refine ⟨fun _ hb => hb, fun _ hsealed => ⟨hsealed.barred, hsealed.opening,
            hsealed.creating⟩, fun userId _ t ht => .inl ?_, fun _ _ hproc => .inl ⟨hproc, rfl⟩,
            hs.openingFree, fun _ _ hold => .inl hold, fun _ hold => .inl hold⟩
          obtain ⟨session, hsession, huser, hlive⟩ := SessionManager.mem_liveSessions.mp ht
          exact SessionManager.mem_liveSessions.mpr
            ⟨session, hsession, huser, Session.live_of_le hle hlive⟩
        exact hframe.inv hs
      next => cases hsystem
  | login id now later token email password ip userAgent ttlSecs =>
      simp only [step] at h
      split at h
      next => cases h
      next hfree =>
        cases h
        refine Frame.inv (frame_authenticated hs (Bool.eq_false_iff.mpr hfree)
          (fun userId => s.users.access_authenticate lib now later token email password userId)
          fun user token' hsuccess => ?_) hs
        obtain ⟨old, hlookup, henabled, -⟩ := UserManager.authenticate_success hsuccess
        exact ⟨old, hlookup, henabled⟩
  | completeMfa id now later token userId code ip userAgent ttlSecs =>
      simp only [step] at h
      split at h
      next => cases h
      next hfree =>
        cases h
        refine Frame.inv (frame_authenticated hs (Bool.eq_false_iff.mpr hfree)
          (fun id' => s.users.access_completeMfaLogin lib now later token userId code id')
          fun user token' hsuccess => ?_) hs
        obtain ⟨old, -, hlookup, henabled, -⟩ := UserManager.completeMfaLogin_success hsuccess
        exact ⟨old, hlookup, henabled⟩
  | create id => exact (frame_create hs h).inv hs
  | disableUser id userId => exact (frame_disableUser hs h).inv hs
  | invalidateAll id => exact (frame_invalidateAll hs h).inv hs
  | advance id => exact inv_advance hs hok h

/-- Nothing is under way at the start. -/
theorem inv_initial (users : UserManager) (manager : SessionManager) (now : ℕ)
    (issued : List String) : (initial users manager now issued).Inv where
  procs := by simp [initial, SessionState.initial]
  openingFree := by simp [initial]
  barred := by simp [initial]
  disabled := by simp [initial]

/-- Under the invariant no session of a disabled user validates. -/
theorem Inv.locked {s : DisableState} (hs : s.Inv) : s.Locked hashToken := by
  intro userId hmem token expectedIp session hvalid huser
  have hlive := SessionManager.mem_liveSessions_of_validated hvalid
  rw [huser, (hs.disabled userId hmem).2] at hlive
  cases hlive

/-- In every run in which an overtaken login inserts its session only while it is still removed, and
in which the index lists every live session when `invalidate_all` copies it, no session of a
disabled user validates. -/
theorem locked_of_runs (lib : UserLib) (hashToken : String → String) (users : UserManager)
    (manager : SessionManager) (now : ℕ) (issued : List String) (as : List DisableAction)
    (s : DisableState)
    (hrun : (machine lib hashToken).Runs KeepsLocked (initial users manager now issued) as s) :
    s.Locked hashToken :=
  (hrun.invariant inv_step (inv_initial users manager now issued)).locked

open AuthHistory (simpleLib mfaUser)

/-- A login is overtaken while its token is in the index, and inserts its session before
`invalidate_all` meets the token. -/
def overtakenLogin : List DisableAction :=
  [.completeMfa 0 1000 1000 "a" "u" "000000" "10.0.0.1" "curl" 600, .create 0, .advance 0,
    .disableUser 1 "u", .invalidateAll 1, .advance 1, .advance 0, .advance 0, .advance 1,
    .advance 1, .advance 1, .advance 1]

/-- The overtaken login does not keep its session. -/
theorem locked_overtakenLogin :
    ∃ s, (machine simpleLib id).Runs KeepsLocked (initial mfaUser (.new 5) 1000 [])
      overtakenLogin s ∧ s.disabled = ["u"] ∧ s.overtaken = [0] ∧ s.Locked id := by
  obtain ⟨s, hs, hdisabled, hovertaken⟩ : ∃ s, (machine simpleLib id).exec KeepsLocked
      (initial mfaUser (.new 5) 1000 []) overtakenLogin = some s ∧ s.disabled = ["u"] ∧
        s.overtaken = [0] := by
    refine ⟨_, rfl, ?_, ?_⟩ <;> decide
  have hrun := Machine.runs_of_exec hs
  exact ⟨s, hrun, hdisabled, hovertaken,
    locked_of_runs simpleLib id mfaUser (.new 5) 1000 [] overtakenLogin s hrun⟩

/-- A login is authenticated, the user is disabled, and then the login creates its session. -/
def lateCreate : List DisableAction :=
  [.completeMfa 0 1000 1000 "a" "u" "000000" "10.0.0.1" "curl" 600, .disableUser 1 "u",
    .invalidateAll 1, .advance 1, .advance 1, .create 0, .advance 0, .advance 0, .advance 0]

/-- Without the condition a disabled user holds a valid session. -/
theorem locked_fails :
    ¬ ∀ (lib : UserLib) (hashToken : String → String) (users : UserManager)
      (manager : SessionManager) (now : ℕ) (issued : List String) (as : List DisableAction)
      (s : DisableState),
      (machine lib hashToken).Runs Machine.unrestricted (initial users manager now issued) as s →
        s.Locked hashToken := by
  intro hall
  obtain ⟨s, hs, hdisabled, session, hvalid, huser⟩ :
      ∃ s, (machine simpleLib id).exec Machine.unrestricted (initial mfaUser (.new 5) 1000 [])
        lateCreate = some s ∧ "u" ∈ s.disabled ∧ ∃ session,
          (s.system.manager.validateWithRequest id s.system.now "a" none).1 = some session ∧
            session.userId = "u" := by
    refine ⟨_, rfl, ?_, _, rfl, ?_⟩ <;> decide
  exact hall _ _ _ _ _ _ _ s (Machine.runs_of_exec hs) "u" hdisabled "a" none session hvalid huser

end DisableState

end XiraNet

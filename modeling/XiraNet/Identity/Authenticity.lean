import XiraNet.Identity.AuthScope

/-!
# Authenticity of sessions

Whoever is let into a route behind `SessionAuth` has logged in: what the session store holds in its
map, in its table and in the operations under way comes from successful logins, in every
interleaving and across restarts.

* `SessionState.All.step`: a property of the stored sessions that holds of every new session is kept
  by every block of every operation.
* `AuthScope.admitted_of_runs`: the token of a request that is let in is that of an earlier login
  of the user it counts for, from the same address, which had not expired.
-/

namespace XiraNet

/-- The sessions that a call under way still stores, with the hashes they stand under. -/
def SessionProc.carried : SessionProc → List (String × Session)
  | .createIndex stored => [(stored.token, stored)]
  | .createEvict stored _ => [(stored.token, stored)]
  | .createPersistEvicted stored _ old snap => [(stored.token, stored), (old, snap)]
  | .createPersist stored => [(stored.token, stored)]
  | .validatePersist hashed snap => [(hashed, snap)]
  | _ => []

/-- A property that depends on the user, the address and the expiry of a session, and holds of every
session that expires earlier. -/
def SessionClosed (P : String → Session → Prop) : Prop :=
  ∀ hashed x y, P hashed x → y.userId = x.userId → y.ip = x.ip → y.expiresAt ≤ x.expiresAt →
    P hashed y

/-- Every session in the map and in the table has a property. -/
structure SessionManager.All (P : String → Session → Prop) (m : SessionManager) : Prop where
  sessions : ∀ hashed x, m.sessions.lookup hashed = some x → P hashed x
  storage : ∀ table ∈ m.storage, ∀ row ∈ table, P row.hashedToken row.toSession

/-- Every session that a session store holds has a property. -/
structure SessionState.All (P : String → Session → Prop) (s : SessionState) : Prop where
  manager : s.manager.All P
  procs : ∀ id proc, s.procs.lookup id = some proc → ∀ e ∈ proc.carried, P e.1 e.2

section Blocks

variable {P : String → Session → Prop}

/-- A row is read back with the user and the address of the session, and expires no later. -/
theorem SessionClosed.row (hP : SessionClosed P) {hashed : String} {x : Session}
    (h : P hashed x) : P hashed (x.toRow hashed).toSession := by
  refine hP hashed x _ h rfl rfl ?_
  simp only [Session.toRow, SessionRow.toSession, asU64, asI64]
  split <;> omega

namespace SessionManager

variable {m : SessionManager}

theorem All.of_eq {m' : SessionManager} (h : m.All P) (hsessions : m'.sessions = m.sessions)
    (hstorage : m'.storage = m.storage) : m'.All P where
  sessions := by
    rw [hsessions]
    exact h.sessions
  storage := by
    rw [hstorage]
    exact h.storage

theorem All.persist (hP : SessionClosed P) (h : m.All P) {hashed : String} {x : Session}
    (hx : P hashed x) : (m.persist hashed x).All P where
  sessions := h.sessions
  storage := by
    intro table htable row hrow
    rcases mem_storage_persist htable hrow with ⟨-, old, hold, hmem⟩ | rfl
    · exact h.storage old hold row hmem
    · exact hP.row hx

theorem All.deletePersisted (h : m.All P) (hashed : String) : (m.deletePersisted hashed).All P where
  sessions := h.sessions
  storage := by
    intro table htable row hrow
    obtain ⟨-, old, hold, hmem⟩ := mem_storage_deletePersisted htable hrow
    exact h.storage old hold row hmem

theorem All.insertSession (h : m.All P) {hashed : String} {x : Session} (hx : P hashed x) :
    (m.insertSession hashed x).All P where
  sessions := by
    intro t y hy
    rw [lookup_insertSession] at hy
    split at hy
    next heq =>
      cases hy
      rwa [heq]
    next => exact h.sessions t y hy
  storage := h.storage

theorem All.removeSession (h : m.All P) (hashed : String) : (m.removeSession hashed).All P where
  sessions := by
    intro t y hy
    rw [lookup_removeSession] at hy
    split at hy
    next => cases hy
    next => exact h.sessions t y hy
  storage := h.storage

theorem All.deactivate (hP : SessionClosed P) (h : m.All P) (hashed : String) :
    (m.deactivate hashed).2.All P where
  sessions := by
    intro t y hy
    rw [lookup_deactivate] at hy
    split at hy
    next heq =>
      obtain ⟨x, hx, rfl⟩ := Option.map_eq_some_iff.mp hy
      rw [heq]
      exact hP hashed x _ (h.sessions hashed x hx) rfl rfl le_rfl
    next => exact h.sessions t y hy
  storage := h.storage

theorem All.checkSession (hP : SessionClosed P) (h : m.All P) (now : ℕ) (hashed : String)
    (expectedIp : Option String) : (m.checkSession now hashed expectedIp).2.All P where
  sessions := by
    intro t y hy
    obtain ⟨f, hf⟩ := m.lookup_checkSession now hashed expectedIp t
    rw [hf] at hy
    obtain ⟨x, hx, rfl⟩ := Option.map_eq_some_iff.mp hy
    exact hP t x _ (h.sessions t x hx) rfl rfl le_rfl
  storage := by
    rw [storage_checkSession]
    exact h.storage

/-- What a start loads was in the table. -/
theorem All.withStorage (maxSessions now : ℕ) {table : Table SessionRow}
    (h : ∀ row ∈ table, P row.hashedToken row.toSession) :
    (withStorage maxSessions now table).All P where
  sessions := by
    intro t y hy
    obtain ⟨row, hrow, rfl, -, rfl⟩ := of_lookup_withStorage hy
    exact h row hrow
  storage := by
    rw [storage_withStorage]
    rintro _ ⟨⟩ row hrow
    exact h row hrow

/-- A block of an operation stores only sessions that were stored or that the operation carries. -/
theorem All.advance (hP : SessionClosed P) (h : m.All P) (now : ℕ) {proc : SessionProc}
    (hproc : ∀ e ∈ proc.carried, P e.1 e.2) :
    (proc.advance m now).1.All P ∧
      ∀ next ∈ (proc.advance m now).2, ∀ e ∈ next.carried, P e.1 e.2 := by
  have hnone : ∀ next ∈ (none : Option SessionProc), ∀ e ∈ next.carried, P e.1 e.2 := by
    rintro _ ⟨⟩
  have hempty : ∀ {proc' : SessionProc}, proc'.carried = [] → ∀ next ∈ some proc',
      ∀ e ∈ next.carried, P e.1 e.2 := by
    rintro proc' hcarried _ ⟨⟩ e he
    rw [hcarried] at he
    exact absurd he List.not_mem_nil
  cases proc with
  | createIndex stored =>
      refine ⟨h.of_eq rfl rfl, ?_⟩
      rintro _ ⟨⟩
      exact hproc
  | createEvict stored toEvict =>
      cases toEvict with
      | nil =>
          refine ⟨h.insertSession (hproc _ List.mem_cons_self), ?_⟩
          rintro _ ⟨⟩
          exact hproc
      | cons old toEvict =>
          have hdeactivate := h.deactivate hP old
          simp only [SessionProc.advance]
          split
          next session m' heq =>
            obtain rfl : (m.deactivate old).2 = m' := congrArg Prod.snd heq
            have hsession : m.sessions.lookup old = some session := congrArg Prod.fst heq
            refine ⟨hdeactivate, ?_⟩
            rintro _ ⟨⟩ e he
            -- The session that is evicted was in the map.
            rcases List.mem_cons.mp he with rfl | he
            · exact hproc _ List.mem_cons_self
            · obtain rfl := List.mem_singleton.mp he
              exact hP old session _ (h.sessions old session hsession) rfl rfl le_rfl
          next m' heq =>
            obtain rfl : (m.deactivate old).2 = m' := congrArg Prod.snd heq
            refine ⟨hdeactivate, ?_⟩
            rintro _ ⟨⟩
            exact hproc
  | createPersistEvicted stored toEvict old snap =>
      refine ⟨h.persist hP (hproc (old, snap) (List.mem_cons_of_mem _ List.mem_cons_self)), ?_⟩
      rintro _ ⟨⟩ e he
      obtain rfl := List.mem_singleton.mp he
      exact hproc _ List.mem_cons_self
  | createPersist stored => exact ⟨h.persist hP (hproc _ List.mem_cons_self), hnone⟩
  | validateCheck now' hashed expectedIp =>
      have hchecked := h.checkSession hP now' hashed expectedIp
      have hsnap : ∀ snap shouldPersist,
          (m.checkSession now' hashed expectedIp).1 = .validated snap shouldPersist →
            P hashed snap := by
        intro snap shouldPersist hvalidated
        rcases m.checkSession_cases now' hashed expectedIp with
          ⟨-, hres⟩ | ⟨_, -, -, hres⟩ | ⟨_, -, -, -, hres⟩ | ⟨session, hsession, -, -, hres⟩
        all_goals
          rw [hres] at hvalidated
          cases hvalidated
        exact hP hashed session _ (h.sessions hashed session hsession) rfl rfl le_rfl
      simp only [SessionProc.advance]
      split <;> rename_i heq <;> rw [heq] at hchecked
      · exact ⟨hchecked, hnone⟩
      · exact ⟨hchecked, hnone⟩
      · exact ⟨hchecked, hempty rfl⟩
      -- The session is stored again only if its time of expiry has moved.
      · refine ⟨hchecked, ?_⟩
        split
        next =>
          rintro _ ⟨⟩ e he
          obtain rfl := List.mem_singleton.mp he
          exact hsnap _ _ (congrArg Prod.fst heq)
        next => exact hnone
  | validatePersist hashed snap => exact ⟨h.persist hP (hproc _ List.mem_cons_self), hnone⟩
  | tokenDeactivate hashed =>
      have hdeactivate := h.deactivate hP hashed
      simp only [SessionProc.advance]
      split <;> rename_i heq <;> rw [heq] at hdeactivate
      · exact ⟨hdeactivate, hempty rfl⟩
      · exact ⟨hdeactivate, hnone⟩
  | tokenUnlist hashed userId => exact ⟨h.of_eq rfl rfl, hempty rfl⟩
  | tokenDelete hashed => exact ⟨h.deletePersisted hashed, hempty rfl⟩
  | tokenRemove hashed => exact ⟨h.removeSession hashed, hnone⟩
  | userSnapshot userId => exact ⟨h, hempty rfl⟩
  | userDeactivate userId left =>
      cases left with
      | nil => exact ⟨h.of_eq rfl rfl, hnone⟩
      | cons hashed left => exact ⟨h.deactivate hP hashed, hempty rfl⟩
  | userDelete userId hashed left => exact ⟨h.deletePersisted hashed, hempty rfl⟩
  | userRemove userId hashed left => exact ⟨h.removeSession hashed, hempty rfl⟩
  | cleanupScan now' toRemove => exact ⟨h, hempty rfl⟩
  | cleanupRemove left =>
      cases left with
      | nil => exact ⟨h, hnone⟩
      | cons entry left => exact ⟨h.removeSession entry.1, hempty rfl⟩
  | cleanupDelete hashed userId left => exact ⟨h.deletePersisted hashed, hempty rfl⟩
  | cleanupUnlist hashed userId left => exact ⟨h.of_eq rfl rfl, hempty rfl⟩

end SessionManager

/-- A step of the session store keeps a property of its sessions that every new session has. -/
theorem SessionState.All.step (hP : SessionClosed P) {hashToken : String → String}
    {s s' : SessionState} (h : s.All P) {a : SessionAction}
    (hnew : ∀ id call, a = .call id call → ∀ e ∈ (call.start hashToken s.now).carried, P e.1 e.2)
    (hstep : s.step hashToken a = some s') : s'.All P := by
  cases a with
  | tick now =>
      simp only [SessionState.step] at hstep
      split at hstep
      next =>
        cases hstep
        exact ⟨h.manager, h.procs⟩
      next => cases hstep
  | call id call =>
      obtain ⟨-, -, rfl⟩ := SessionState.step_call hstep
      refine ⟨h.manager, fun id' proc hproc => ?_⟩
      rcases DashMap.lookup_insert_cases hproc with ⟨-, rfl⟩ | ⟨-, hold⟩
      · exact hnew id call rfl
      · exact h.procs id' proc hold
  | advance id =>
      obtain ⟨proc, hproc, rfl⟩ := SessionState.step_advance hstep
      obtain ⟨hmanager, hnext⟩ := h.manager.advance hP s.now (h.procs id proc hproc)
      refine ⟨hmanager, fun id' proc' hproc' => ?_⟩
      rw [DashMap.lookup_put] at hproc'
      split at hproc'
      next => exact hnext proc' hproc'
      next => exact h.procs id' proc' hproc'
  | visit id hashed =>
      obtain ⟨proc, hproc, hvisit⟩ := Option.bind_eq_some_iff.mp hstep
      obtain ⟨next, hnext, rfl⟩ := Option.map_eq_some_iff.mp hvisit
      refine ⟨h.manager, fun id' proc' hproc' => ?_⟩
      rcases DashMap.lookup_insert_cases hproc' with ⟨-, rfl⟩ | ⟨-, hold⟩
      -- Only a `cleanup_expired` is visited, and it carries nothing.
      · cases proc with
        | cleanupScan now toRemove =>
            obtain ⟨session, -, rfl⟩ := Option.map_eq_some_iff.mp hnext
            split <;> exact fun e he => absurd he List.not_mem_nil
        | _ => cases hnext
      · exact h.procs id' proc' hold
  | restart maxSessions =>
      obtain ⟨table, htable, rfl⟩ := Option.map_eq_some_iff.mp hstep
      -- What the start loads are the rows, of which the property holds as well.
      refine ⟨.withStorage maxSessions s.now (h.manager.storage table htable), ?_⟩
      intro id proc hproc
      simp at hproc

/-- A property that follows from another one of every stored session. -/
theorem SessionState.All.mono {Q : String → Session → Prop} {s : SessionState} (h : s.All P)
    (hPQ : ∀ hashed x, P hashed x → Q hashed x) : s.All Q where
  manager :=
    ⟨fun hashed x hx => hPQ hashed x (h.manager.sessions hashed x hx),
      fun table htable row hrow => hPQ _ _ (h.manager.storage table htable row hrow)⟩
  procs id proc hproc e he := hPQ e.1 e.2 (h.procs id proc hproc e he)

end Blocks

section Clock

variable {hashToken : String → String} {s s' : SessionState}

/-- The clock does not go back. -/
theorem SessionState.now_le_step {a : SessionAction} (h : s.step hashToken a = some s') :
    s.now ≤ s'.now := by
  cases a with
  | tick now =>
      simp only [step] at h
      split at h
      next hle =>
        cases h
        exact hle
      next => cases h
  | call id call =>
      obtain ⟨-, -, rfl⟩ := step_call h
      exact le_rfl
  | advance id =>
      obtain ⟨proc, -, rfl⟩ := step_advance h
      exact le_rfl
  | visit id hashed =>
      obtain ⟨proc, -, hvisit⟩ := Option.bind_eq_some_iff.mp h
      obtain ⟨next, -, rfl⟩ := Option.map_eq_some_iff.mp hvisit
      exact le_rfl
  | restart maxSessions =>
      obtain ⟨table, -, rfl⟩ := Option.map_eq_some_iff.mp h
      exact le_rfl

/-- A block of an operation does not lead to the check of a validation. -/
theorem SessionProc.advance_ne_validateCheck (proc : SessionProc) (m : SessionManager)
    (now now' : ℕ) (hashed : String) (expectedIp : Option String) :
    (proc.advance m now).2 ≠ some (.validateCheck now' hashed expectedIp) := by
  cases proc with
  | createEvict stored toEvict =>
      cases toEvict with
      | nil => rintro ⟨⟩
      | cons old toEvict =>
          simp only [advance]
          split <;> rintro ⟨⟩
  | validateCheck now hashed expectedIp =>
      simp only [advance]
      split
      · rintro ⟨⟩
      · rintro ⟨⟩
      · rintro ⟨⟩
      · split <;> rintro ⟨⟩
  | tokenDeactivate hashed =>
      simp only [advance]
      split <;> rintro ⟨⟩
  | userDeactivate userId left => cases left <;> rintro ⟨⟩
  | cleanupRemove left => cases left <;> rintro ⟨⟩
  | _ => rintro ⟨⟩

/-- The check of a validation that is under way was under way before, or its call has just
started. -/
theorem SessionState.check_of_step {a : SessionAction} (h : s.step hashToken a = some s') {id : ℕ}
    {now : ℕ} {hashed : String} {expectedIp : Option String}
    (hcheck : s'.procs.lookup id = some (.validateCheck now hashed expectedIp)) :
    s.procs.lookup id = some (.validateCheck now hashed expectedIp) ∨
      ∃ call, a = .call id call ∧ call.start hashToken s.now = .validateCheck now hashed
        expectedIp := by
  cases a with
  | tick now' =>
      simp only [step] at h
      split at h
      next =>
        cases h
        exact .inl hcheck
      next => cases h
  | call id' call =>
      obtain ⟨-, -, rfl⟩ := step_call h
      rcases DashMap.lookup_insert_cases hcheck with ⟨rfl, heq⟩ | ⟨-, hold⟩
      · exact .inr ⟨call, rfl, heq.symm⟩
      · exact .inl hold
  | advance id' =>
      obtain ⟨proc, -, rfl⟩ := step_advance h
      rw [DashMap.lookup_put] at hcheck
      split at hcheck
      next => exact absurd hcheck (proc.advance_ne_validateCheck _ _ _ _ _)
      next => exact .inl hcheck
  | visit id' t =>
      obtain ⟨proc, -, hvisit⟩ := Option.bind_eq_some_iff.mp h
      obtain ⟨next, hnext, rfl⟩ := Option.map_eq_some_iff.mp hvisit
      -- A `cleanup_expired` goes on, which is no validation.
      rcases DashMap.lookup_insert_cases hcheck with ⟨-, rfl⟩ | ⟨-, hold⟩
      · cases proc with
        | cleanupScan now' toRemove =>
            obtain ⟨session, -, hscan⟩ := Option.map_eq_some_iff.mp hnext
            split at hscan <;> cases hscan
        | _ => cases hnext
      · exact .inl hold
  | restart maxSessions =>
      obtain ⟨table, -, rfl⟩ := Option.map_eq_some_iff.mp h
      simp at hcheck

end Clock

/-- Only a `create` has a session to store when it starts. -/
theorem SessionCall.carried_start {hashToken : String → String} {call : SessionCall} {now : ℕ}
    (h : call.issues hashToken = none) : (call.start hashToken now).carried = [] := by
  cases call with
  | create userId token ip userAgent ttlSecs => cases h
  | _ => rfl

/-- No handler opens a session. -/
theorem AuthRoute.issues_of_handle {lib : UserLib} {hashToken : String → String}
    {users : UserManager} {now : ℕ} {info : SessionInfo} {route : AuthRoute} {call : SessionCall}
    (h : (route.handle lib users now info).2 = .call call) : call.issues hashToken = none := by
  cases route with
  | logout =>
      cases h
      rfl
  | logoutAll =>
      cases h
      rfl
  | adminLogoutAll target =>
      cases h
      rfl
  | adminUpdateRole target role =>
      simp only [handle] at h
      split at h
      next => cases h
      next => split at h <;> cases h
  | adminDisableUser target =>
      simp only [handle] at h
      split at h <;> cases h
  | _ => cases h

namespace AuthScope

/-- A session that an earlier login of its user opened from the address it is bound to. -/
def Backed (hashToken : String → String) (s : AuthScope) (hashed : String) (x : Session) : Prop :=
  ∃ l ∈ s.logins, hashToken l.token = hashed ∧ l.userId = x.userId ∧ l.ip = x.ip ∧
    ∃ t ≤ s.system.now, x.expiresAt ≤ t + l.ttlSecs

/-- A request counts for a user who has logged in with its token, from its address if both
addresses are known, and whose session had not expired. -/
def Admitted (hashToken : String → String) (s : AuthScope) (task : AuthTask) (info : SessionInfo) :
    Prop :=
  ∃ l ∈ s.logins, hashToken l.token = hashToken info.token ∧ l.userId = info.userId ∧
    (l.ip = "" ∨ l.ip = "unknown" ∨ task.peerIp = "" ∨ l.ip = task.peerIp) ∧
    ∃ t ≤ s.system.now, task.since ≤ t + l.ttlSecs

/-- What the invariant says of a request: a validation under way is the one it asked for, and
whoever has been let in has logged in. -/
def TaskOk (hashToken : String → String) (s : AuthScope) (id : ℕ) (task : AuthTask) : Prop :=
  match task.stage with
  | .validating token => ∀ now hashed expectedIp,
      s.system.procs.lookup id = some (.validateCheck now hashed expectedIp) →
        now = task.since ∧ hashed = hashToken token ∧ expectedIp = some task.peerIp
  | .admitted info => s.Admitted hashToken task info
  | .authorized info => s.Admitted hashToken task info
  | .revoking _ => True

/-- The invariant: sessions and requests come from logins. -/
structure Authentic (hashToken : String → String) (s : AuthScope) : Prop where
  opening : ∀ id o, s.opening.lookup id = some o → o ∈ s.logins
  sessions : s.system.All (s.Backed hashToken)
  tasks : ∀ id task, s.tasks.lookup id = some task → s.TaskOk hashToken id task

variable {lib : UserLib} {hashToken : String → String}

/-- Whether a session comes from a login does not depend on what else the session holds. -/
theorem closed_backed (s : AuthScope) : SessionClosed (s.Backed hashToken) := by
  rintro hashed x y ⟨l, hl, htoken, huser, hip, t, ht, hexpires⟩ huser' hip' hexpires'
  exact ⟨l, hl, htoken, huser.trans huser'.symm, hip.trans hip'.symm, t, ht,
    hexpires'.trans hexpires⟩

/-- What an invariant-keeping step may change: logins and the time only grow, and a request is as it
was, with the same validation, or is as the invariant says. -/
theorem Authentic.of_frame {s s' : AuthScope} (h : s.Authentic hashToken)
    (hlogins : ∀ l ∈ s.logins, l ∈ s'.logins) (hnow : s.system.now ≤ s'.system.now)
    (hopening : ∀ id o, s'.opening.lookup id = some o →
      s.opening.lookup id = some o ∨ o ∈ s'.logins)
    (hsessions : s.system.All (s'.Backed hashToken) → s'.system.All (s'.Backed hashToken))
    (htasks : ∀ id task, s'.tasks.lookup id = some task →
      (s.tasks.lookup id = some task ∧ ∀ now hashed expectedIp,
        s'.system.procs.lookup id = some (.validateCheck now hashed expectedIp) →
          s.system.procs.lookup id = some (.validateCheck now hashed expectedIp)) ∨
        s'.TaskOk hashToken id task) : s'.Authentic hashToken where
  opening id o ho := (hopening id o ho).elim (fun hold => hlogins o (h.opening id o hold))
    fun hnew => hnew
  sessions := by
    refine hsessions (h.sessions.mono ?_)
    rintro hashed x ⟨l, hl, htoken, huser, hip, t, ht, hexpires⟩
    exact ⟨l, hlogins l hl, htoken, huser, hip, t, ht.trans hnow, hexpires⟩
  tasks := by
    intro id task htask
    rcases htasks id task htask with ⟨hold, hsame⟩ | hok
    · have hok := h.tasks id task hold
      have hadmitted : ∀ info, s.Admitted hashToken task info →
          s'.Admitted hashToken task info := by
        rintro info ⟨l, hl, htoken, huser, hip, t, ht, hsince⟩
        exact ⟨l, hlogins l hl, htoken, huser, hip, t, ht.trans hnow, hsince⟩
      unfold TaskOk at hok ⊢
      split
      next token hstage =>
        rw [hstage] at hok
        exact fun now hashed expectedIp hcheck =>
          hok now hashed expectedIp (hsame now hashed expectedIp hcheck)
      next info hstage =>
        rw [hstage] at hok
        exact hadmitted info hok
      next info hstage =>
        rw [hstage] at hok
        exact hadmitted info hok
      next => trivial
    · exact hok

/-- A session operation that starts under an id that no request has. -/
theorem Authentic.call {s s₁ s' : AuthScope} (h : s.Authentic hashToken) {id : ℕ}
    {call : SessionCall} (hcall : s₁.call hashToken id call = some s')
    (hsystem : s₁.system = s.system) (hlogins : s₁.logins = s.logins)
    (hopening : ∀ id o, s₁.opening.lookup id = some o → s.opening.lookup id = some o)
    (hnew : ∀ e ∈ (call.start hashToken s.system.now).carried, s.Backed hashToken e.1 e.2)
    (htasks : ∀ id' task, s₁.tasks.lookup id' = some task →
      (id' ≠ id ∧ s.tasks.lookup id' = some task) ∨ id' = id ∧ (s'.TaskOk hashToken id task)) :
    s'.Authentic hashToken := by
  obtain ⟨system, hstep, rfl⟩ := call_eq hcall
  rw [hsystem] at hstep
  have hnow := SessionState.now_le_step hstep
  refine h.of_frame (fun l hl => hlogins ▸ hl) hnow (fun id o ho => .inl (hopening id o ho))
    (fun hall => hall.step (closed_backed _) ?_ hstep) ?_
  · rintro id' call' ⟨⟩ e he
    obtain ⟨l, hl, htoken, huser, hip, t, ht, hexpires⟩ := hnew e he
    exact ⟨l, hlogins ▸ hl, htoken, huser, hip, t, ht.trans hnow, hexpires⟩
  · intro id' task htask
    rcases htasks id' task htask with ⟨hne, hold⟩ | ⟨rfl, hok⟩
    · refine .inl ⟨hold, fun now hashed expectedIp hcheck => ?_⟩
      rcases SessionState.check_of_step hstep hcheck with hsame | ⟨call', heq, -⟩
      · exact hsame
      · cases heq
        exact absurd rfl hne
    · exact .inr hok

/-- The end of an authentication: a success is a login. -/
theorem authentic_authenticated {s : AuthScope} (h : s.Authentic hashToken) (id : ℕ)
    (ip userAgent : String) (ttlSecs : ℕ) (res : AuthResult × UserManager) :
    (s.authenticated id ip userAgent ttlSecs res).Authentic hashToken := by
  obtain ⟨result, users⟩ := res
  cases result with
  | success user token =>
      -- Only the login that waits for `create` is new, and it is noted.
      refine h.of_frame (fun l hl => List.mem_cons_of_mem _ hl) le_rfl (fun id' o ho => ?_)
        (fun hall => hall) fun id' task htask => .inl ⟨htask, fun _ _ _ hcheck => hcheck⟩
      rcases DashMap.lookup_insert_cases ho with ⟨-, rfl⟩ | ⟨-, hold⟩
      · exact .inr List.mem_cons_self
      · exact .inl hold
  | _ =>
      exact h.of_frame (fun l hl => hl) le_rfl (fun _ _ ho => .inl ho) (fun hall => hall)
        fun id' task htask => .inl ⟨htask, fun _ _ _ hcheck => hcheck⟩

/-- Who is let in after a validation has logged in. -/
theorem taskOk_validated {s s' : AuthScope} (h : s.Authentic hashToken) {id : ℕ}
    {task task' : AuthTask} {proc : SessionProc} (htask : s.tasks.lookup id = some task)
    (hproc : s.system.procs.lookup id = some proc)
    (hlogins : s'.logins = s.logins) (hnow : s.system.now ≤ s'.system.now)
    (hchecks : ∀ now hashed expectedIp,
      s'.system.procs.lookup id ≠ some (.validateCheck now hashed expectedIp))
    (hvalidated : task.validated s.system.manager proc = some task') :
    s'.TaskOk hashToken id task' := by
  have hadmitted : ∀ info, s.Admitted hashToken task info → s'.Admitted hashToken task info := by
    rintro info ⟨l, hl, htoken, huser, hip, t, ht, hsince⟩
    exact ⟨l, hlogins ▸ hl, htoken, huser, hip, t, ht.trans hnow, hsince⟩
  have hok := h.tasks id task htask
  have hsame : s'.TaskOk hashToken id task := by
    unfold TaskOk at hok ⊢
    split
    next => exact fun now hashed expectedIp hcheck => absurd hcheck (hchecks now hashed expectedIp)
    next info hstage =>
      rw [hstage] at hok
      exact hadmitted info hok
    next info hstage =>
      rw [hstage] at hok
      exact hadmitted info hok
    next => trivial
  unfold AuthTask.validated at hvalidated
  split at hvalidated
  next now hashed expectedIp =>
    split at hvalidated
    next token snap shouldPersist hstage hcheck =>
      cases hvalidated
      unfold TaskOk at hok
      rw [hstage] at hok
      -- The check that ends is the one that the request asked for, with its own token and address.
      obtain ⟨rfl, rfl, rfl⟩ := hok now hashed expectedIp hproc
      rcases s.system.manager.checkSession_cases task.since (hashToken token) (some task.peerIp)
        with ⟨-, hres⟩ | ⟨_, -, -, hres⟩ | ⟨_, -, -, -, hres⟩ |
          ⟨session, hsession, hlive, hbinding, hres⟩
      all_goals
        rw [hres] at hcheck
        cases hcheck
      -- The session is in the map, has not expired and is bound to this address.
      obtain ⟨l, hl, htoken, huser, hip, t, ht, hexpires⟩ :=
        h.sessions.manager.sessions _ session hsession
      simp only [Session.live, Bool.and_eq_true, decide_eq_true_eq] at hlive
      -- An address that is known on both sides has to be the same.
      refine ⟨l, hlogins ▸ hl, htoken, huser, ?_, t, ht.trans hnow, hlive.2.trans hexpires⟩
      by_contra hnone
      rw [not_or, not_or, not_or] at hnone
      obtain ⟨hempty, hunknown, hpeer, hne⟩ := hnone
      rw [hip] at hempty hunknown hne
      simp [Session.bindingViolated, hempty, hunknown, hpeer, hne] at hbinding
    next => cases hvalidated
    next =>
      cases hvalidated
      exact hsame
  next =>
    cases hvalidated
    exact hsame

/-- A request that has left the middleware behind is as good as before. -/
theorem authentic_tasks {s s' : AuthScope} (h : s.Authentic hashToken)
    (hsystem : s'.system = s.system) (hlogins : s'.logins = s.logins)
    (hopening : s'.opening = s.opening)
    (htasks : ∀ id task, s'.tasks.lookup id = some task →
      s.tasks.lookup id = some task ∨ s'.TaskOk hashToken id task) :
    s'.Authentic hashToken := by
  refine h.of_frame (fun l hl => hlogins ▸ hl) (by rw [hsystem])
    (fun id o ho => .inl (hopening ▸ ho)) (fun hall => by rwa [hsystem]) fun id task htask => ?_
  refine (htasks id task htask).imp_left fun hold => ⟨hold, fun now hashed expectedIp hcheck => ?_⟩
  rwa [hsystem] at hcheck

/-- A step keeps the invariant. -/
theorem authentic_step (s : AuthScope) (a : AuthScopeAction) (s' : AuthScope)
    (hs : s.Authentic hashToken) (_ : Machine.unrestricted s a)
    (h : s.step lib hashToken a = some s') : s'.Authentic hashToken := by
  cases a with
  | login id now later token email password ip userAgent ttlSecs =>
      simp only [step] at h
      split at h
      next => cases h
      next =>
        cases h
        exact authentic_authenticated hs id ip userAgent ttlSecs _
  | completeMfa id now later token userId code ip userAgent ttlSecs =>
      simp only [step] at h
      split at h
      next => cases h
      next =>
        cases h
        exact authentic_authenticated hs id ip userAgent ttlSecs _
  | create id =>
      obtain ⟨o, ho, hcall⟩ := Option.bind_eq_some_iff.mp h
      have hlogin := hs.opening id o ho
      obtain ⟨system, hstep, rfl⟩ := call_eq hcall
      have hnow := SessionState.now_le_step hstep
      refine hs.of_frame (fun l hl => hl) hnow
        (fun id' o' ho' => .inl (DashMap.lookup_erase_cases ho').2)
        (fun hall => hall.step (closed_backed _) ?_ hstep) fun id' task htask => ?_
      -- The session that is stored is the one of the login.
      · rintro id' call' ⟨⟩ e he
        obtain rfl := List.mem_singleton.mp he
        exact ⟨o, hlogin, rfl, rfl, rfl, s.system.now, hnow, Nat.mod_le _ _⟩
      · refine .inl ⟨htask, fun now hashed expectedIp hcheck => ?_⟩
        rcases SessionState.check_of_step hstep hcheck with hsame | ⟨call', heq, hstart⟩
        · exact hsame
        · cases heq
          cases hstart
  | createUser cfg id now passwordHash body =>
      simp only [step] at h
      split at h
      next => cases h
      next =>
        cases h
        exact authentic_tasks hs rfl rfl rfl fun _ _ htask => .inl htask
  | request id req route =>
      simp only [step] at h
      split at h
      next =>
        cases h
        exact hs
      next token _ =>
        split at h
        next => cases h
        next hfree =>
          refine hs.call h rfl rfl (fun _ _ ho => ho) (fun e he => absurd he List.not_mem_nil) ?_
          intro id' task htask
          rcases DashMap.lookup_insert_cases htask with ⟨rfl, rfl⟩ | ⟨hne, hold⟩
          · obtain ⟨system, hstep, rfl⟩ := call_eq h
            obtain ⟨-, -, rfl⟩ := SessionState.step_call hstep
            refine .inr ⟨rfl, fun now hashed expectedIp hcheck => ?_⟩
            -- The validation is the one that has just started.
            rw [DashMap.lookup_insert, if_pos rfl] at hcheck
            cases hcheck
            exact ⟨rfl, rfl, rfl⟩
          · exact .inl ⟨hne, hold⟩
  | requireRole id =>
      obtain ⟨task, hlookup, h⟩ := Option.bind_eq_some_iff.mp h
      split at h
      next info hstage hproc =>
        have hok := hs.tasks id task hlookup
        unfold TaskOk at hok
        rw [hstage] at hok
        -- With the role or without the middleware the request goes on as it is.
        have hpass : ∀ s' : AuthScope, s' = { s with
            tasks := s.tasks.insert id { task with stage := .authorized info } } →
              s'.Authentic hashToken := by
          rintro _ rfl
          refine authentic_tasks hs rfl rfl rfl fun id' task' htask' => ?_
          rcases DashMap.lookup_insert_cases htask' with ⟨rfl, rfl⟩ | ⟨-, hold⟩
          · exact .inr hok
          · exact .inl hold
        split at h
        next =>
          split at h
          next =>
            cases h
            exact hpass _ rfl
          next =>
            cases h
            exact authentic_tasks hs rfl rfl rfl fun _ _ htask' =>
              .inl (DashMap.lookup_erase_cases htask').2
        next =>
          cases h
          exact hpass _ rfl
      next => cases h
  | handle id now =>
      obtain ⟨task, hlookup, h⟩ := Option.bind_eq_some_iff.mp h
      split at h
      next info hstage =>
        have hnote : (s.note info.userId task.route).Authentic hashToken := by
          unfold note
          split
          · exact authentic_tasks hs rfl rfl rfl fun _ _ htask => .inl htask
          · exact hs
        simp only [handle] at h
        split at h
        next heffect =>
          cases h
          exact authentic_tasks hnote rfl rfl rfl fun _ _ htask' =>
            .inl (DashMap.lookup_erase_cases htask').2
        next call heffect =>
          refine hnote.call h rfl rfl (fun _ _ ho => ho) ?_ fun id' task' htask' => ?_
          -- No handler opens a session.
          · intro e he
            rw [SessionCall.carried_start (AuthRoute.issues_of_handle heffect)] at he
            exact absurd he List.not_mem_nil
          -- The request has ended; its id belongs to the operation now.
          · obtain ⟨hne, hold⟩ := DashMap.lookup_erase_cases htask'
            exact .inl ⟨hne, hold⟩
        next target heffect =>
          cases h
          refine authentic_tasks hnote rfl rfl rfl fun id' task' htask' => ?_
          rcases DashMap.lookup_insert_cases htask' with ⟨rfl, rfl⟩ | ⟨-, hold⟩
          · exact .inr trivial
          · exact .inl hold
      next => cases h
  | revoke id =>
      obtain ⟨task, hlookup, h⟩ := Option.bind_eq_some_iff.mp h
      split at h
      next target _ =>
        refine hs.call h rfl rfl (fun _ _ ho => ho) (fun e he => absurd he List.not_mem_nil)
          fun id' task' htask' => ?_
        obtain ⟨hne, hold⟩ := DashMap.lookup_erase_cases htask'
        exact .inl ⟨hne, hold⟩
      next => cases h
  | advance id =>
      obtain ⟨proc, hproc, h⟩ := Option.bind_eq_some_iff.mp h
      obtain ⟨system, hstep, rfl⟩ := Option.map_eq_some_iff.mp h
      have hnow := SessionState.now_le_step hstep
      refine hs.of_frame (fun l hl => hl) hnow (fun _ _ ho => .inl ho)
        (fun hall => hall.step (closed_backed _) (fun _ _ heq => by cases heq) hstep)
        fun id' task' htask' => ?_
      rw [DashMap.lookup_put] at htask'
      split at htask'
      next heq =>
        subst heq
        obtain ⟨task, hlookup, hvalidated⟩ := Option.bind_eq_some_iff.mp htask'
        refine .inr (taskOk_validated hs hlookup hproc rfl hnow ?_ hvalidated)
        intro now hashed expectedIp hcheck
        obtain ⟨proc', -, rfl⟩ := SessionState.step_advance hstep
        rw [DashMap.lookup_put, if_pos rfl] at hcheck
        exact absurd hcheck (SessionProc.advance_ne_validateCheck _ _ _ _ _ _)
      next =>
        refine .inl ⟨htask', fun now hashed expectedIp hcheck => ?_⟩
        rcases SessionState.check_of_step hstep hcheck with hsame | ⟨call, heq, -⟩
        · exact hsame
        · cases heq
  | background action =>
      have hsystem : ∀ {action : SessionAction} {system : SessionState},
          (∀ id call, action ≠ .call id call) → s.system.step hashToken action = some system →
            ({ s with system } : AuthScope).Authentic hashToken := by
        intro action system hcall hstep
        refine hs.of_frame (fun l hl => hl) (SessionState.now_le_step hstep)
          (fun _ _ ho => .inl ho)
          (fun hall => hall.step (closed_backed _) (fun _ _ heq => absurd heq (hcall _ _)) hstep)
          fun id' task' htask' => .inl ⟨htask', fun now hashed expectedIp hcheck => ?_⟩
        rcases SessionState.check_of_step hstep hcheck with hsame | ⟨call, heq, -⟩
        · exact hsame
        · exact absurd heq (hcall _ _)
      cases action with
      | tick now =>
          obtain ⟨system, hstep, rfl⟩ := Option.map_eq_some_iff.mp h
          exact hsystem (fun _ _ heq => by cases heq) hstep
      | visit id hashed =>
          obtain ⟨system, hstep, rfl⟩ := Option.map_eq_some_iff.mp h
          exact hsystem (fun _ _ heq => by cases heq) hstep
      | call id call =>
          simp only [step] at h
          split at h
          next => cases h
          next hfree =>
            rw [not_or] at hfree
            refine hs.call h rfl rfl (fun _ _ ho => ho) (fun e he => ?_) fun id' task' htask' => ?_
            · rw [SessionCall.carried_start (Option.not_isSome_iff_eq_none.mp hfree.2)] at he
              exact absurd he List.not_mem_nil
            -- An id that is not in use is the id of no request.
            · refine .inl ⟨?_, htask'⟩
              rintro rfl
              have hbusy := hfree.1
              simp [busy, htask'] at hbusy
      | advance id => cases h
      | restart maxSessions => cases h
  | restart loader maxSessions =>
      obtain ⟨rows, -, h⟩ := Option.bind_eq_some_iff.mp h
      obtain ⟨system, hstep, rfl⟩ := Option.map_eq_some_iff.mp h
      -- Requests and pending logins end with the process; the rows stay.
      refine hs.of_frame (fun l hl => hl) (SessionState.now_le_step hstep)
        (fun _ _ ho => by simp at ho)
        (fun hall => hall.step (closed_backed _) (fun _ _ heq => by cases heq) hstep)
        fun id' task' htask' => by simp at htask'

end AuthScope

end XiraNet

import XiraNet.Identity.SessionMachine
import XiraNet.Identity.SessionOps

/-!
# Permanence of revocations

Any interleaving of the operations of a session manager with storage, and of restarts. History
variables record which sessions were inserted, for which a revocation has written to the
database, and which revocations have completed.

* `Dead`: a session that was revoked in memory. Nothing but a restart brings it back.
* `permanent_of_runs`: if no active session is persisted after a revocation of it has written to
  the database, and `invalidate_all` finds every live session of the user in the index, then no
  revoked token is ever validated again.
* `permanent_fails`: the throttled persist of a validation that started earlier writes the
  revoked session back, and a restart loads it.
-/

namespace XiraNet

namespace SessionProc

/-- The token whose active session a call is about to persist. -/
def persisting : SessionProc → Option String
  | .createPersist stored => some stored.token
  | .validatePersist hashed _ => some hashed
  | _ => none

end SessionProc

/-- A session manager with storage and the history of its revocations. -/
structure RevocationHistory where
  system : SessionState
  /-- The tokens whose session was in the map at some time. -/
  inserted : List String
  /-- The tokens for which a revocation has made its database write. -/
  withdrawn : List String
  /-- The sessions that an `invalidate_all` under way revokes: those that were live when it
  copied the index, and those that it met. -/
  covered : DashMap ℕ (List String)
  /-- The tokens whose revocation has completed. -/
  revoked : List String

namespace RevocationHistory

/-- The sessions that an `invalidate_all` under way revokes. -/
def coveredBy (s : RevocationHistory) (id : ℕ) : List String := (s.covered.lookup id).getD []

/-- What the next block of a call adds to the history. -/
def note (s : RevocationHistory) (id : ℕ) : SessionProc → RevocationHistory
  -- An eviction is complete with its database write: the session stays in the map, inactive.
  | .createEvict stored [] => { s with inserted := stored.token :: s.inserted }
  | .createPersistEvicted _ _ old _ =>
      { s with withdrawn := old :: s.withdrawn, revoked := old :: s.revoked }
  | .tokenDelete hashed => { s with withdrawn := hashed :: s.withdrawn }
  | .tokenRemove hashed => { s with revoked := hashed :: s.revoked }
  | .userSnapshot userId =>
      { s with
        covered := s.covered.insert id
          (s.system.manager.liveSessions s.system.now userId) }
  | .userDeactivate _ (hashed :: _) =>
      if (s.system.manager.sessions.lookup hashed).isSome then
        { s with covered := s.covered.insert id (hashed :: s.coveredBy id) }
      else s
  | .userDeactivate _ [] => { s with revoked := s.coveredBy id ++ s.revoked }
  -- The index may list a token whose session is not inserted yet; deleting its row is no
  -- revocation of that session.
  | .userDelete _ hashed _ =>
      if hashed ∈ s.coveredBy id then { s with withdrawn := hashed :: s.withdrawn } else s
  | _ => s

/-- What a step adds to the history. -/
def record (s : RevocationHistory) : SessionAction → RevocationHistory
  | .advance id => ((s.system.procs.lookup id).map (s.note id)).getD s
  | .restart _ => { s with covered := ∅ }
  | _ => s

variable (hashToken : String → String)

/-- A step of the system with its history. -/
def step (s : RevocationHistory) (a : SessionAction) : Option RevocationHistory :=
  (s.system.step hashToken a).map fun system => { s.record a with system }

/-- Every interleaving of operations and restarts. -/
def machine : Machine RevocationHistory SessionAction := ⟨step hashToken⟩

/-- A manager that has just started on a database. -/
def initial (maxSessions now : ℕ) (table : Table SessionRow) : RevocationHistory where
  system := .initial (.withStorage maxSessions now table) now (table.map (·.hashedToken))
  inserted := table.map (·.hashedToken)
  withdrawn := []
  covered := ∅
  revoked := []

/-- No token whose revocation has completed is validated, at whatever time. -/
def Permanent (s : RevocationHistory) : Prop :=
  ∀ token, hashToken token ∈ s.revoked → ∀ now expectedIp,
    (s.system.manager.validateWithRequest hashToken now token expectedIp).1 = none

/-- The steps that keep revocations permanent: no active session is persisted after a revocation
of it has made its database write, and the index of the user lists every live session when
`invalidate_all` copies it. -/
def KeepsRevoked (s : RevocationHistory) : SessionAction → Prop
  | .advance id => ∀ proc ∈ s.system.procs.lookup id,
      (∀ hashed ∈ proc.persisting, hashed ∉ s.withdrawn) ∧
        ∀ userId ∈ proc.snapshotting, ∀ t ∈ s.system.manager.liveSessions s.system.now userId,
          t ∈ s.system.manager.index userId
  | _ => True

instance (s : RevocationHistory) : ∀ a, Decidable (s.KeepsRevoked a)
  | .advance id => inferInstanceAs (Decidable (∀ proc ∈ s.system.procs.lookup id, _))
  | .tick _ | .call _ _ | .visit _ _ | .restart _ => .isTrue trivial

/-- A session that is not in the map or inactive, and not about to be inserted. -/
def Dead (s : RevocationHistory) (t : String) : Prop :=
  t ∈ s.inserted ∧ ∀ session, s.system.manager.sessions.lookup t = some session →
    session.active = false

/-- No active session of a token is stored in the database. -/
def Erased (s : RevocationHistory) (t : String) : Prop :=
  ∀ table ∈ s.system.manager.storage, ∀ row ∈ table, row.hashedToken = t →
    row.toSession.active = false

/-- What the invariant says of a call under way. -/
def ProcOk (s : RevocationHistory) (id : ℕ) : SessionProc → Prop
  | .createIndex stored => stored.token ∈ s.system.issued ∧ stored.token ∉ s.inserted
  | .createEvict stored _ => stored.token ∈ s.system.issued ∧ stored.token ∉ s.inserted
  | .createPersistEvicted stored _ old snap =>
      (stored.token ∈ s.system.issued ∧ stored.token ∉ s.inserted) ∧ s.Dead old ∧
        snap.active = false
  | .createPersist stored => stored.token ∈ s.inserted
  | .validatePersist hashed _ => hashed ∈ s.inserted
  | .tokenUnlist hashed _ => s.Dead hashed
  | .tokenDelete hashed => s.Dead hashed
  | .tokenRemove hashed => hashed ∈ s.withdrawn
  | .userDeactivate _ left => ∀ t ∈ s.coveredBy id, t ∈ s.inserted ∧ (t ∈ s.withdrawn ∨ t ∈ left)
  | .userDelete _ hashed left =>
      (∀ t ∈ s.coveredBy id, t ∈ s.inserted ∧ (t ∈ s.withdrawn ∨ t ∈ hashed :: left)) ∧
        (hashed ∈ s.coveredBy id → s.Dead hashed)
  | .userRemove _ _ left => ∀ t ∈ s.coveredBy id, t ∈ s.inserted ∧ (t ∈ s.withdrawn ∨ t ∈ left)
  | _ => True

/-- The invariant: tokens are inserted once, and what a revocation has written to the database
stays dead and erased. -/
structure Inv (s : RevocationHistory) : Prop where
  procs : ∀ id proc, s.system.procs.lookup id = some proc → s.ProcOk id proc
  distinct : ∀ id id' proc proc', s.system.procs.lookup id = some proc →
    s.system.procs.lookup id' = some proc' → ∀ stored ∈ proc.creating, ∀ stored' ∈ proc'.creating,
      stored.token = stored'.token → id = id'
  issued : ∀ t ∈ s.inserted, t ∈ s.system.issued
  sessions : ∀ t session, s.system.manager.sessions.lookup t = some session → t ∈ s.inserted
  rows : ∀ table ∈ s.system.manager.storage, ∀ row ∈ table, row.hashedToken ∈ s.inserted
  withdrawn : ∀ t ∈ s.withdrawn, s.Dead t ∧ s.Erased t
  revoked : ∀ t ∈ s.revoked, t ∈ s.withdrawn

/-- What the blocks of a call have in common: `s'` is `s` after a block of `proc`, which goes on
as `next`. -/
structure Block (s s' : RevocationHistory) (id : ℕ) (proc : SessionProc)
    (next : Option SessionProc) : Prop where
  procs : s'.system.procs = s.system.procs.put id next
  issued : s'.system.issued = s.system.issued
  /-- Only the session that the call creates is new. -/
  inserted : ∀ t, t ∈ s'.inserted ↔ t ∈ s.inserted ∨
    (∃ stored ∈ proc.creating, stored.token = t) ∧ ∀ next' ∈ next, next'.creating = none
  covered : ∀ id', id' ≠ id → s'.coveredBy id' = s.coveredBy id'
  /-- A session is new, or not more active than before. -/
  sessions : ∀ t session', s'.system.manager.sessions.lookup t = some session' →
    (t ∈ s'.inserted ∧ t ∉ s.inserted) ∨ ∃ session,
      s.system.manager.sessions.lookup t = some session ∧
        (session'.active = true → session.active = true)
  /-- A row is there already, or not withdrawn unless it is inactive. -/
  rows : ∀ table' ∈ s'.system.manager.storage, ∀ row ∈ table',
    (∃ table ∈ s.system.manager.storage, row ∈ table) ∨
      row.hashedToken ∈ s'.inserted ∧
        (row.toSession.active = true → row.hashedToken ∉ s.withdrawn)
  withdrawn : ∀ t ∈ s'.withdrawn, t ∈ s.withdrawn ∨ s'.Dead t ∧ s'.Erased t
  keeps : ∀ t ∈ s.withdrawn, t ∈ s'.withdrawn
  revoked : ∀ t ∈ s'.revoked, t ∈ s.revoked ∨ t ∈ s'.withdrawn
  next : ∀ next' ∈ next, s'.ProcOk id next' ∧ ∀ stored ∈ next'.creating, stored ∈ proc.creating

section Block

variable {s s' : RevocationHistory} {id : ℕ} {proc : SessionProc} {next : Option SessionProc}

/-- What is dead stays dead. -/
theorem Block.dead (h : Block s s' id proc next) {t : String} (hdead : s.Dead t) : s'.Dead t := by
  refine ⟨(h.inserted t).mpr (.inl hdead.1), fun session' hsession => ?_⟩
  -- A new session has a token that was not inserted before, so it is not this one.
  rcases h.sessions t session' hsession with ⟨-, hnew⟩ | ⟨session, hold, hactive⟩
  · exact absurd hdead.1 hnew
  · rw [Bool.eq_false_iff]
    intro hact
    have := hdead.2 session hold
    rw [hactive hact] at this
    cases this

/-- What was erased for good stays erased. -/
theorem Block.erased (h : Block s s' id proc next) {t : String} (hwithdrawn : t ∈ s.withdrawn)
    (herased : s.Erased t) : s'.Erased t := by
  intro table' htable' row hrow hkey
  rcases h.rows table' htable' row hrow with ⟨table, htable, hmem⟩ | ⟨-, hactive⟩
  · exact herased table htable row hmem hkey
  · rw [Bool.eq_false_iff]
    intro hact
    rw [hkey] at hactive
    exact hactive hact hwithdrawn

/-- The other calls are not disturbed. -/
theorem Block.procOk (h : Block s s' id proc next) {id' : ℕ} (hne : id' ≠ id)
    {proc' : SessionProc}
    (hfresh : ∀ stored ∈ proc'.creating, stored.token ∉ s.inserted → stored.token ∉ s'.inserted)
    (hok : s.ProcOk id' proc') : s'.ProcOk id' proc' := by
  have hinserted : ∀ t ∈ s.inserted, t ∈ s'.inserted := fun t ht => (h.inserted t).mpr (.inl ht)
  have hcovered : ∀ left : List String,
      (∀ t ∈ s.coveredBy id', t ∈ s.inserted ∧ (t ∈ s.withdrawn ∨ t ∈ left)) →
        ∀ t ∈ s'.coveredBy id', t ∈ s'.inserted ∧ (t ∈ s'.withdrawn ∨ t ∈ left) := by
    intro left hall t ht
    rw [h.covered id' hne] at ht
    exact ⟨hinserted t (hall t ht).1, (hall t ht).2.imp (h.keeps t) fun hleft => hleft⟩
  cases proc' with
  | createIndex stored => exact ⟨h.issued ▸ hok.1, hfresh stored rfl hok.2⟩
  | createEvict stored toEvict => exact ⟨h.issued ▸ hok.1, hfresh stored rfl hok.2⟩
  | createPersistEvicted stored toEvict old snap =>
      exact ⟨⟨h.issued ▸ hok.1.1, hfresh stored rfl hok.1.2⟩, h.dead hok.2.1, hok.2.2⟩
  | createPersist stored => exact hinserted _ hok
  | validatePersist hashed snap => exact hinserted _ hok
  | tokenUnlist hashed userId => exact h.dead hok
  | tokenDelete hashed => exact h.dead hok
  | tokenRemove hashed => exact h.keeps _ hok
  | userDeactivate userId left => exact hcovered left hok
  | userDelete userId hashed left =>
      refine ⟨hcovered (hashed :: left) hok.1, fun hmem => h.dead (hok.2 ?_)⟩
      rwa [h.covered id' hne] at hmem
  | userRemove userId hashed left => exact hcovered left hok
  | _ => trivial

/-- A block keeps the invariant. -/
theorem Block.inv (h : Block s s' id proc next) (hs : s.Inv)
    (hproc : s.system.procs.lookup id = some proc) : s'.Inv where
  procs := by
    intro id' proc' hproc'
    rw [h.procs, DashMap.lookup_put] at hproc'
    split at hproc'
    next heq =>
      rw [heq]
      exact (h.next proc' hproc').1
    next hne =>
      refine h.procOk hne (fun stored' hstored' hfresh hmem => ?_) (hs.procs id' proc' hproc')
      -- The token that this call inserts is not the one that the other call creates.
      rcases (h.inserted _).mp hmem with hold | ⟨⟨stored, hstored, htoken⟩, -⟩
      · exact hfresh hold
      · exact hne (hs.distinct id' id proc' proc hproc' hproc stored' hstored' stored hstored
          htoken.symm)
  distinct := by
    -- Whatever a call creates after the block it created before.
    have hcreating : ∀ id' proc', s'.system.procs.lookup id' = some proc' →
        ∀ stored ∈ proc'.creating, ∃ old, s.system.procs.lookup id' = some old ∧
          stored ∈ old.creating := by
      intro id' proc' hproc' stored hstored
      rw [h.procs, DashMap.lookup_put] at hproc'
      split at hproc'
      next heq =>
        rw [heq]
        exact ⟨proc, hproc, (h.next proc' hproc').2 stored hstored⟩
      next => exact ⟨proc', hproc', hstored⟩
    intro id1 id2 proc1 proc2 hproc1 hproc2 stored1 hstored1 stored2 hstored2 htoken
    obtain ⟨old1, hold1, hmem1⟩ := hcreating id1 proc1 hproc1 stored1 hstored1
    obtain ⟨old2, hold2, hmem2⟩ := hcreating id2 proc2 hproc2 stored2 hstored2
    exact hs.distinct id1 id2 old1 old2 hold1 hold2 stored1 hmem1 stored2 hmem2 htoken
  issued := by
    intro t ht
    rw [h.issued]
    rcases (h.inserted t).mp ht with hold | ⟨⟨stored, hstored, rfl⟩, -⟩
    · exact hs.issued t hold
    · have hok := hs.procs id proc hproc
      cases proc with
      | createIndex stored' =>
          cases hstored
          exact hok.1
      | createEvict stored' toEvict =>
          cases hstored
          exact hok.1
      | createPersistEvicted stored' toEvict old snap =>
          cases hstored
          exact hok.1.1
      | _ => cases hstored
  sessions := by
    intro t session' hsession
    rcases h.sessions t session' hsession with ⟨hnew, -⟩ | ⟨session, hold, -⟩
    · exact hnew
    · exact (h.inserted t).mpr (.inl (hs.sessions t session hold))
  rows := by
    intro table' htable' row hrow
    rcases h.rows table' htable' row hrow with ⟨table, htable, hmem⟩ | ⟨hinserted, -⟩
    · exact (h.inserted _).mpr (.inl (hs.rows table htable row hmem))
    · exact hinserted
  withdrawn := by
    intro t ht
    rcases h.withdrawn t ht with hold | hnew
    · exact ⟨h.dead (hs.withdrawn t hold).1, h.erased hold (hs.withdrawn t hold).2⟩
    · exact hnew
  revoked := by
    intro t ht
    rcases h.revoked t ht with hold | hnew
    · exact h.keeps t (hs.revoked t hold)
    · exact hnew

end Block

/-- A deactivated session is inactive. -/
theorem inactive_deactivate (m : SessionManager) (hashed : String) (session : Session)
    (h : (m.deactivate hashed).2.sessions.lookup hashed = some session) :
    session.active = false := by
  rw [SessionManager.lookup_deactivate, if_pos rfl] at h
  obtain ⟨old, -, rfl⟩ := Option.map_eq_some_iff.mp h
  rfl

section Advance

variable {s : RevocationHistory} {id : ℕ}

/-- The state after a block that inserts no session: the manager `m`, the call going on as
`next`, and a longer history. -/
def after (s : RevocationHistory) (id : ℕ) (next : Option SessionProc) (m : SessionManager)
    (withdrawn : List String) (covered : DashMap ℕ (List String)) (revoked : List String) :
    RevocationHistory where
  system := { s.system with manager := m, procs := s.system.procs.put id next }
  inserted := s.inserted
  withdrawn
  covered
  revoked

/-- The history after the block that a call runs next. -/
def advanced (s : RevocationHistory) (id : ℕ) (proc : SessionProc) : RevocationHistory :=
  { s.note id proc with
    system := { s.system with
      manager := (proc.advance s.system.manager s.system.now).1
      procs := s.system.procs.put id (proc.advance s.system.manager s.system.now).2 } }

/-- A deletion erases a token. -/
theorem erased_deletePersisted {next : Option SessionProc} (hashed : String)
    {withdrawn : List String} {covered : DashMap ℕ (List String)} {revoked : List String} :
    (s.after id next (s.system.manager.deletePersisted hashed) withdrawn covered revoked).Erased
      hashed :=
  fun _ htable _ hrow hkey =>
    absurd hkey (SessionManager.mem_storage_deletePersisted htable hrow).1

/-- A block that inserts and persists nothing. -/
theorem block_after {proc : SessionProc} {next : Option SessionProc} {m : SessionManager}
    {withdrawn : List String} {covered : DashMap ℕ (List String)} {revoked : List String}
    (hcreating : proc.creating = none ∨ ∃ next' ∈ next, next'.creating ≠ none)
    (hcovered : ∀ id', id' ≠ id → covered.lookup id' = s.covered.lookup id')
    (hfades : SessionManager.Fades s.system.manager m)
    (hrows : ∀ table' ∈ m.storage, ∀ row ∈ table',
      (∃ table ∈ s.system.manager.storage, row ∈ table) ∨ row.hashedToken ∈ s.inserted ∧
        (row.toSession.active = true → row.hashedToken ∉ s.withdrawn))
    (hwithdrawn : ∀ t ∈ withdrawn, t ∈ s.withdrawn ∨
      (s.after id next m withdrawn covered revoked).Dead t ∧
        (s.after id next m withdrawn covered revoked).Erased t)
    (hkeeps : ∀ t ∈ s.withdrawn, t ∈ withdrawn)
    (hrevoked : ∀ t ∈ revoked, t ∈ s.revoked ∨ t ∈ withdrawn)
    (hnext : ∀ next' ∈ next, (s.after id next m withdrawn covered revoked).ProcOk id next' ∧
      ∀ stored ∈ next'.creating, stored ∈ proc.creating) :
    Block s (s.after id next m withdrawn covered revoked) id proc next where
  procs := rfl
  issued := rfl
  inserted := by
    intro t
    refine (or_iff_left ?_).symm
    rintro ⟨⟨stored, hstored, -⟩, hall⟩
    rcases hcreating with hnone | ⟨next', hmem, hsome⟩
    · rw [hnone] at hstored
      cases hstored
    · exact hsome (hall next' hmem)
  covered := fun id' hne => congrArg (fun o => Option.getD o []) (hcovered id' hne)
  sessions := by
    intro t session' hsession
    obtain ⟨session, hold, -, -, hactive⟩ := hfades t session' hsession
    exact .inr ⟨session, hold, hactive⟩
  rows := hrows
  withdrawn := hwithdrawn
  keeps := hkeeps
  revoked := hrevoked
  next := hnext

/-- A block that changes nothing in the history. -/
theorem block_quiet {proc : SessionProc} {next : Option SessionProc} {m : SessionManager}
    (hcreating : proc.creating = none ∨ ∃ next' ∈ next, next'.creating ≠ none)
    (hfades : SessionManager.Fades s.system.manager m)
    (hshrinks : SessionManager.Shrinks s.system.manager m)
    (hnext : ∀ next' ∈ next, (s.after id next m s.withdrawn s.covered s.revoked).ProcOk id next' ∧
      ∀ stored ∈ next'.creating, stored ∈ proc.creating) :
    Block s (s.after id next m s.withdrawn s.covered s.revoked) id proc next :=
  block_after hcreating (fun _ _ => rfl) hfades
    (fun table htable row hrow => .inl (hshrinks table htable row hrow)) (fun _ => .inl)
    (fun _ h => h) (fun _ => .inl) hnext

/-- The persist of an active session that no revocation has withdrawn. -/
theorem block_persist {proc : SessionProc} {hashed : String} {session : Session}
    (hproc : proc.creating = none) (hinserted : hashed ∈ s.inserted)
    (hkept : hashed ∉ s.withdrawn) :
    Block s (s.after id none (s.system.manager.persist hashed session) s.withdrawn s.covered
      s.revoked) id proc none := by
  refine block_after (.inl hproc) (fun _ _ => rfl) (SessionManager.fades_of_eq rfl) ?_
    (fun _ => .inl) (fun _ h => h) (fun _ => .inl) (by rintro _ ⟨⟩)
  intro table htable row hrow
  rcases SessionManager.mem_storage_persist htable hrow with ⟨-, hold⟩ | rfl
  · exact .inl hold
  · exact .inr ⟨hinserted, fun _ => hkept⟩

/-- The first block of a validation, in terms of what it finds. -/
theorem advance_validateCheck (m : SessionManager) (now now' : ℕ) (hashed : String)
    (expectedIp : Option String) :
    (SessionProc.validateCheck now hashed expectedIp).advance m now' =
      ((m.checkSession now hashed expectedIp).2,
        match (m.checkSession now hashed expectedIp).1 with
        | .notFound => none
        | .expired => none
        | .bindingViolation => some (.tokenDeactivate hashed)
        | .validated snap shouldPersist =>
            if shouldPersist then some (.validatePersist hashed snap) else none) := by
  rcases m.checkSession_cases now hashed expectedIp with
    ⟨-, h⟩ | ⟨_, -, -, h⟩ | ⟨_, -, -, -, h⟩ | ⟨_, -, -, -, h⟩
  · simp [SessionProc.advance, h]
  · simp [SessionProc.advance, h]
  · simp [SessionProc.advance, h]
  · simp [SessionProc.advance, h]

/-- A block of the evictions keeps the invariant: it evicts the next session, or inserts the new
one when there are none left. -/
theorem inv_createEvict (hs : s.Inv) {stored : Session} {toEvict : List String}
    (hproc : s.system.procs.lookup id = some (.createEvict stored toEvict)) :
    (s.advanced id (.createEvict stored toEvict)).Inv := by
  unfold advanced
  have hok := hs.procs id _ hproc
  cases toEvict with
  | nil =>
      -- The only block that inserts a session, under a token not inserted before.
      have hblock : Block s { s.after id (some (.createPersist stored))
          (s.system.manager.insertSession stored.token stored) s.withdrawn s.covered s.revoked
          with inserted := stored.token :: s.inserted } id (.createEvict stored [])
          (some (.createPersist stored)) := {
        procs := rfl
        issued := rfl
        inserted := by simp [SessionProc.creating, eq_comm, or_comm]
        covered := fun _ _ => rfl
        sessions := by
          intro t session' hsession
          simp only [after, SessionManager.lookup_insertSession] at hsession
          split at hsession
          next heq =>
            rw [heq]
            exact .inl ⟨List.mem_cons_self, hok.2⟩
          next => exact .inr ⟨session', hsession, fun hactive => hactive⟩
        rows := fun table htable row hrow => .inl ⟨table, htable, hrow⟩
        withdrawn := fun _ => .inl
        keeps := fun _ h => h
        revoked := fun _ => .inl
        next := by
          rintro _ ⟨⟩
          exact ⟨List.mem_cons_self, by simp [SessionProc.creating]⟩ }
      exact hblock.inv hs hproc
  | cons old toEvict =>
      cases hold : s.system.manager.sessions.lookup old with
      | none =>
          have hadvance : (SessionProc.createEvict stored (old :: toEvict)).advance
              s.system.manager s.system.now = ((s.system.manager.deactivate old).2,
                some (.createEvict stored toEvict)) := by
            simp [SessionProc.advance, SessionManager.deactivate, hold]
          rw [hadvance]
          refine Block.inv (block_quiet (.inr ⟨_, rfl, by rintro ⟨⟩⟩)
            (SessionManager.fades_deactivate _ old) (SessionManager.shrinks_of_eq rfl)
            ?_) hs hproc
          rintro _ ⟨⟩
          exact ⟨hok, fun _ hstored => hstored⟩
      | some session =>
          have hadvance : (SessionProc.createEvict stored (old :: toEvict)).advance
              s.system.manager s.system.now = ((s.system.manager.deactivate old).2,
                some (.createPersistEvicted stored toEvict old
                  { session with active := false })) := by
            simp [SessionProc.advance, SessionManager.deactivate, hold]
          rw [hadvance]
          refine Block.inv (block_quiet (.inr ⟨_, rfl, by rintro ⟨⟩⟩)
            (SessionManager.fades_deactivate _ old) (SessionManager.shrinks_of_eq rfl)
            ?_) hs hproc
          rintro _ ⟨⟩
          refine ⟨⟨hok, ⟨hs.sessions old session hold, inactive_deactivate _ old⟩, rfl⟩,
            fun _ hstored => hstored⟩

/-- The persist of an evicted session keeps the invariant, and withdraws that session. -/
theorem inv_createPersistEvicted (hs : s.Inv) {stored : Session} {toEvict : List String}
    {old : String} {snap : Session}
    (hproc : s.system.procs.lookup id = some (.createPersistEvicted stored toEvict old snap)) :
    (s.advanced id (.createPersistEvicted stored toEvict old snap)).Inv := by
  unfold advanced
  have hok := hs.procs id _ hproc
  obtain ⟨hfresh, hdead, hinactive⟩ := hok
  refine Block.inv (block_after (.inr ⟨_, rfl, by rintro ⟨⟩⟩) (fun _ _ => rfl)
    (SessionManager.fades_of_eq rfl) ?_ ?_ (fun _ => List.mem_cons_of_mem _) ?_ ?_) hs hproc
  -- The row of an eviction is inactive, so it may be written at any time.
  · intro table htable row hrow
    rcases SessionManager.mem_storage_persist htable hrow with ⟨-, hold⟩ | rfl
    · exact .inl hold
    · refine .inr ⟨hdead.1, fun hactive => ?_⟩
      rw [Session.active_toSession_toRow, hinactive] at hactive
      cases hactive
  · intro t ht
    refine (List.mem_cons.mp ht).symm.imp_right ?_
    rintro rfl
    refine ⟨hdead, fun table htable row hrow hkey => ?_⟩
    rcases SessionManager.mem_storage_persist htable hrow with ⟨hne, -⟩ | rfl
    · exact absurd hkey hne
    · rw [Session.active_toSession_toRow, hinactive]
  · intro t ht
    rcases List.mem_cons.mp ht with rfl | hold
    · exact .inr List.mem_cons_self
    · exact .inl hold
  · rintro _ ⟨⟩
    exact ⟨hfresh, fun _ hstored => hstored⟩

/-- The check of a validation keeps the invariant. -/
theorem inv_validateCheck (hs : s.Inv) {now : ℕ} {hashed : String} {expectedIp : Option String}
    (hproc : s.system.procs.lookup id = some (.validateCheck now hashed expectedIp)) :
    (s.advanced id (.validateCheck now hashed expectedIp)).Inv := by
  unfold advanced
  have hfades := SessionManager.fades_checkSession s.system.manager now hashed expectedIp
  have hshrinks : SessionManager.Shrinks s.system.manager
      (s.system.manager.checkSession now hashed expectedIp).2 :=
    SessionManager.shrinks_of_eq (s.system.manager.storage_checkSession now hashed expectedIp)
  refine Block.inv (block_quiet (.inl rfl) ?_ ?_ ?_) hs hproc
  · rwa [advance_validateCheck]
  · rwa [advance_validateCheck]
  · rw [advance_validateCheck]
    intro next' hnext'
    rcases s.system.manager.checkSession_cases now hashed expectedIp with
      ⟨-, h⟩ | ⟨_, -, -, h⟩ | ⟨_, -, -, -, h⟩ | ⟨session, hsession, -, -, h⟩
    · simp [h] at hnext'
    · simp [h] at hnext'
    · simp only [h, Option.mem_def, Option.some.injEq] at hnext'
      subst hnext'
      exact ⟨trivial, by rintro _ ⟨⟩⟩
    · simp only [h] at hnext'
      split at hnext'
      next =>
        cases hnext'
        exact ⟨hs.sessions hashed session hsession, by rintro _ ⟨⟩⟩
      next => cases hnext'

/-- The deactivation of a token keeps the invariant. -/
theorem inv_tokenDeactivate (hs : s.Inv) {hashed : String}
    (hproc : s.system.procs.lookup id = some (.tokenDeactivate hashed)) :
    (s.advanced id (.tokenDeactivate hashed)).Inv := by
  unfold advanced
  cases hold : s.system.manager.sessions.lookup hashed with
  | none =>
      have hadvance : (SessionProc.tokenDeactivate hashed).advance s.system.manager
          s.system.now = ((s.system.manager.deactivate hashed).2, none) := by
        simp [SessionProc.advance, SessionManager.deactivate, hold]
      rw [hadvance]
      refine Block.inv (block_quiet (.inl rfl) (SessionManager.fades_deactivate _ hashed)
        (SessionManager.shrinks_of_eq rfl) ?_) hs hproc
      rintro _ ⟨⟩
  | some session =>
      have hadvance : (SessionProc.tokenDeactivate hashed).advance s.system.manager
          s.system.now = ((s.system.manager.deactivate hashed).2,
            some (.tokenUnlist hashed session.userId)) := by
        simp [SessionProc.advance, SessionManager.deactivate, hold]
      rw [hadvance]
      refine Block.inv (block_quiet (.inl rfl) (SessionManager.fades_deactivate _ hashed)
        (SessionManager.shrinks_of_eq rfl) ?_) hs hproc
      rintro _ ⟨⟩
      exact ⟨⟨hs.sessions hashed session hold, inactive_deactivate _ hashed⟩, by rintro _ ⟨⟩⟩

/-- The deletion of the row of an invalidated session keeps the invariant, and withdraws it. -/
theorem inv_tokenDelete (hs : s.Inv) {hashed : String}
    (hproc : s.system.procs.lookup id = some (.tokenDelete hashed)) :
    (s.advanced id (.tokenDelete hashed)).Inv := by
  unfold advanced
  have hok := hs.procs id _ hproc
  refine Block.inv (block_after (.inl rfl) (fun _ _ => rfl) (SessionManager.fades_of_eq rfl)
    (fun table htable row hrow =>
      .inl (SessionManager.shrinks_deletePersisted _ hashed table htable row hrow))
    ?_ (fun _ => List.mem_cons_of_mem _) (fun _ => .inl) ?_) hs hproc
  · intro t ht
    refine (List.mem_cons.mp ht).symm.imp_right ?_
    rintro rfl
    exact ⟨hok, erased_deletePersisted _⟩
  · rintro _ ⟨⟩
    exact ⟨List.mem_cons_self, by rintro _ ⟨⟩⟩

/-- The removal of an invalidated session, which ends the call, keeps the invariant. -/
theorem inv_tokenRemove (hs : s.Inv) {hashed : String}
    (hproc : s.system.procs.lookup id = some (.tokenRemove hashed)) :
    (s.advanced id (.tokenRemove hashed)).Inv := by
  unfold advanced
  have hok := hs.procs id _ hproc
  refine Block.inv (block_after (.inl rfl) (fun _ _ => rfl)
    (SessionManager.fades_removeSession _ hashed)
    (fun table htable row hrow => .inl ⟨table, htable, hrow⟩) (fun _ => .inl)
    (fun _ h => h) ?_ (by rintro _ ⟨⟩)) hs hproc
  intro t ht
  rcases List.mem_cons.mp ht with rfl | hold
  · exact .inr hok
  · exact .inl hold

/-- The snapshot of the index of a user keeps the invariant, if it lists every live session. -/
theorem inv_userSnapshot (hs : s.Inv) {userId : String}
    (hproc : s.system.procs.lookup id = some (.userSnapshot userId))
    (hlisted : ∀ t ∈ s.system.manager.liveSessions s.system.now userId,
      t ∈ s.system.manager.index userId) :
    (s.advanced id (.userSnapshot userId)).Inv := by
  unfold advanced
  refine Block.inv (block_after (.inl rfl) ?_ (SessionManager.fades_of_eq rfl)
    (fun table htable row hrow => .inl ⟨table, htable, hrow⟩) (fun _ => .inl)
    (fun _ h => h) (fun _ => .inl) ?_) hs hproc
  · intro id' hne
    simp [note, hne]
  · rintro _ ⟨⟩
    refine ⟨fun t ht => ?_, by rintro _ ⟨⟩⟩
    have hlive : t ∈ s.system.manager.liveSessions s.system.now userId := by
      simpa [coveredBy, note, after, DashMap.lookup_insert] using ht
    obtain ⟨session, hsession, -⟩ := SessionManager.mem_liveSessions.mp hlive
    exact ⟨hs.sessions t session hsession, .inr (hlisted t hlive)⟩

/-- A block of the walk over the sessions of a user keeps the invariant: it deactivates the next
session, or ends the walk. -/
theorem inv_userDeactivate (hs : s.Inv) {userId : String} {left : List String}
    (hproc : s.system.procs.lookup id = some (.userDeactivate userId left)) :
    (s.advanced id (.userDeactivate userId left)).Inv := by
  unfold advanced
  have hok := hs.procs id _ hproc
  cases left with
  | nil =>
      refine Block.inv (block_after (.inl rfl) (fun _ _ => rfl) (SessionManager.fades_of_eq rfl)
        (fun table htable row hrow => .inl ⟨table, htable, hrow⟩) (fun _ => .inl)
        (fun _ h => h) ?_ (by rintro _ ⟨⟩)) hs hproc
      intro t ht
      -- The walk is at its end, so every covered session has been withdrawn on the way.
      refine (List.mem_append.mp ht).symm.imp_right fun hcovered => ?_
      exact (hok t hcovered).2.resolve_right List.not_mem_nil
  | cons hashed left =>
      cases hold : s.system.manager.sessions.lookup hashed with
      | none =>
          have hnote : s.note id (.userDeactivate userId (hashed :: left)) = s := by
            simp [note, hold]
          rw [hnote]
          refine Block.inv (block_quiet (.inl rfl) (SessionManager.fades_deactivate _ hashed)
            (SessionManager.shrinks_of_eq rfl) ?_) hs hproc
          rintro _ ⟨⟩
          exact ⟨⟨hok, fun hcovered => ⟨(hok hashed hcovered).1,
            inactive_deactivate _ hashed⟩⟩, by rintro _ ⟨⟩⟩
      | some session =>
          have hnote : s.note id (.userDeactivate userId (hashed :: left)) =
              { s with covered := s.covered.insert id (hashed :: s.coveredBy id) } := by
            simp [note, hold]
          rw [hnote]
          refine Block.inv (block_after (.inl rfl) ?_ (SessionManager.fades_deactivate _ hashed)
            (fun table htable row hrow => .inl ⟨table, htable, hrow⟩) (fun _ => .inl)
            (fun _ h => h) (fun _ => .inl) ?_) hs hproc
          · intro id' hne
            simp [hne]
          · rintro _ ⟨⟩
            have hinserted := hs.sessions hashed session hold
            refine ⟨⟨fun t ht => ?_, fun _ => ⟨hinserted, inactive_deactivate _ hashed⟩⟩,
              by rintro _ ⟨⟩⟩
            have hcases : t = hashed ∨ t ∈ s.coveredBy id := by
              simpa [after, coveredBy] using ht
            rcases hcases with rfl | hcovered
            · exact ⟨hinserted, .inr List.mem_cons_self⟩
            · exact hok t hcovered

/-- The deletion of a row on that walk keeps the invariant. -/
theorem inv_userDelete (hs : s.Inv) {userId hashed : String} {left : List String}
    (hproc : s.system.procs.lookup id = some (.userDelete userId hashed left)) :
    (s.advanced id (.userDelete userId hashed left)).Inv := by
  unfold advanced
  have hok := hs.procs id _ hproc
  obtain ⟨hcovered, hdead⟩ := hok
  by_cases hmem : hashed ∈ s.coveredBy id
  · have hnote : s.note id (.userDelete userId hashed left) =
        { s with withdrawn := hashed :: s.withdrawn } := by simp [note, hmem]
    rw [hnote]
    refine Block.inv (block_after (.inl rfl) (fun _ _ => rfl) (SessionManager.fades_of_eq rfl)
      (fun table htable row hrow =>
        .inl (SessionManager.shrinks_deletePersisted _ hashed table htable row hrow))
      ?_ (fun _ => List.mem_cons_of_mem _) (fun _ => .inl) ?_) hs hproc
    · intro t ht
      refine (List.mem_cons.mp ht).symm.imp_right ?_
      rintro rfl
      exact ⟨hdead hmem, erased_deletePersisted _⟩
    · rintro _ ⟨⟩
      refine ⟨fun t ht => ⟨(hcovered t ht).1, ?_⟩, by rintro _ ⟨⟩⟩
      rcases (hcovered t ht).2 with hwithdrawn | hleft
      · exact .inl (List.mem_cons_of_mem _ hwithdrawn)
      · exact (List.mem_cons.mp hleft).imp_left fun heq => List.mem_cons.mpr (.inl heq)
  · have hnote : s.note id (.userDelete userId hashed left) = s := by simp [note, hmem]
    rw [hnote]
    refine Block.inv (block_quiet (.inl rfl) (SessionManager.fades_of_eq rfl)
      (SessionManager.shrinks_deletePersisted _ hashed) ?_) hs hproc
    rintro _ ⟨⟩
    -- A token of an index that the call does not revoke, such as one not inserted yet.
    refine ⟨fun t ht => ⟨(hcovered t ht).1, (hcovered t ht).2.imp_right fun hleft => ?_⟩,
      by rintro _ ⟨⟩⟩
    exact (List.mem_cons.mp hleft).resolve_left fun heq => hmem (heq ▸ ht)

/-- Every block keeps the invariant under the condition. -/
theorem inv_advance (hs : s.Inv) {proc : SessionProc}
    (hproc : s.system.procs.lookup id = some proc)
    (hkept : ∀ hashed ∈ proc.persisting, hashed ∉ s.withdrawn)
    (hlisted : ∀ userId ∈ proc.snapshotting,
      ∀ t ∈ s.system.manager.liveSessions s.system.now userId,
        t ∈ s.system.manager.index userId) :
    (s.advanced id proc).Inv := by
  have hok := hs.procs id proc hproc
  cases proc with
  | createIndex stored =>
      refine Block.inv (block_quiet (.inr ⟨_, rfl, by rintro ⟨⟩⟩) (SessionManager.fades_of_eq rfl)
        (SessionManager.shrinks_of_eq rfl) ?_) hs hproc
      rintro _ ⟨⟩
      exact ⟨hok, fun _ hstored => hstored⟩
  | createEvict stored toEvict => exact inv_createEvict hs hproc
  | createPersistEvicted stored toEvict old snap => exact inv_createPersistEvicted hs hproc
  | createPersist stored => exact Block.inv (block_persist rfl hok (hkept _ rfl)) hs hproc
  | validateCheck now hashed expectedIp => exact inv_validateCheck hs hproc
  | validatePersist hashed snap => exact Block.inv (block_persist rfl hok (hkept _ rfl)) hs hproc
  | tokenDeactivate hashed => exact inv_tokenDeactivate hs hproc
  | tokenUnlist hashed userId =>
      refine Block.inv (block_quiet (.inl rfl) (SessionManager.fades_of_eq rfl)
        (SessionManager.shrinks_of_eq rfl) ?_) hs hproc
      rintro _ ⟨⟩
      exact ⟨hok, by rintro _ ⟨⟩⟩
  | tokenDelete hashed => exact inv_tokenDelete hs hproc
  | tokenRemove hashed => exact inv_tokenRemove hs hproc
  | userSnapshot userId => exact inv_userSnapshot hs hproc (hlisted _ rfl)
  | userDeactivate userId left => exact inv_userDeactivate hs hproc
  | userDelete userId hashed left => exact inv_userDelete hs hproc
  | userRemove userId hashed left =>
      refine Block.inv (block_quiet (.inl rfl) (SessionManager.fades_removeSession _ hashed)
        (SessionManager.shrinks_of_eq rfl) ?_) hs hproc
      rintro _ ⟨⟩
      exact ⟨hok, by rintro _ ⟨⟩⟩
  | cleanupScan now toRemove =>
      refine Block.inv (block_quiet (.inl rfl) (SessionManager.fades_of_eq rfl)
        (SessionManager.shrinks_of_eq rfl) ?_) hs hproc
      rintro _ ⟨⟩
      exact ⟨trivial, by rintro _ ⟨⟩⟩
  | cleanupRemove left =>
      cases left with
      | nil =>
          refine Block.inv (block_quiet (.inl rfl) (SessionManager.fades_of_eq rfl)
            (SessionManager.shrinks_of_eq rfl) (by rintro _ ⟨⟩)) hs hproc
      | cons entry left =>
          refine Block.inv (block_quiet (.inl rfl) (SessionManager.fades_removeSession _ entry.1)
            (SessionManager.shrinks_of_eq rfl) ?_) hs hproc
          rintro _ ⟨⟩
          exact ⟨trivial, by rintro _ ⟨⟩⟩
  | cleanupDelete hashed userId left =>
      refine Block.inv (block_quiet (.inl rfl) (SessionManager.fades_of_eq rfl)
        (SessionManager.shrinks_deletePersisted _ hashed) ?_) hs hproc
      rintro _ ⟨⟩
      exact ⟨trivial, by rintro _ ⟨⟩⟩
  | cleanupUnlist hashed userId left =>
      refine Block.inv (block_quiet (.inl rfl) (SessionManager.fades_of_eq rfl)
        (SessionManager.shrinks_of_eq rfl) ?_) hs hproc
      rintro _ ⟨⟩
      exact ⟨trivial, by rintro _ ⟨⟩⟩

end Advance

variable {hashToken}

/-- A call that starts keeps the invariant: its token was not issued before. -/
theorem inv_call {s : RevocationHistory} (hs : s.Inv) {id : ℕ} {call : SessionCall}
    {system : SessionState} (h : s.system.step hashToken (.call id call) = some system) :
    Inv { s with system } := by
  obtain ⟨-, hfresh, rfl⟩ := SessionState.step_call h
  have hissued : ∀ t ∈ s.system.issued, t ∈ (call.issues hashToken).toList ++ s.system.issued :=
    fun t => List.mem_append_right _
  -- The only token under creation that is not issued yet is the one that is issued now.
  have hcreating : ∀ stored ∈ (call.start hashToken s.system.now).creating,
      stored.token ∈ call.issues hashToken := by
    cases call with
    | create userId token ip userAgent ttlSecs =>
        rintro _ ⟨⟩
        rfl
    | _ => rintro _ ⟨⟩
  have hold : ∀ id' proc, s.system.procs.lookup id' = some proc → ∀ stored ∈ proc.creating,
      stored.token ∈ s.system.issued := by
    intro id' proc hproc stored hstored
    have hok := hs.procs id' proc hproc
    cases proc with
    | createIndex stored' =>
        cases hstored
        exact hok.1
    | createEvict stored' toEvict =>
        cases hstored
        exact hok.1
    | createPersistEvicted stored' toEvict old snap =>
        cases hstored
        exact hok.1.1
    | _ => cases hstored
  refine { hs with procs := ?_, distinct := ?_, issued := fun t ht => hissued t (hs.issued t ht) }
  · intro id' proc hproc
    rcases DashMap.lookup_insert_cases hproc with ⟨-, rfl⟩ | ⟨-, hbefore⟩
    · cases call with
      | create userId token ip userAgent ttlSecs =>
          refine ⟨List.mem_append_left _ List.mem_cons_self, fun hinserted => ?_⟩
          exact hfresh _ rfl (hs.issued _ hinserted)
      | _ => trivial
    · have hok := hs.procs id' proc hbefore
      cases proc with
      | createIndex stored => exact ⟨hissued _ hok.1, hok.2⟩
      | createEvict stored toEvict => exact ⟨hissued _ hok.1, hok.2⟩
      | createPersistEvicted stored toEvict old snap =>
          exact ⟨⟨hissued _ hok.1.1, hok.1.2⟩, hok.2⟩
      | _ => exact hok
  · intro id1 id2 proc1 proc2 hproc1 hproc2 stored1 hstored1 stored2 hstored2 htoken
    rcases DashMap.lookup_insert_cases hproc1 with ⟨heq1, rfl⟩ | ⟨-, hbefore1⟩
    · rcases DashMap.lookup_insert_cases hproc2 with ⟨heq2, -⟩ | ⟨-, hbefore2⟩
      · exact heq1.trans heq2.symm
      · -- The token of a new call is not one that was issued before.
        refine absurd (hold id2 proc2 hbefore2 stored2 hstored2) ?_
        rw [← htoken]
        exact hfresh _ (hcreating stored1 hstored1)
    · rcases DashMap.lookup_insert_cases hproc2 with ⟨-, rfl⟩ | ⟨-, hbefore2⟩
      · refine absurd (hold id1 proc1 hbefore1 stored1 hstored1) ?_
        rw [htoken]
        exact hfresh _ (hcreating stored2 hstored2)
      · exact hs.distinct id1 id2 proc1 proc2 hbefore1 hbefore2 stored1 hstored1 stored2 hstored2
          htoken

/-- A restart loads no session that a revocation has withdrawn. -/
theorem inv_restart {s : RevocationHistory} (hs : s.Inv) {maxSessions : ℕ}
    {system : SessionState} (h : s.system.step hashToken (.restart maxSessions) = some system) :
    Inv { s with system, covered := ∅ } := by
  obtain ⟨table, htable, rfl⟩ := Option.map_eq_some_iff.mp h
  have hstorage : (SessionManager.withStorage maxSessions s.system.now table).storage =
      some table := SessionManager.storage_withStorage _ _ _
  refine { hs with procs := ?_, distinct := ?_, sessions := ?_, rows := ?_, withdrawn := ?_ }
  · intro id proc hproc
    simp at hproc
  · intro id1 id2 proc1 proc2 hproc1
    simp at hproc1
  · intro t session hsession
    obtain ⟨row, hrow, rfl, -⟩ := SessionManager.of_lookup_withStorage hsession
    exact hs.rows table htable row hrow
  · intro table' htable' row hrow
    obtain rfl : table = table' := Option.some.inj (hstorage.symm.trans htable')
    exact hs.rows table htable row hrow
  · intro t ht
    obtain ⟨hdead, herased⟩ := hs.withdrawn t ht
    refine ⟨⟨hdead.1, fun session hsession => ?_⟩, fun table' htable' row hrow => ?_⟩
    · obtain ⟨row, hrow, hkey, -, rfl⟩ := SessionManager.of_lookup_withStorage hsession
      exact herased table htable row hrow hkey
    · obtain rfl : table = table' := Option.some.inj (hstorage.symm.trans htable')
      exact herased table htable row hrow

/-- Every step keeps the invariant under the condition. -/
theorem inv_step (s : RevocationHistory) (a : SessionAction) (s' : RevocationHistory)
    (hs : s.Inv) (hok : s.KeepsRevoked a) (h : s.step hashToken a = some s') : s'.Inv := by
  obtain ⟨system, hsystem, rfl⟩ := Option.map_eq_some_iff.mp h
  cases a with
  | tick now =>
      simp only [SessionState.step] at hsystem
      split at hsystem
      next =>
        cases hsystem
        exact { hs with }
      next => cases hsystem
  | call id call => exact inv_call hs hsystem
  | advance id =>
      obtain ⟨proc, hproc, rfl⟩ := SessionState.step_advance hsystem
      obtain ⟨hkept, hlisted⟩ := hok proc hproc
      have hrecord : s.record (.advance id) = s.note id proc := by simp [record, hproc]
      rw [hrecord]
      exact inv_advance hs hproc hkept hlisted
  | visit id hashed =>
      obtain ⟨proc, hproc, hvisit⟩ := Option.bind_eq_some_iff.mp hsystem
      obtain ⟨next, hnext, rfl⟩ := Option.map_eq_some_iff.mp hvisit
      cases proc with
      | cleanupScan now toRemove =>
          obtain ⟨session, -, rfl⟩ := Option.map_eq_some_iff.mp hnext
          have hblock : ∀ toRemove', Block s (s.after id (some (.cleanupScan now toRemove'))
              s.system.manager s.withdrawn s.covered s.revoked) id (.cleanupScan now toRemove)
              (some (.cleanupScan now toRemove')) := by
            intro toRemove'
            refine block_quiet (.inl rfl) (SessionManager.fades_of_eq rfl)
              (SessionManager.shrinks_of_eq rfl) ?_
            rintro _ ⟨⟩
            exact ⟨trivial, by rintro _ ⟨⟩⟩
          split
          next => exact (hblock _).inv hs hproc
          next => exact (hblock _).inv hs hproc
      | _ => cases hnext
  | restart maxSessions => exact inv_restart hs hsystem

/-- Nothing is revoked at the start, and no call is under way. -/
theorem inv_initial (maxSessions now : ℕ) (table : Table SessionRow) :
    (initial maxSessions now table).Inv where
  procs := by simp [initial, SessionState.initial]
  distinct := by simp [initial, SessionState.initial]
  issued := fun t ht => ht
  sessions := by
    intro t session hsession
    obtain ⟨row, hrow, rfl, -⟩ := SessionManager.of_lookup_withStorage hsession
    exact List.mem_map_of_mem hrow
  rows := by
    intro table' htable' row hrow
    obtain rfl : table = table' :=
      Option.some.inj ((SessionManager.storage_withStorage _ _ _).symm.trans htable')
    exact List.mem_map_of_mem hrow
  withdrawn := by simp [initial]
  revoked := by simp [initial]

/-- Under the invariant no revoked token is validated. -/
theorem Inv.permanent {s : RevocationHistory} (hs : s.Inv) : s.Permanent hashToken := by
  intro token hrevoked now expectedIp
  obtain ⟨hdead, -⟩ := hs.withdrawn _ (hs.revoked _ hrevoked)
  exact SessionManager.validateWithRequest_eq_none hdead.2 now expectedIp

/-- In every run in which no active session is persisted after a revocation of it has made its
database write, and in which `invalidate_all` finds every live session of the user in the index,
no revoked token is ever validated again, before or after a restart. -/
theorem permanent_of_runs (hashToken : String → String) (maxSessions now : ℕ)
    (table : Table SessionRow) (as : List SessionAction) (s : RevocationHistory)
    (hrun : (machine hashToken).Runs KeepsRevoked (initial maxSessions now table) as s) :
    s.Permanent hashToken :=
  (hrun.invariant inv_step (inv_initial maxSessions now table)).permanent

/-- A session is validated and persisted while it is being revoked; the gateway restarts. -/
def timelyPersist : List SessionAction :=
  [.call 0 (.create "u" "a" "10.0.0.1" "" 600), .advance 0, .advance 0, .advance 0, .tick 40,
    .call 1 (.validateWithRequest "a" none), .advance 1, .call 2 (.invalidate "a"), .advance 2,
    .advance 1, .advance 2, .advance 2, .advance 2, .restart 3]

/-- The permanence of a revocation that overlaps with a validation. -/
theorem permanent_timelyPersist :
    ∃ s, (machine id).Runs KeepsRevoked (initial 3 0 []) timelyPersist s ∧ "a" ∈ s.revoked ∧
      s.Permanent id := by
  obtain ⟨s, hs, hrevoked⟩ : ∃ s, (machine id).exec KeepsRevoked (initial 3 0 []) timelyPersist =
      some s ∧ "a" ∈ s.revoked := by
    refine ⟨_, rfl, ?_⟩
    decide
  have hrun := Machine.runs_of_exec hs
  exact ⟨s, hrun, hrevoked, permanent_of_runs id 3 0 [] timelyPersist s hrun⟩

/-- A validation takes its snapshot, the session is revoked, and then the throttled persist
runs; the gateway restarts. -/
def latePersist : List SessionAction :=
  [.call 0 (.create "u" "a" "10.0.0.1" "" 600), .advance 0, .advance 0, .advance 0, .tick 40,
    .call 1 (.validateWithRequest "a" none), .advance 1, .call 2 (.invalidate "a"), .advance 2,
    .advance 2, .advance 2, .advance 2, .advance 1, .restart 3]

/-- Without the condition a revocation is not permanent: the late persist writes the session
back, and after the restart its token is validated. -/
theorem permanent_fails :
    ¬ ∀ (hashToken : String → String) (maxSessions now : ℕ) (table : Table SessionRow)
      (as : List SessionAction) (s : RevocationHistory),
      (machine hashToken).Runs Machine.unrestricted (initial maxSessions now table) as s →
        s.Permanent hashToken := by
  intro hall
  have hend : ∃ s, (machine id).exec Machine.unrestricted (initial 3 0 []) latePersist = some s ∧
      "a" ∈ s.revoked ∧
        (s.system.manager.validateWithRequest id s.system.now "a" none).1.isSome = true := by
    refine ⟨_, rfl, ?_, ?_⟩ <;> decide
  obtain ⟨s, hs, hrevoked, hvalid⟩ := hend
  rw [hall id 3 0 [] latePersist s (Machine.runs_of_exec hs) "a" hrevoked] at hvalid
  cases hvalid

end RevocationHistory

end XiraNet

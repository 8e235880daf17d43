import XiraNet.Identity.Sessions
import XiraNet.Lib.Runs

/-!
# Concurrent session operations

Any number of calls on one session manager, interleaved at their lock sections and database
statements, with restarts. A call that is under way is the block it runs next together with its
local variables; a restart drops the calls and the maps and keeps the database.

* `SessionState.step_advance`, `SessionState.step_call`: what a step leaves behind.
* `SessionProc.advance`: the blocks of every operation, in the order of the source.
-/

namespace XiraNet

/-- A call under way: the block that comes next, with the local variables it still needs. -/
inductive SessionProc
  /-- `create` before the lock of the user's index. -/
  | createIndex (stored : Session)
  /-- `create` before the next eviction, or the insertion if none is left. -/
  | createEvict (stored : Session) (toEvict : List String)
  /-- `create` before it persists an eviction. -/
  | createPersistEvicted (stored : Session) (toEvict : List String) (old : String)
      (snap : Session)
  /-- `create` before it persists the new session. -/
  | createPersist (stored : Session)
  /-- `validate_with_request`, which has read the clock. -/
  | validateCheck (now : ℕ) (hashed : String) (expectedIp : Option String)
  /-- `validate_with_request` before the throttled persist. -/
  | validatePersist (hashed : String) (snap : Session)
  /-- `apply_invalidate_token`. -/
  | tokenDeactivate (hashed : String)
  | tokenUnlist (hashed userId : String)
  | tokenDelete (hashed : String)
  | tokenRemove (hashed : String)
  /-- `apply_invalidate_user` before it copies the user's index. -/
  | userSnapshot (userId : String)
  /-- `apply_invalidate_user` before the next token, or the removal of the index. -/
  | userDeactivate (userId : String) (left : List String)
  | userDelete (userId hashed : String) (left : List String)
  | userRemove (userId hashed : String) (left : List String)
  /-- `cleanup_expired` while it iterates over the sessions. -/
  | cleanupScan (now : ℕ) (toRemove : List (String × String))
  /-- `cleanup_expired` before the next removal. -/
  | cleanupRemove (left : List (String × String))
  | cleanupDelete (hashed userId : String) (left : List (String × String))
  | cleanupUnlist (hashed userId : String) (left : List (String × String))
  deriving DecidableEq, Repr

/-- The operations of the session manager. -/
inductive SessionCall
  | create (userId token ip userAgent : String) (ttlSecs : ℕ)
  | validateWithRequest (token : String) (expectedIp : Option String)
  | invalidate (token : String)
  | invalidateAll (userId : String)
  | cleanupExpired
  deriving DecidableEq, Repr

/-- One step of the system. -/
inductive SessionAction
  /-- The clock moves on. -/
  | tick (now : ℕ)
  /-- A call starts under a free id. -/
  | call (id : ℕ) (call : SessionCall)
  /-- A call runs its next block. -/
  | advance (id : ℕ)
  /-- The iteration of a `cleanup_expired` meets the entry of a token. -/
  | visit (id : ℕ) (hashed : String)
  /-- `with_storage` on the database, in a new process. -/
  | restart (maxSessions : ℕ)
  deriving DecidableEq, Repr

namespace SessionCall

variable (hashToken : String → String)

/-- The start of a call, which hashes the token and reads the clock. -/
def start (now : ℕ) : SessionCall → SessionProc
  | .create userId token ip userAgent ttlSecs =>
      .createIndex (.opened now (hashToken token) userId ip userAgent ttlSecs)
  | .validateWithRequest token expectedIp => .validateCheck now (hashToken token) expectedIp
  | .invalidate token => .tokenDeactivate (hashToken token)
  | .invalidateAll userId => .userSnapshot userId
  | .cleanupExpired => .cleanupScan now []

/-- The hash of the token that a call gives out. -/
def issues : SessionCall → Option String
  | .create _ token _ _ _ => some (hashToken token)
  | .validateWithRequest _ _ => none
  | .invalidate _ => none
  | .invalidateAll _ => none
  | .cleanupExpired => none

end SessionCall

namespace SessionProc

/-- One block of a call: the manager afterwards and what is left of the call. -/
def advance (m : SessionManager) (now : ℕ) : SessionProc → SessionManager × Option SessionProc
  -- `create`
  | .createIndex stored =>
      let (toEvict, m) := m.indexNew now stored.userId stored.token
      (m, some (.createEvict stored toEvict))
  | .createEvict stored [] =>
      (m.insertSession stored.token stored, some (.createPersist stored))
  | .createEvict stored (old :: toEvict) =>
      match m.deactivate old with
      | (some session, m) =>
          (m, some (.createPersistEvicted stored toEvict old { session with active := false }))
      | (none, m) => (m, some (.createEvict stored toEvict))
  | .createPersistEvicted stored toEvict old snap =>
      (m.persist old snap, some (.createEvict stored toEvict))
  | .createPersist stored => (m.persist stored.token stored, none)
  -- `validate_with_request`, which goes on as `apply_invalidate_token` after a binding violation
  | .validateCheck now hashed expectedIp =>
      match m.checkSession now hashed expectedIp with
      | (.notFound, m) => (m, none)
      | (.expired, m) => (m, none)
      | (.bindingViolation, m) => (m, some (.tokenDeactivate hashed))
      | (.validated snap shouldPersist, m) =>
          (m, if shouldPersist then some (.validatePersist hashed snap) else none)
  | .validatePersist hashed snap => (m.persist hashed snap, none)
  -- `apply_invalidate_token`
  | .tokenDeactivate hashed =>
      match m.deactivate hashed with
      | (some session, m) => (m, some (.tokenUnlist hashed session.userId))
      | (none, m) => (m, none)
  | .tokenUnlist hashed userId => (m.unlist userId hashed, some (.tokenDelete hashed))
  | .tokenDelete hashed => (m.deletePersisted hashed, some (.tokenRemove hashed))
  | .tokenRemove hashed => (m.removeSession hashed, none)
  -- `apply_invalidate_user`, which clones the index before it walks over the tokens
  | .userSnapshot userId => (m, some (.userDeactivate userId (m.index userId)))
  | .userDeactivate userId [] => (m.unlistUser userId, none)
  | .userDeactivate userId (hashed :: left) =>
      ((m.deactivate hashed).2, some (.userDelete userId hashed left))
  | .userDelete userId hashed left =>
      (m.deletePersisted hashed, some (.userRemove userId hashed left))
  | .userRemove userId hashed left =>
      (m.removeSession hashed, some (.userDeactivate userId left))
  -- `cleanup_expired`, whose iteration ends here
  | .cleanupScan _ toRemove => (m, some (.cleanupRemove toRemove))
  | .cleanupRemove [] => (m, none)
  | .cleanupRemove ((hashed, userId) :: left) =>
      (m.removeSession hashed, some (.cleanupDelete hashed userId left))
  | .cleanupDelete hashed userId left =>
      (m.deletePersisted hashed, some (.cleanupUnlist hashed userId left))
  | .cleanupUnlist hashed userId left =>
      (m.unlist userId hashed, some (.cleanupRemove left))

/-- A `cleanup_expired` that meets the entry of a token. -/
def visit (m : SessionManager) (hashed : String) : SessionProc → Option SessionProc
  | .cleanupScan now toRemove =>
      (m.sessions.lookup hashed).map fun session =>
        if session.live now then .cleanupScan now toRemove
        else .cleanupScan now (toRemove ++ [(hashed, session.userId)])
  | _ => none

/-- The session that a `create` will insert. -/
def creating : SessionProc → Option Session
  | .createIndex stored => some stored
  | .createEvict stored _ => some stored
  | .createPersistEvicted stored _ _ _ => some stored
  | _ => none

/-- The user whose index an `invalidate_all` is about to copy. -/
def snapshotting : SessionProc → Option String
  | .userSnapshot userId => some userId
  | _ => none

/-- The session that a `create` inserts with its next block. -/
def inserting : SessionProc → Option Session
  | .createEvict stored [] => some stored
  | _ => none

/-- The user of an `invalidate_all` that has copied the index, and the tokens whose entries it has
not removed yet. -/
def walking : SessionProc → Option (String × List String)
  | .userDeactivate userId left => some (userId, left)
  | .userDelete userId hashed left => some (userId, hashed :: left)
  | .userRemove userId hashed left => some (userId, hashed :: left)
  | _ => none

/-- The insertion is a block of a `create`. -/
theorem creating_of_inserting {proc : SessionProc} {stored : Session}
    (h : proc.inserting = some stored) : proc.creating = some stored := by
  cases proc with
  | createEvict stored' toEvict =>
      cases toEvict with
      | nil => exact h
      | cons old toEvict => cases h
  | _ => cases h

/-- The only block that adds a session is the insertion of a `create`. -/
theorem fades_advance (proc : SessionProc) (m : SessionManager) (now : ℕ) :
    SessionManager.Fades m (proc.advance m now).1 ∨
      ∃ stored, proc.inserting = some stored ∧
        (proc.advance m now).1 = m.insertSession stored.token stored := by
  cases proc with
  | createIndex stored => exact .inl (SessionManager.fades_of_eq rfl)
  | createEvict stored toEvict =>
      cases toEvict with
      | nil => exact .inr ⟨stored, rfl, rfl⟩
      | cons old toEvict =>
          have hfades := m.fades_deactivate old
          left
          simp only [advance]
          split <;> rename_i heq <;> rw [heq] at hfades <;> exact hfades
  | createPersistEvicted stored toEvict old snap => exact .inl (SessionManager.fades_of_eq rfl)
  | createPersist stored => exact .inl (SessionManager.fades_of_eq rfl)
  | validateCheck now' hashed expectedIp =>
      have hfades := m.fades_checkSession now' hashed expectedIp
      left
      simp only [advance]
      split <;> rename_i heq <;> rw [heq] at hfades <;> exact hfades
  | validatePersist hashed snap => exact .inl (SessionManager.fades_of_eq rfl)
  | tokenDeactivate hashed =>
      have hfades := m.fades_deactivate hashed
      left
      simp only [advance]
      split <;> rename_i heq <;> rw [heq] at hfades <;> exact hfades
  | tokenUnlist hashed userId => exact .inl (SessionManager.fades_of_eq rfl)
  | tokenDelete hashed => exact .inl (SessionManager.fades_of_eq rfl)
  | tokenRemove hashed => exact .inl (m.fades_removeSession hashed)
  | userSnapshot userId => exact .inl (SessionManager.fades_of_eq rfl)
  | userDeactivate userId left =>
      cases left with
      | nil => exact .inl (SessionManager.fades_of_eq rfl)
      | cons hashed left => exact .inl (m.fades_deactivate hashed)
  | userDelete userId hashed left => exact .inl (SessionManager.fades_of_eq rfl)
  | userRemove userId hashed left => exact .inl (m.fades_removeSession hashed)
  | cleanupScan now' toRemove => exact .inl (SessionManager.fades_of_eq rfl)
  | cleanupRemove left =>
      cases left with
      | nil => exact .inl (SessionManager.fades_of_eq rfl)
      | cons entry left => exact .inl (m.fades_removeSession entry.1)
  | cleanupDelete hashed userId left => exact .inl (SessionManager.fades_of_eq rfl)
  | cleanupUnlist hashed userId left => exact .inl (SessionManager.fades_of_eq rfl)

/-- A call that goes on does not take up another session to create. -/
theorem creating_advance (proc : SessionProc) {m : SessionManager} {now : ℕ} {next : SessionProc}
    (h : (proc.advance m now).2 = some next) {stored : Session}
    (hstored : stored ∈ next.creating) : stored ∈ proc.creating := by
  cases proc with
  | createIndex stored' =>
      cases h
      exact hstored
  | createEvict stored' toEvict =>
      cases toEvict with
      | nil =>
          cases h
          cases hstored
      | cons old toEvict =>
          simp only [advance] at h
          split at h <;> cases h <;> exact hstored
  | createPersistEvicted stored' toEvict old snap =>
      cases h
      exact hstored
  | validateCheck now' hashed expectedIp =>
      simp only [advance] at h
      split at h
      next => cases h
      next => cases h
      next =>
        cases h
        cases hstored
      next =>
        split at h <;> cases h
        cases hstored
  | tokenDeactivate hashed =>
      simp only [advance] at h
      split at h <;> cases h
      cases hstored
  | userDeactivate userId left =>
      cases left with
      | nil => cases h
      | cons hashed left =>
          cases h
          cases hstored
  | cleanupRemove left =>
      cases left with
      | nil => cases h
      | cons entry left =>
          cases h
          cases hstored
  | _ => cases h <;> cases hstored

end SessionProc

/-- A session manager with the calls under way on it. -/
structure SessionState where
  manager : SessionManager
  /-- The clock, which does not go back. -/
  now : ℕ
  /-- The hashes of the tokens given out so far. -/
  issued : List String
  procs : DashMap ℕ SessionProc

namespace SessionState

variable (hashToken : String → String)

/-- One step. A token is never given out twice. -/
def step (s : SessionState) : SessionAction → Option SessionState
  | .tick now => if s.now ≤ now then some { s with now } else none
  | .call id call =>
      -- A token is random, so a call that would repeat one does not occur.
      if (s.procs.lookup id).isSome ∨ ∃ hashed ∈ call.issues hashToken, hashed ∈ s.issued then none
      else some { s with
        issued := (call.issues hashToken).toList ++ s.issued
        procs := s.procs.insert id (call.start hashToken s.now) }
  | .advance id =>
      (s.procs.lookup id).map fun proc =>
        let (manager, next) := proc.advance s.manager s.now
        { s with manager, procs := s.procs.put id next }
  | .visit id hashed =>
      (s.procs.lookup id).bind fun proc =>
        (proc.visit s.manager hashed).map fun next => { s with procs := s.procs.insert id next }
  -- Without a database there is nothing to start from.
  | .restart maxSessions =>
      s.manager.storage.map fun table =>
        { s with manager := .withStorage maxSessions s.now table, procs := ∅ }

/-- No call is under way. -/
def initial (manager : SessionManager) (now : ℕ) (issued : List String) : SessionState where
  manager
  now
  issued
  procs := ∅

/-- Every interleaving of calls on one manager, with restarts. -/
def machine : Machine SessionState SessionAction := ⟨step hashToken⟩

variable {hashToken}

/-- What an advanced call leaves behind. -/
theorem step_advance {s s' : SessionState} {id : ℕ}
    (h : s.step hashToken (.advance id) = some s') :
    ∃ proc, s.procs.lookup id = some proc ∧
      s' = { s with
        manager := (proc.advance s.manager s.now).1
        procs := s.procs.put id (proc.advance s.manager s.now).2 } := by
  obtain ⟨proc, hproc, rfl⟩ := Option.map_eq_some_iff.mp h
  exact ⟨proc, hproc, rfl⟩

/-- What the start of a call leaves behind. -/
theorem step_call {s s' : SessionState} {id : ℕ} {call : SessionCall}
    (h : s.step hashToken (.call id call) = some s') :
    s.procs.lookup id = none ∧ (∀ hashed ∈ call.issues hashToken, hashed ∉ s.issued) ∧
      s' = { s with
        issued := (call.issues hashToken).toList ++ s.issued
        procs := s.procs.insert id (call.start hashToken s.now) } := by
  simp only [step] at h
  split at h
  next => cases h
  next hfree =>
    cases h
    rw [not_or] at hfree
    refine ⟨Option.not_isSome_iff_eq_none.mp hfree.1, fun hashed hissues hissued => ?_, rfl⟩
    exact hfree.2 ⟨hashed, hissues, hissued⟩

end SessionState

end XiraNet

import XiraNet.Base
import XiraNet.Bus
import XiraNet.Lib.DashMap
import XiraNet.Lib.Table
import XiraNet.Lib.Text

/-!
# Session store

The session manager of `identity/sessions.rs`. A plaintext token only appears in what `create`
and `validate` return; maps and table hold its hash.

The operations are composed of the accesses that hold one lock (`indexNew`, `checkSession`,
`deactivate`, `unlist`, `insertSession`, `removeSession`, `unlistUser`) and of the database
statements `persist` and `deletePersisted`. Threads interleave between these.

Metrics and log lines are left out; the user agent of a request is only compared for the log.
-/

namespace XiraNet

/-- A session as it is stored, under its hashed token. -/
structure Session where
  token : String
  userId : String
  createdAt : ℕ
  expiresAt : ℕ
  lastActivity : ℕ
  ip : String
  userAgent : String
  deviceName : String
  active : Bool
  deriving DecidableEq, Repr

/-- A row of the table `identity_sessions`. -/
structure SessionRow where
  hashedToken : String
  userId : String
  createdAt : ℤ
  expiresAt : ℤ
  lastActivity : ℤ
  ip : String
  userAgent : String
  deviceName : String
  active : ℤ
  deriving DecidableEq, Repr

/-- `detect_device`. No non-ASCII letter has one of the letters of these words as its lower
case, so lowering the ASCII letters is enough. -/
def detectDevice (ua : String) : String :=
  let uaLower := Text.toAsciiLowercase ua
  if Text.contains uaLower "mobile" || Text.contains uaLower "android" ||
      Text.contains uaLower "iphone" then "Mobile"
  else if Text.contains uaLower "tablet" || Text.contains uaLower "ipad" then "Tablet"
  else if Text.contains uaLower "curl" || Text.contains uaLower "httpie" ||
      Text.contains uaLower "postman" then "CLI/API Client"
  else "Desktop"

namespace Session

/-- The session `create` stores at the time `now`. -/
def opened (now : ℕ) (hashed userId ip userAgent : String) (ttlSecs : ℕ) : Session where
  token := hashed
  userId
  createdAt := now
  expiresAt := wrappingAdd now ttlSecs
  lastActivity := now
  ip
  userAgent
  deviceName := detectDevice userAgent
  active := true

/-- An active session that has not expired, which is what `validate` accepts. -/
def live (s : Session) (now : ℕ) : Bool := s.active && decide (now ≤ s.expiresAt)

/-- The IP binding is violated, unless one of the addresses is unknown. -/
def bindingViolated (s : Session) : Option String → Bool
  | some ip => s.ip ≠ "" && s.ip ≠ "unknown" && ip ≠ "" && s.ip ≠ ip
  | none => false

/-- The row that `persist` writes. -/
def toRow (s : Session) (hashed : String) : SessionRow where
  hashedToken := hashed
  userId := s.userId
  createdAt := asI64 s.createdAt
  expiresAt := asI64 s.expiresAt
  lastActivity := asI64 s.lastActivity
  ip := s.ip
  userAgent := s.userAgent
  deviceName := s.deviceName
  active := if s.active then 1 else 0

end Session

namespace SessionRow

/-- The session read from a row. -/
def toSession (row : SessionRow) : Session where
  token := row.hashedToken
  userId := row.userId
  createdAt := asU64 row.createdAt
  expiresAt := asU64 row.expiresAt
  lastActivity := asU64 row.lastActivity
  ip := row.ip
  userAgent := row.userAgent
  deviceName := row.deviceName
  active := decide (asU64 row.active = 1)

/-- The rows that a start loads: active and with an expiry in the future. -/
def loadable (row : SessionRow) (now : ℕ) : Bool :=
  row.toSession.active && decide (now < row.toSession.expiresAt)

end SessionRow

/-- The session manager of one node. -/
structure SessionManager where
  /-- Hashed token to session. -/
  sessions : DashMap String Session
  /-- User id to hashed tokens, the oldest first. -/
  userSessions : DashMap String (List String)
  maxSessionsPerUser : ℕ
  storage : Option (Table SessionRow)

/-- What `validate_with_request` finds under the session lock. -/
inductive Validation
  | notFound
  | expired
  | bindingViolation
  /-- Validated, with the updated session and whether it is persisted now. -/
  | validated (snap : Session) (shouldPersist : Bool)
  deriving DecidableEq, Repr

/-- The `while` loop of `create`: take the oldest tokens off while there are too many. -/
def evictOldest (maxSessions : ℕ) : List String → List String × List String
  | [] => ([], [])
  | oldest :: rest =>
      -- The length that counts is that of the tokens still in the queue.
      if maxSessions < (oldest :: rest).length then
        let (toEvict, kept) := evictOldest maxSessions rest
        (oldest :: toEvict, kept)
      else ([], oldest :: rest)

/-- At most the allowed number of tokens stays. -/
theorem length_evictOldest (maxSessions : ℕ) (tokens : List String) :
    (evictOldest maxSessions tokens).2.length ≤ maxSessions := by
  induction tokens with
  | nil => exact Nat.zero_le _
  | cons oldest rest ih =>
      unfold evictOldest
      split
      next => exact ih
      next h => exact Nat.le_of_not_lt h

/-- Every token is either selected or stays. -/
theorem mem_evictOldest {maxSessions : ℕ} {tokens : List String} {t : String}
    (h : t ∈ tokens) : t ∈ (evictOldest maxSessions tokens).1 ∨
      t ∈ (evictOldest maxSessions tokens).2 := by
  induction tokens with
  | nil => cases h
  | cons oldest rest ih =>
      unfold evictOldest
      split
      next =>
        rcases List.mem_cons.mp h with rfl | hrest
        · exact .inl List.mem_cons_self
        · exact (ih hrest).imp (List.mem_cons_of_mem _) id
      next => exact .inr h

/-- The newest token stays when at least one may. -/
theorem mem_evictOldest_append {maxSessions : ℕ} (hmax : 0 < maxSessions)
    (tokens : List String) (t : String) :
    t ∈ (evictOldest maxSessions (tokens ++ [t])).2 := by
  induction tokens with
  | nil =>
      have hone : ¬ maxSessions < 1 := by omega
      simp [evictOldest, hone]
  | cons oldest rest ih =>
      rw [List.cons_append, evictOldest]
      split
      -- The new token is the last one, so it is never the oldest of a longer queue.
      next => exact ih
      next => simp

namespace Session

/-- A session that is live now was live before. -/
theorem live_of_le {s : Session} {now later : ℕ} (hle : now ≤ later) (h : s.live later = true) :
    s.live now = true := by
  simp only [live, Bool.and_eq_true, decide_eq_true_eq] at h ⊢
  exact ⟨h.1, hle.trans h.2⟩

/-- A persisted session is read back with the same activity flag. -/
theorem active_toSession_toRow (s : Session) (hashed : String) :
    (s.toRow hashed).toSession.active = s.active := by
  cases h : s.active <;> simp [toRow, SessionRow.toSession, asU64, h]

/-- A deactivated session is not live. -/
@[simp]
theorem live_inactive (s : Session) (now : ℕ) : ({ s with active := false } : Session).live now =
    false := rfl

end Session

namespace SessionManager

/-- `persist`. -/
def persist (m : SessionManager) (hashed : String) (session : Session) : SessionManager :=
  { m with
    storage := m.storage.map
      (·.insertOrReplace (fun r r' => r.hashedToken = r'.hashedToken) (session.toRow hashed)) }

/-- `delete_persisted`. -/
def deletePersisted (m : SessionManager) (hashed : String) : SessionManager :=
  { m with storage := m.storage.map (·.delete fun row => row.hashedToken = hashed) }

/-- The index of a user, empty if there is none. -/
def index (m : SessionManager) (userId : String) : List String :=
  (m.userSessions.lookup userId).getD []

/-- Whether a token belongs to an active session that has not expired. -/
def isLive (m : SessionManager) (now : ℕ) (hashed : String) : Bool :=
  (m.sessions.lookup hashed).any (·.live now)

/-- The live sessions of a user. -/
def liveSessions (m : SessionManager) (now : ℕ) (userId : String) : List String :=
  (m.sessions.entries.filter fun e => e.2.userId = userId && e.2.live now).map (·.1)

/-- The block of `create` under the lock of the user's index: the new token is pushed, stale
tokens are dropped and the oldest are selected for eviction. -/
def indexNew (m : SessionManager) (now : ℕ) (userId hashed : String) :
    List String × SessionManager :=
  let userTokens := m.index userId ++ [hashed]
  -- A token of another `create` whose session is not in the map yet is dropped here as well.
  let userTokens := userTokens.filter fun t => m.isLive now t || t = hashed
  -- The evictions themselves come later, without the lock of the index.
  let (toEvict, userTokens) := evictOldest m.maxSessionsPerUser userTokens
  (toEvict, { m with userSessions := m.userSessions.insert userId userTokens })

/-- Mark a session inactive; the session as it was before is returned. -/
def deactivate (m : SessionManager) (hashed : String) : Option Session × SessionManager :=
  (m.sessions.lookup hashed,
    { m with sessions := m.sessions.modify hashed fun s => { s with active := false } })

/-- Store a session. -/
def insertSession (m : SessionManager) (hashed : String) (session : Session) : SessionManager :=
  { m with sessions := m.sessions.insert hashed session }

/-- Remove a session from the map. -/
def removeSession (m : SessionManager) (hashed : String) : SessionManager :=
  { m with sessions := m.sessions.erase hashed }

/-- Take a token off the index of a user. -/
def unlist (m : SessionManager) (userId hashed : String) : SessionManager :=
  { m with userSessions := m.userSessions.modify userId fun tokens => tokens.filter (· ≠ hashed) }

/-- Remove the index of a user. -/
def unlistUser (m : SessionManager) (userId : String) : SessionManager :=
  { m with userSessions := m.userSessions.erase userId }

/-- `validate_with_request` as long as it holds the session lock. -/
def checkSession (m : SessionManager) (now : ℕ) (hashed : String) (expectedIp : Option String) :
    Validation × SessionManager :=
  match m.sessions.lookup hashed with
  | none => (.notFound, m)
  | some session =>
      if !session.live now then (.expired, m)
      else if session.bindingViolated expectedIp then (.bindingViolation, m)
      else
        -- The snapshot is persisted after the lock is released, and only every 30 seconds.
        let snap := { session with lastActivity := now }
        (.validated snap (30 ≤ now - session.lastActivity),
          { m with sessions := m.sessions.modify hashed fun s => { s with lastActivity := now } })

/-- A manager without storage. -/
def new (maxSessions : ℕ) : SessionManager where
  sessions := ∅
  userSessions := ∅
  maxSessionsPerUser := max maxSessions 1
  storage := none

/-- One loaded session. -/
def load (m : SessionManager) (session : Session) : SessionManager :=
  { m with
    sessions := m.sessions.insert session.token session
    userSessions :=
      m.userSessions.insert session.userId (m.index session.userId ++ [session.token]) }

/-- `with_storage`: a manager on a database, with the sessions that are still good. -/
def withStorage (maxSessions now : ℕ) (table : Table SessionRow) : SessionManager :=
  ((table.filter (·.loadable now)).map (·.toSession)).foldl load
    { new maxSessions with storage := some table }

section Blocks

/-! ### What the blocks do -/

variable (m : SessionManager)

/-- A persist leaves the session map as it is. -/
@[simp]
theorem sessions_persist (hashed : String) (session : Session) :
    (m.persist hashed session).sessions = m.sessions := rfl

/-- A persist leaves the index as it is. -/
@[simp]
theorem index_persist (hashed : String) (session : Session) (userId : String) :
    (m.persist hashed session).index userId = m.index userId := rfl

/-- The deletion of a row leaves the session map as it is. -/
@[simp]
theorem sessions_deletePersisted (hashed : String) :
    (m.deletePersisted hashed).sessions = m.sessions := rfl

/-- The deletion of a row leaves the index as it is. -/
@[simp]
theorem index_deletePersisted (hashed userId : String) :
    (m.deletePersisted hashed).index userId = m.index userId := rfl

/-- Taking a token off the index leaves its session in the map. -/
@[simp]
theorem sessions_unlist (userId hashed : String) :
    (m.unlist userId hashed).sessions = m.sessions := rfl

/-- The index block does not insert the session itself. -/
@[simp]
theorem sessions_indexNew (now : ℕ) (userId hashed : String) :
    (m.indexNew now userId hashed).2.sessions = m.sessions := rfl

/-- An insertion does not list the session. -/
@[simp]
theorem index_insertSession (hashed : String) (session : Session) (userId : String) :
    (m.insertSession hashed session).index userId = m.index userId := rfl

/-- A removal leaves the token listed. -/
@[simp]
theorem index_removeSession (hashed userId : String) :
    (m.removeSession hashed).index userId = m.index userId := rfl

/-- Deactivation only touches one session. -/
theorem lookup_deactivate (hashed t : String) :
    (m.deactivate hashed).2.sessions.lookup t =
      if t = hashed then (m.sessions.lookup hashed).map fun s => { s with active := false }
      else m.sessions.lookup t :=
  DashMap.lookup_modify _ _ _ _

/-- An insertion only touches one session. -/
theorem lookup_insertSession (hashed : String) (session : Session) (t : String) :
    (m.insertSession hashed session).sessions.lookup t =
      if t = hashed then some session else m.sessions.lookup t :=
  DashMap.lookup_insert _ _ _ _

/-- A removal only touches one session. -/
theorem lookup_removeSession (hashed t : String) :
    (m.removeSession hashed).sessions.lookup t =
      if t = hashed then none else m.sessions.lookup t :=
  DashMap.lookup_erase _ _ _

/-- The four outcomes of the block of `validate_with_request` under the session lock. -/
theorem checkSession_cases (now : ℕ) (hashed : String) (expectedIp : Option String) :
    (m.sessions.lookup hashed = none ∧
        m.checkSession now hashed expectedIp = (.notFound, m)) ∨
      (∃ session, m.sessions.lookup hashed = some session ∧ session.live now = false ∧
        m.checkSession now hashed expectedIp = (.expired, m)) ∨
      (∃ session, m.sessions.lookup hashed = some session ∧ session.live now = true ∧
        session.bindingViolated expectedIp = true ∧
        m.checkSession now hashed expectedIp = (.bindingViolation, m)) ∨
      ∃ session, m.sessions.lookup hashed = some session ∧ session.live now = true ∧
        session.bindingViolated expectedIp = false ∧
        m.checkSession now hashed expectedIp =
          (.validated { session with lastActivity := now } (30 ≤ now - session.lastActivity),
            { m with
              sessions := m.sessions.modify hashed fun s => { s with lastActivity := now } }) := by
  unfold checkSession
  cases hsession : m.sessions.lookup hashed with
  | none => exact .inl ⟨rfl, rfl⟩
  | some session =>
      refine .inr ?_
      cases hlive : session.live now with
      | false => exact .inl ⟨session, rfl, hlive, by simp [hlive]⟩
      | true =>
          refine .inr ?_
          cases hviolated : session.bindingViolated expectedIp with
          | true => exact .inl ⟨session, rfl, hlive, hviolated, by simp [hlive, hviolated]⟩
          | false => exact .inr ⟨session, rfl, hlive, hviolated, by simp [hlive, hviolated]⟩

/-- A validation changes no more than the time of the last activity. -/
theorem lookup_checkSession (now : ℕ) (hashed : String) (expectedIp : Option String)
    (t : String) : ∃ f : Session → ℕ, (m.checkSession now hashed expectedIp).2.sessions.lookup t =
      (m.sessions.lookup t).map fun s => { s with lastActivity := f s } := by
  have hsame : ∃ f : Session → ℕ, m.sessions.lookup t =
      (m.sessions.lookup t).map fun s => { s with lastActivity := f s } :=
    ⟨Session.lastActivity, by simp⟩
  rcases m.checkSession_cases now hashed expectedIp with
    ⟨-, h⟩ | ⟨_, -, -, h⟩ | ⟨_, -, -, -, h⟩ | ⟨_, -, -, -, h⟩
  · rwa [h]
  · rwa [h]
  · rwa [h]
  · rw [h]
    -- Only the validated session has a new time of its last activity.
    by_cases ht : t = hashed
    · subst ht
      exact ⟨fun _ => now, by simp [DashMap.lookup_modify]⟩
    · simpa [DashMap.lookup_modify, ht] using hsame

/-- A validation does not touch the index. -/
@[simp]
theorem index_checkSession (now : ℕ) (hashed : String) (expectedIp : Option String)
    (userId : String) :
    (m.checkSession now hashed expectedIp).2.index userId = m.index userId := by
  rcases m.checkSession_cases now hashed expectedIp with
    ⟨-, h⟩ | ⟨_, -, -, h⟩ | ⟨_, -, -, -, h⟩ | ⟨_, -, -, -, h⟩
  · rw [h]
  · rw [h]
  · rw [h]
  · rw [h]
    rfl

/-- The index block only touches the index of its user. -/
theorem index_indexNew_of_ne {userId userId' : String} (h : userId' ≠ userId) (now : ℕ)
    (hashed : String) : (m.indexNew now userId hashed).2.index userId' = m.index userId' := by
  simp [indexNew, index, h]

/-- The index block leaves at most the allowed number of tokens. -/
theorem length_index_indexNew (now : ℕ) (userId hashed : String) :
    ((m.indexNew now userId hashed).2.index userId).length ≤ m.maxSessionsPerUser := by
  simpa [indexNew, index, DashMap.lookup_insert] using length_evictOldest _ _

/-- The index block lists the new token. -/
theorem mem_index_indexNew (hmax : 0 < m.maxSessionsPerUser) (now : ℕ) (userId hashed : String) :
    hashed ∈ (m.indexNew now userId hashed).2.index userId := by
  simpa [indexNew, index, DashMap.lookup_insert, List.filter_append] using
    mem_evictOldest_append hmax _ hashed

/-- The token of a live session is still listed after the index block, or selected for
eviction. -/
theorem mem_indexNew_of_isLive {m : SessionManager} {now : ℕ} {userId t : String}
    (hmem : t ∈ m.index userId) (hlive : m.isLive now t = true) (hashed : String) :
    t ∈ (m.indexNew now userId hashed).1 ∨
      t ∈ (m.indexNew now userId hashed).2.index userId := by
  have hkept : t ∈ (m.index userId ++ [hashed]).filter
      fun t => m.isLive now t || t = hashed := by
    rw [List.mem_filter, hlive]
    exact ⟨List.mem_append_left _ hmem, rfl⟩
  simpa [indexNew, index, DashMap.lookup_insert] using mem_evictOldest hkept

/-- The live sessions of a user are found in the map. -/
theorem mem_liveSessions {m : SessionManager} {now : ℕ} {userId t : String} :
    t ∈ m.liveSessions now userId ↔
      ∃ session, m.sessions.lookup t = some session ∧ session.userId = userId ∧
        session.live now = true := by
  simp only [liveSessions, List.mem_map, List.mem_filter, Bool.and_eq_true, decide_eq_true_eq]
  constructor
  · rintro ⟨⟨k, session⟩, ⟨hmem, huser, hlive⟩, rfl⟩
    exact ⟨session, AList.mem_lookup_iff.mpr hmem, huser, hlive⟩
  · rintro ⟨session, hlookup, huser, hlive⟩
    exact ⟨⟨t, session⟩, ⟨AList.mem_lookup_iff.mp hlookup, huser, hlive⟩, rfl⟩

/-- No token occurs twice among the live sessions of a user. -/
theorem nodup_liveSessions (now : ℕ) (userId : String) :
    (m.liveSessions now userId).Nodup :=
  List.NodupKeys.sublist List.filter_sublist m.sessions.nodupKeys

/-- Only what `persist` and `deletePersisted` write reaches the database. -/
@[simp]
theorem storage_checkSession (now : ℕ) (hashed : String) (expectedIp : Option String) :
    (m.checkSession now hashed expectedIp).2.storage = m.storage := by
  rcases m.checkSession_cases now hashed expectedIp with
    ⟨-, h⟩ | ⟨_, -, -, h⟩ | ⟨_, -, -, -, h⟩ | ⟨_, -, -, -, h⟩
  · rw [h]
  · rw [h]
  · rw [h]
  · rw [h]

/-- The rows after a persist. -/
theorem mem_storage_persist {m : SessionManager} {hashed : String} {session : Session}
    {table : Table SessionRow} (h : table ∈ (m.persist hashed session).storage)
    {row : SessionRow} (hrow : row ∈ table) :
    (row.hashedToken ≠ hashed ∧ ∃ old ∈ m.storage, row ∈ old) ∨ row = session.toRow hashed := by
  obtain ⟨old, hold, rfl⟩ := Option.map_eq_some_iff.mp h
  rcases Table.mem_insertOrReplace.mp hrow with ⟨hmem, hkey⟩ | rfl
  · refine .inl ⟨fun heq => ?_, old, hold, hmem⟩
    simp [Session.toRow, heq] at hkey
  · exact .inr rfl

/-- The rows after a deletion. -/
theorem mem_storage_deletePersisted {m : SessionManager} {hashed : String}
    {table : Table SessionRow} (h : table ∈ (m.deletePersisted hashed).storage)
    {row : SessionRow} (hrow : row ∈ table) :
    row.hashedToken ≠ hashed ∧ ∃ old ∈ m.storage, row ∈ old := by
  obtain ⟨old, hold, rfl⟩ := Option.map_eq_some_iff.mp h
  obtain ⟨hmem, hkey⟩ := Table.mem_delete.mp hrow
  exact ⟨by simpa using hkey, old, hold, hmem⟩

/-- What no step of a loop changes, the loop does not change. -/
theorem foldl_eq_of_step {α β γ : Type*} (f : β → γ) (op : β → α → β)
    (h : ∀ b a, f (op b a) = f b) (l : List α) (b : β) : f (l.foldl op b) = f b :=
  List.foldlRecOn (motive := fun b' => f b' = f b) l op rfl fun b' hb' a _ => (h b' a).trans hb'

/-- A start keeps the table as it is. -/
theorem storage_withStorage (maxSessions now : ℕ) (table : Table SessionRow) :
    (withStorage maxSessions now table).storage = some table :=
  foldl_eq_of_step storage load (fun _ _ => rfl) _ _

/-- What a start finds in its map was loaded from a row of the table. -/
theorem of_lookup_withStorage {maxSessions now : ℕ} {table : Table SessionRow} {t : String}
    {session : Session} (h : (withStorage maxSessions now table).sessions.lookup t = some session) :
    ∃ row ∈ table, row.hashedToken = t ∧ row.loadable now = true ∧ row.toSession = session := by
  -- Generalized over the manager that the loading starts from.
  have hload : ∀ (sessions : List Session) (m : SessionManager),
      (sessions.foldl load m).sessions.lookup t = some session →
        (session ∈ sessions ∧ session.token = t) ∨ m.sessions.lookup t = some session := by
    intro sessions
    induction sessions with
    | nil => exact fun _ h => .inr h
    | cons first sessions ih =>
        intro m h
        rcases ih _ h with ⟨hmem, htoken⟩ | hold
        · exact .inl ⟨List.mem_cons_of_mem _ hmem, htoken⟩
        · rw [load, DashMap.lookup_insert] at hold
          split at hold
          next heq =>
            cases hold
            exact .inl ⟨List.mem_cons_self, heq.symm⟩
          next => exact .inr hold
  rcases hload _ _ h with ⟨hmem, htoken⟩ | hnew
  · obtain ⟨row, hrow, rfl⟩ := List.mem_map.mp hmem
    rw [List.mem_filter] at hrow
    exact ⟨row, hrow.1, htoken, hrow.2, rfl⟩
  · simp [new] at hnew

/-- Every session of `m'` was in `m`, for the same user and time, and at least as active. -/
def Fades (m m' : SessionManager) : Prop :=
  ∀ t session', m'.sessions.lookup t = some session' → ∃ session,
    m.sessions.lookup t = some session ∧ session'.userId = session.userId ∧
      session'.expiresAt = session.expiresAt ∧ (session'.active = true → session.active = true)

/-- Every row of `m'` was stored by `m`. -/
def Shrinks (m m' : SessionManager) : Prop :=
  ∀ table' ∈ m'.storage, ∀ row ∈ table', ∃ table ∈ m.storage, row ∈ table

/-- A manager with the same session map fades trivially. -/
theorem fades_of_eq {m m' : SessionManager} (h : m'.sessions = m.sessions) : Fades m m' := by
  intro t session hsession
  rw [h] at hsession
  exact ⟨session, hsession, rfl, rfl, fun hactive => hactive⟩

/-- A manager with the same table shrinks trivially. -/
theorem shrinks_of_eq {m m' : SessionManager} (h : m'.storage = m.storage) : Shrinks m m' := by
  intro table htable row hrow
  rw [h] at htable
  exact ⟨table, htable, hrow⟩

/-- A deactivation gives no session more life. -/
theorem fades_deactivate (hashed : String) : Fades m (m.deactivate hashed).2 := by
  intro t session' hsession
  rw [lookup_deactivate] at hsession
  split at hsession
  next heq =>
    -- The session itself: it is inactive afterwards, so nothing is claimed of it before.
    subst heq
    obtain ⟨session, hold, rfl⟩ := Option.map_eq_some_iff.mp hsession
    exact ⟨session, hold, rfl, rfl, fun hactive => absurd hactive (by simp)⟩
  next => exact ⟨session', hsession, rfl, rfl, fun hactive => hactive⟩

/-- A removal gives no session more life. -/
theorem fades_removeSession (hashed : String) : Fades m (m.removeSession hashed) := by
  intro t session' hsession
  rw [lookup_removeSession] at hsession
  split at hsession
  next => cases hsession
  next => exact ⟨session', hsession, rfl, rfl, fun hactive => hactive⟩

/-- A validation only moves the time of the last activity, which does not prolong a session. -/
theorem fades_checkSession (now : ℕ) (hashed : String) (expectedIp : Option String) :
    Fades m (m.checkSession now hashed expectedIp).2 := by
  intro t session' hsession
  obtain ⟨f, hf⟩ := m.lookup_checkSession now hashed expectedIp t
  rw [hf] at hsession
  obtain ⟨session, hold, rfl⟩ := Option.map_eq_some_iff.mp hsession
  exact ⟨session, hold, rfl, rfl, fun hactive => hactive⟩

/-- A deletion adds no row. -/
theorem shrinks_deletePersisted (hashed : String) : Shrinks m (m.deletePersisted hashed) :=
  fun _ htable _ hrow => (mem_storage_deletePersisted htable hrow).2

/-- What fades has no new live sessions. -/
theorem Fades.mem_liveSessions {m m' : SessionManager} (h : Fades m m') {now : ℕ}
    {userId t : String} (ht : t ∈ m'.liveSessions now userId) : t ∈ m.liveSessions now userId := by
  obtain ⟨session', hsession, huser, hlive⟩ := SessionManager.mem_liveSessions.mp ht
  obtain ⟨session, hold, huser', hexpires, hactive⟩ := h t session' hsession
  refine SessionManager.mem_liveSessions.mpr ⟨session, hold, huser' ▸ huser, ?_⟩
  simp only [Session.live, Bool.and_eq_true, decide_eq_true_eq] at hlive ⊢
  exact ⟨hactive hlive.1, hexpires ▸ hlive.2⟩

end Blocks

section API

variable (hashToken : String → String)

/-- One eviction. -/
def evict (m : SessionManager) (old : String) : SessionManager :=
  match m.deactivate old with
  | (some session, m) => m.persist old { session with active := false }
  -- A token whose session has not been inserted yet is skipped.
  | (none, m) => m

/-- `create`, which reads the clock twice. -/
def create (m : SessionManager) (now now2 : ℕ) (userId token ip userAgent : String)
    (ttlSecs : ℕ) : Session × SessionManager :=
  let hashed := hashToken token
  let stored := Session.opened now hashed userId ip userAgent ttlSecs
  let (evicted, m) := m.indexNew now2 userId hashed
  let m := evicted.foldl evict m
  ({ stored with token }, (m.insertSession hashed stored).persist hashed stored)

/-- `apply_invalidate_token`. -/
def applyInvalidateToken (m : SessionManager) (hashed : String) : Bool × SessionManager :=
  match m.deactivate hashed with
  | (some session, m) =>
      (true, ((m.unlist session.userId hashed).deletePersisted hashed).removeSession hashed)
  | (none, m) => (false, m)

/-- `validate_with_request`. -/
def validateWithRequest (m : SessionManager) (now : ℕ) (token : String)
    (expectedIp : Option String) : Option Session × SessionManager :=
  let hashed := hashToken token
  match m.checkSession now hashed expectedIp with
  | (.notFound, m) => (none, m)
  | (.expired, m) => (none, m)
  -- The binding violation revokes on this node only: it publishes nothing.
  | (.bindingViolation, m) => (none, (m.applyInvalidateToken hashed).2)
  | (.validated snap shouldPersist, m) =>
      (some { snap with token }, if shouldPersist then m.persist hashed snap else m)

/-- `validate`. -/
def validate (m : SessionManager) (now : ℕ) (token : String) : Option Session × SessionManager :=
  m.validateWithRequest hashToken now token none

/-- `invalidate`, with the event that it publishes. -/
def invalidate (m : SessionManager) (token : String) :
    Bool × Option BusEvent × SessionManager :=
  let hashed := hashToken token
  let (removed, m) := m.applyInvalidateToken hashed
  -- Without a local session the other nodes are not told.
  (removed, if removed then some (.sessionInvalidateToken hashed) else none, m)

/-- One iteration of `apply_invalidate_user`. -/
def dropToken (acc : ℕ × SessionManager) (hashed : String) : ℕ × SessionManager :=
  let (old, m) := acc.2.deactivate hashed
  (if old.any (·.active) then acc.1 + 1 else acc.1,
    (m.deletePersisted hashed).removeSession hashed)

/-- `apply_invalidate_user`. -/
def applyInvalidateUser (m : SessionManager) (userId : String) : ℕ × SessionManager :=
  let (count, m) := (m.index userId).foldl dropToken (0, m)
  (count, m.unlistUser userId)

/-- `invalidate_all`, with the event that it publishes. -/
def invalidateAll (m : SessionManager) (userId : String) : ℕ × Option BusEvent × SessionManager :=
  let (count, m) := m.applyInvalidateUser userId
  (count, if 0 < count then some (.sessionInvalidateUser userId) else none, m)

/-- The removals of `cleanup_expired` for one entry. -/
def cleanupOne (m : SessionManager) (entry : String × String) : SessionManager :=
  ((m.removeSession entry.1).deletePersisted entry.1).unlist entry.2 entry.1

/-- `cleanup_expired`. -/
def cleanupExpired (m : SessionManager) (now : ℕ) : ℕ × SessionManager :=
  let toRemove := (m.sessions.entries.filter fun e => !e.2.live now).map fun e => (e.1, e.2.userId)
  (toRemove.length, toRemove.foldl cleanupOne m)

/-- The handler of a bus event. -/
def handle (m : SessionManager) : BusEvent → SessionManager
  | .sessionInvalidateToken hashed => (m.applyInvalidateToken hashed).2
  | .sessionInvalidateUser userId => (m.applyInvalidateUser userId).2
  | .wafRuleAdded _ _ _ => m
  | .wafRuleRemoved _ => m

end API

end SessionManager

end XiraNet

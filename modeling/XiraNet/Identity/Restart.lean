import XiraNet.Identity.SessionRuns

/-!
# Restarts of the session store

Two session stores with their databases start alike and take the same operations; one of them is
restarted now and then (`with_storage` on its own table). The loader of `identity/sessions.rs`
reads the rows in the order of the table, skips those that expire now, and sees only what `i64`
columns can hold.

* `SessionManager.Mirrors`: the table of a store has a row for every live session, and no other
  row that a start would load. Every operation keeps it.
* `SessionManager.Refines.withStorage`: a start on a table in the order of the indexes refines
  the queues that the running store refined.
* `RestartState.outcomes_eq_of_runs`: if every restart meets a table in that order and no session
  at its very end, the restarted store accepts and evicts the same sessions.
* `RestartState.outcomes_differ`: a validation that moves its row to the end of the table makes
  the restarted store evict another session.
-/

namespace XiraNet

/-- What an operation shows: the user a token is accepted for, or the evicted tokens. -/
inductive SessionOutcome
  | accepted (userId : Option String)
  | evicted (tokens : List String)
  deriving DecidableEq, Repr

namespace SessionManager

/-- The outcome of an operation, for those that have one. -/
def outcome (hashToken : String → String) (m : SessionManager) :
    SessionOp → Option SessionOutcome
  | .create _ now2 userId token _ _ _ =>
      some (.evicted (m.indexNew now2 userId (hashToken token)).1)
  | .validate now token expectedIp _ =>
      some (.accepted ((m.validateWithRequest hashToken now token expectedIp).1.map (·.userId)))
  | .invalidate _ => none
  | .invalidateAll _ => none
  | .cleanupExpired _ => none

/-- The table has the rows of the live sessions, as far as `i64` columns can hold them, and a
start would load no other row. -/
structure MirroredBy (m : SessionManager) (now : ℕ) (table : Table SessionRow) : Prop where
  keys : (table.map (·.hashedToken)).Nodup
  row : ∀ t session, m.sessions.lookup t = some session → session.live now = true →
    ∃ row ∈ table, row.hashedToken = t ∧ row.userId = session.userId ∧ row.ip = session.ip ∧
      row.toSession.active = true ∧
        (session.expiresAt < 2 ^ 63 → row.toSession.expiresAt = session.expiresAt)
  session : ∀ row ∈ table, row.loadable now = true → ∃ session,
    m.sessions.lookup row.hashedToken = some session ∧ session.active = true ∧
      row.toSession.expiresAt ≤ session.expiresAt

/-- The store has a database, which mirrors it. -/
def Mirrors (m : SessionManager) (now : ℕ) : Prop :=
  ∃ table, m.storage = some table ∧ m.MirroredBy now table

namespace Mirrors

variable {m m' : SessionManager} {now now2 : ℕ} {hashed : String}

/-- The rows stay good while time passes. -/
theorem later (h : m.Mirrors now) (hle : now ≤ now2) : m.Mirrors now2 := by
  obtain ⟨table, hstorage, hkeys, hrow, hsession⟩ := h
  refine ⟨table, hstorage, hkeys, fun t session hlookup hlive => ?_, fun row hmem hload => ?_⟩
  · exact hrow t session hlookup (Session.live_of_le hle hlive)
  · refine hsession row hmem ?_
    simp only [SessionRow.loadable, Bool.and_eq_true, decide_eq_true_eq] at hload ⊢
    exact ⟨hload.1, hle.trans_lt hload.2⟩

/-- A session is removed together with its row. -/
theorem remove (h : m.Mirrors now)
    (hlookup : ∀ t, m'.sessions.lookup t = if t = hashed then none else m.sessions.lookup t)
    (hstorage : m'.storage = m.storage.map (·.delete fun row => row.hashedToken = hashed)) :
    m'.Mirrors now := by
  obtain ⟨table, hold, hkeys, hrow, hsession⟩ := h
  refine ⟨_, by rw [hstorage, hold]; rfl, ?_, fun t session hl hlive => ?_,
    fun row hmem hload => ?_⟩
  · exact hkeys.sublist (List.filter_sublist.map _)
  · rw [hlookup] at hl
    split at hl
    next => cases hl
    next hne =>
      obtain ⟨row, hmem, rfl, hrest⟩ := hrow t session hl hlive
      exact ⟨row, Table.mem_delete.mpr ⟨hmem, by simpa using hne⟩, rfl, hrest⟩
  · obtain ⟨hmem, hne⟩ := Table.mem_delete.mp hmem
    rw [hlookup, if_neg (by simpa using hne)]
    exact hsession row hmem hload

/-- A session is stored together with its row. -/
theorem store (h : m.Mirrors now) (session : Session)
    (hlookup : ∀ t, m'.sessions.lookup t =
      if t = hashed then some session else m.sessions.lookup t)
    (hstorage : m'.storage = m.storage.map
      (·.insertOrReplace (fun r r' => r.hashedToken = r'.hashedToken) (session.toRow hashed))) :
    m'.Mirrors now := by
  obtain ⟨table, hold, hkeys, hrow, hsession⟩ := h
  -- A time that does not fit into an `i64` is read back as zero.
  have hexpires : (session.toRow hashed).toSession.expiresAt ≤ session.expiresAt ∧
      (session.expiresAt < 2 ^ 63 →
        (session.toRow hashed).toSession.expiresAt = session.expiresAt) := by
    simp only [Session.toRow, SessionRow.toSession, asI64, asU64]
    split <;> omega
  refine ⟨table.insertOrReplace (fun r r' => r.hashedToken = r'.hashedToken)
    (session.toRow hashed), by rw [hstorage, hold]; rfl, ?_, fun t old hl hlive => ?_,
    fun row hmem hload => ?_⟩
  · -- The other rows have other keys.
    rw [Table.insertOrReplace, List.map_append, List.nodup_append]
    refine ⟨hkeys.sublist (List.filter_sublist.map _), List.nodup_singleton _,
      fun k hk k' hk' heq => ?_⟩
    obtain ⟨row, hmem, rfl⟩ := List.mem_map.mp hk
    have hne := (Table.mem_delete.mp hmem).2
    simp only [List.map_cons, List.map_nil, List.mem_singleton] at hk'
    simp [heq.trans hk'] at hne
  · rw [hlookup] at hl
    split at hl
    next heq =>
      cases hl
      simp only [Session.live, Bool.and_eq_true] at hlive
      refine ⟨session.toRow hashed, Table.mem_insertOrReplace.mpr (.inr rfl), heq.symm, rfl, rfl,
        (session.active_toSession_toRow hashed).trans hlive.1, hexpires.2⟩
    next hne =>
      obtain ⟨row, hmem, rfl, hrest⟩ := hrow t old hl hlive
      refine ⟨row, Table.mem_insertOrReplace.mpr (.inl ⟨hmem, ?_⟩), rfl, hrest⟩
      exact decide_eq_false fun heq => hne heq.symm
  -- A row of the table is an old one with another key, or the new one.
  · rcases Table.mem_insertOrReplace.mp hmem with ⟨hmem, hne⟩ | rfl
    · rw [hlookup, if_neg fun heq => of_decide_eq_false hne heq.symm]
      exact hsession row hmem hload
    · simp only [SessionRow.loadable, Bool.and_eq_true, decide_eq_true_eq] at hload
      refine ⟨session, by rw [hlookup]; exact if_pos rfl,
        (session.active_toSession_toRow hashed).symm.trans hload.1, hexpires.1⟩

/-- A change of the last activity alone does not reach the table. -/
theorem touch (h : m.Mirrors now)
    (hlookup : ∀ t, ∃ f : Session → ℕ, m'.sessions.lookup t =
      (m.sessions.lookup t).map fun s => { s with lastActivity := f s })
    (hstorage : m'.storage = m.storage) : m'.Mirrors now := by
  obtain ⟨table, hold, hkeys, hrow, hsession⟩ := h
  refine ⟨table, hstorage.trans hold, hkeys, fun t session hl hlive => ?_,
    fun row hmem hload => ?_⟩
  · obtain ⟨f, hf⟩ := hlookup t
    rw [hf] at hl
    obtain ⟨old, hfound, rfl⟩ := Option.map_eq_some_iff.mp hl
    exact hrow t old hfound hlive
  · obtain ⟨f, hf⟩ := hlookup row.hashedToken
    obtain ⟨old, hl, hactive, hle⟩ := hsession row hmem hload
    exact ⟨{ old with lastActivity := f old }, by rw [hf, hl]; rfl, hactive, hle⟩

/-- The table mirrors whatever has the same sessions. -/
theorem of_eq (h : m.Mirrors now) (hsessions : m'.sessions = m.sessions)
    (hstorage : m'.storage = m.storage) : m'.Mirrors now :=
  h.touch (fun t => ⟨Session.lastActivity, by rw [hsessions]; simp⟩) hstorage

/-- An eviction stores the session as inactive. -/
theorem evict (h : m.Mirrors now) (old : String) : (m.evict old).Mirrors now := by
  have hlookup := m.lookup_evict old
  unfold SessionManager.evict deactivate at hlookup ⊢
  cases hold : m.sessions.lookup old with
  | none =>
      simp only [hold] at hlookup ⊢
      refine h.touch (fun t => ⟨Session.lastActivity, ?_⟩) rfl
      rw [hlookup]
      split
      next heq =>
        subst heq
        simp [hold]
      next => simp
  | some session =>
      simp only [hold] at hlookup ⊢
      exact h.store { session with active := false } hlookup rfl

/-- `create` stores the new session. -/
theorem create (h : m.Mirrors now) (hashToken : String → String)
    (start now2 : ℕ) (userId token ip userAgent : String) (ttlSecs : ℕ) :
    (m.create hashToken start now2 userId token ip userAgent ttlSecs).2.Mirrors now := by
  have hindex : (m.indexNew now2 userId (hashToken token)).2.Mirrors now := h.of_eq rfl rfl
  have hevicted : ((m.indexNew now2 userId (hashToken token)).1.foldl SessionManager.evict
      (m.indexNew now2 userId (hashToken token)).2).Mirrors now :=
    List.foldlRecOn (motive := fun m => Mirrors m now) _ _ hindex fun _ h old _ => h.evict old
  exact hevicted.store (.opened start (hashToken token) userId ip userAgent ttlSecs)
    (lookup_insertSession _ _ _) rfl

/-- `apply_invalidate_token` deletes the row. -/
theorem applyInvalidateToken (h : m.Mirrors now) (hashed : String) :
    (m.applyInvalidateToken hashed).2.Mirrors now := by
  cases hfound : m.sessions.lookup hashed with
  | none =>
      rw [applyInvalidateToken_of_not_found hfound]
      exact h
  | some session =>
      refine h.remove (m.lookup_applyInvalidateToken hashed) ?_
      unfold SessionManager.applyInvalidateToken deactivate
      rw [hfound]
      rfl

/-- `apply_invalidate_user` deletes the rows. -/
theorem applyInvalidateUser (h : m.Mirrors now) (userId : String) :
    (m.applyInvalidateUser userId).2.Mirrors now := by
  have hdropped : ((m.index userId).foldl dropToken (0, m)).2.Mirrors now := by
    refine List.foldlRecOn (motive := fun acc : ℕ × SessionManager => acc.2.Mirrors now) _ _ h
      fun acc h hashed _ => ?_
    -- Each round removes one session and its row.
    refine h.remove (fun t => ?_) rfl
    simpa using lookup_foldl_dropToken [hashed] acc t
  exact hdropped.of_eq rfl rfl

/-- `validate_with_request` persists what it validated, or nothing. -/
theorem validateWithRequest (h : m.Mirrors now) (hashToken : String → String) (start : ℕ)
    (token : String) (expectedIp : Option String) :
    (m.validateWithRequest hashToken start token expectedIp).2.Mirrors now := by
  have hcheck := m.lookup_checkSession start (hashToken token) expectedIp
  have hstorage := m.storage_checkSession start (hashToken token) expectedIp
  unfold SessionManager.validateWithRequest
  rcases m.checkSession_cases start (hashToken token) expectedIp with
    ⟨-, hres⟩ | ⟨_, -, -, hres⟩ | ⟨_, -, -, -, hres⟩ | ⟨session, hsession, -, -, hres⟩
  · simpa only [hres] using h
  · simpa only [hres] using h
  · simpa only [hres] using h.applyInvalidateToken (hashToken token)
  · rw [hres] at hcheck hstorage
    simp only [hres]
    split
    next =>
      -- The row is written again, and moves to the end of the table.
      refine h.store { session with lastActivity := start } (fun t => ?_) rfl
      rw [sessions_persist, DashMap.lookup_modify, hsession]
      rfl
    next => exact h.touch hcheck hstorage

/-- `cleanup_expired` deletes the rows. -/
theorem cleanupExpired (h : m.Mirrors now) (start : ℕ) :
    (m.cleanupExpired start).2.Mirrors now := by
  unfold SessionManager.cleanupExpired
  exact List.foldlRecOn (motive := fun m => Mirrors m now) _ _ h fun _ h entry _ =>
    h.remove (fun t => DashMap.lookup_erase _ _ _) rfl

/-- Every operation keeps the table a mirror of the store. -/
theorem applyOp (hashToken : String → String) {clock : ℕ} (h : m.Mirrors clock) {op : SessionOp}
    (htimely : op.Timely clock) : (m.applyOp hashToken op).Mirrors (op.after clock) := by
  have hlater := h.later htimely.le_after
  cases op with
  | create start now2 userId token ip userAgent ttlSecs =>
      exact hlater.create hashToken start now2 userId token ip userAgent ttlSecs
  | validate start token expectedIp expectedUa =>
      exact hlater.validateWithRequest hashToken start token expectedIp
  | invalidate token => exact hlater.applyInvalidateToken (hashToken token)
  | invalidateAll userId => exact hlater.applyInvalidateUser userId
  | cleanupExpired start => exact hlater.cleanupExpired start

end Mirrors

section Start

/-! ### What a start finds -/

variable {maxSessions now : ℕ} {table : Table SessionRow}

/-- The loader appends the token of every session to the index of its user. -/
theorem index_foldl_load (sessions : List Session) (m : SessionManager) (userId : String) :
    (sessions.foldl load m).index userId =
      m.index userId ++ (sessions.filter (·.userId = userId)).map (·.token) := by
  induction sessions generalizing m with
  | nil => exact (List.append_nil _).symm
  | cons session sessions ih =>
      have hindex : (m.load session).index userId = m.index userId ++
          if session.userId = userId then [session.token] else [] := by
        simp only [load, index, DashMap.lookup_insert]
        by_cases heq : session.userId = userId
        · subst heq
          simp
        · simp [heq, Ne.symm heq]
      rw [List.foldl_cons, ih, hindex]
      by_cases heq : session.userId = userId <;> simp [heq]

/-- The index after a start: the keys of the user's rows, in the order of the table. -/
theorem index_withStorage (maxSessions now : ℕ) (table : Table SessionRow) (userId : String) :
    (withStorage maxSessions now table).index userId =
      (table.filter fun row => row.loadable now && row.userId = userId).map (·.hashedToken) := by
  rw [withStorage, index_foldl_load]
  have hempty : ({ new maxSessions with storage := some table } : SessionManager).index userId =
    [] := rfl
  rw [hempty, List.nil_append, List.filter_map, List.map_map, List.filter_filter]
  congr 1
  refine List.filter_congr fun row _ => ?_
  simp [SessionRow.toSession, Bool.and_comm]

/-- A start finds the session of every row that it loads. -/
theorem lookup_withStorage (hkeys : (table.map (·.hashedToken)).Nodup) {row : SessionRow}
    (hmem : row ∈ table) (hload : row.loadable now = true) :
    (withStorage maxSessions now table).sessions.lookup row.hashedToken =
      some row.toSession := by
  have hfold : (withStorage maxSessions now table).sessions =
      ((table.filter (·.loadable now)).map (·.toSession)).foldl
        (fun map session => map.insert session.token session) ∅ :=
    (List.foldl_hom sessions fun _ _ => rfl).symm
  have hsorted : ((table.filter (·.loadable now)).map (·.toSession)).Pairwise
      fun x y => x.token ≠ y.token := by
    rw [List.pairwise_map]
    exact ((List.pairwise_map.mp hkeys).filter _)
  rw [hfold, DashMap.lookup_foldl_insert _ _ _ _ hsorted]
  -- Keys do not repeat, so what is found under the key of a row is the row.
  have hfind : ((table.filter (·.loadable now)).map (·.toSession)).find?
      (fun session => session.token = row.hashedToken) = some row.toSession := by
    have hin : row.toSession ∈ (table.filter (·.loadable now)).map (·.toSession) :=
      List.mem_map_of_mem (List.mem_filter.mpr ⟨hmem, hload⟩)
    cases hfound : ((table.filter (·.loadable now)).map (·.toSession)).find?
        (fun session => session.token = row.hashedToken) with
    | none =>
        rw [List.find?_eq_none] at hfound
        exact absurd (decide_eq_true rfl) (hfound _ hin)
    | some session =>
        obtain ⟨row', hmem', rfl⟩ := List.mem_map.mp (List.mem_of_find?_eq_some hfound)
        have hsame := List.find?_some hfound
        have hkey : row'.hashedToken = row.hashedToken := of_decide_eq_true hsame
        rw [List.inj_on_of_nodup_map hkeys (List.mem_of_mem_filter hmem') hmem hkey]
  rw [hfind]
  rfl

/-- What a start loads is live. -/
theorem live_of_loadable {row : SessionRow} (h : row.loadable now = true) :
    row.toSession.live now = true := by
  simp only [SessionRow.loadable, Session.live, Bool.and_eq_true, decide_eq_true_eq] at h ⊢
  exact ⟨h.1, h.2.le⟩

/-- After a start every listed token is live. -/
theorem liveIndex_withStorage (hkeys : (table.map (·.hashedToken)).Nodup) (userId : String) :
    (withStorage maxSessions now table).liveIndex now userId =
      (table.filter fun row => row.loadable now && row.userId = userId).map (·.hashedToken) := by
  rw [liveIndex, index_withStorage, List.filter_eq_self]
  intro t ht
  obtain ⟨row, hrow, rfl⟩ := List.mem_map.mp ht
  simp only [List.mem_filter, Bool.and_eq_true] at hrow
  exact isLive_iff.mpr ⟨_, lookup_withStorage hkeys hrow.1 hrow.2.1, live_of_loadable hrow.2.1⟩

/-- The table of a start mirrors the store that was loaded from it. -/
theorem mirrors_withStorage (hkeys : (table.map (·.hashedToken)).Nodup) :
    (withStorage maxSessions now table).Mirrors now := by
  refine ⟨table, storage_withStorage _ _ _, hkeys, fun t session hl _ => ?_,
    fun row hmem hload => ?_⟩
  · obtain ⟨row, hmem, rfl, hload, rfl⟩ := of_lookup_withStorage hl
    simp only [SessionRow.loadable, Bool.and_eq_true] at hload
    exact ⟨row, hmem, rfl, rfl, rfl, hload.1, fun _ => rfl⟩
  · refine ⟨_, lookup_withStorage hkeys hmem hload, ?_, le_refl _⟩
    simp only [SessionRow.loadable, Bool.and_eq_true] at hload
    exact hload.1

/-- The queues that a start loads. -/
def loadedQueues (maxSessions now : ℕ) (table : Table SessionRow) : SessionQueues where
  maxSessions := max maxSessions 1
  queue := fun userId => (table.filter fun row => row.loadable now && row.userId = userId).map
    fun row => ⟨row.hashedToken, row.ip, row.toSession.expiresAt⟩

/-- A start holds what it loaded. -/
theorem refines_loadedQueues (maxSessions now : ℕ) {table : Table SessionRow}
    (hkeys : (table.map (·.hashedToken)).Nodup) :
    (withStorage maxSessions now table).Refines (loadedQueues maxSessions now table) now := by
  have hqueue : ∀ userId, (loadedQueues maxSessions now table).liveQueue now userId =
      (loadedQueues maxSessions now table).queue userId := by
    intro userId
    rw [SessionQueues.liveQueue, List.filter_eq_self]
    intro s hs
    obtain ⟨row, hrow, rfl⟩ := List.mem_map.mp hs
    simp only [List.mem_filter, SessionRow.loadable, Bool.and_eq_true, decide_eq_true_eq] at hrow
    exact decide_eq_true hrow.2.1.2.le
  constructor
  case cap => exact maxSessionsPerUser_withStorage _ _ _
  case cap_pos => exact Nat.lt_of_lt_of_le Nat.zero_lt_one (Nat.le_max_right _ _)
  case order =>
    intro userId
    rw [liveIndex_withStorage hkeys, hqueue, loadedQueues, List.map_map]
    rfl
  case nodup =>
    intro userId
    rw [liveIndex_withStorage hkeys]
    exact hkeys.sublist (List.filter_sublist.map _)
  case found =>
    intro userId s hs
    rw [hqueue] at hs
    obtain ⟨row, hrow, rfl⟩ := List.mem_map.mp hs
    simp only [List.mem_filter, Bool.and_eq_true, decide_eq_true_eq] at hrow
    exact ⟨_, lookup_withStorage hkeys hrow.1 hrow.2.1, hrow.2.2, live_of_loadable hrow.2.1, rfl,
      rfl⟩
  case listed => exact listed_withStorage _ _ _ _

/-- A restart now loses nothing: no live session expires this very second or later than an `i64`
can tell, and the rows of the live sessions stand in the order of the indexes. -/
def Restartable (m : SessionManager) (now : ℕ) (table : Table SessionRow) : Prop :=
  (∀ e ∈ m.sessions.entries, e.2.live now = true →
    now < e.2.expiresAt ∧ e.2.expiresAt < 2 ^ 63) ∧
  ∀ e ∈ m.userSessions.entries,
    (table.map (·.hashedToken)).filter (· ∈ m.liveIndex now e.1) = m.liveIndex now e.1

instance (m : SessionManager) (now : ℕ) (table : Table SessionRow) :
    Decidable (m.Restartable now table) :=
  inferInstanceAs (Decidable (_ ∧ _))

variable {m : SessionManager} {q : SessionQueues}

/-- The rows that a start loads for a user are those of the live sessions in the user's index. -/
theorem loadable_iff (h : m.Refines q now) (hmirrors : m.MirroredBy now table)
    (hend : ∀ e ∈ m.sessions.entries, e.2.live now = true →
      now < e.2.expiresAt ∧ e.2.expiresAt < 2 ^ 63) {row : SessionRow} (hmem : row ∈ table)
    (userId : String) : (row.loadable now = true ∧ row.userId = userId) ↔
      row.hashedToken ∈ m.liveIndex now userId := by
  -- The row that mirrors a session is the one with its key.
  have hrow : ∀ session, m.sessions.lookup row.hashedToken = some session →
      session.live now = true → row.userId = session.userId ∧ row.toSession.active = true ∧
        row.toSession.expiresAt = session.expiresAt ∧ now < session.expiresAt := by
    intro session hl hlive
    obtain ⟨hlt, hfits⟩ := hend ⟨_, session⟩ (AList.mem_lookup_iff.mp hl) hlive
    obtain ⟨row', hmem', hkey, huser, _, hactive, hexpires⟩ := hmirrors.row _ session hl hlive
    obtain rfl := List.inj_on_of_nodup_map hmirrors.keys hmem' hmem hkey
    exact ⟨huser, hactive, hexpires hfits, hlt⟩
  constructor
  · rintro ⟨hload, rfl⟩
    obtain ⟨session, hl, hactive, hle⟩ := hmirrors.session row hmem hload
    -- What a row tells is no later than the end of its session.
    have hlive : session.live now = true := by
      simp only [SessionRow.loadable, Bool.and_eq_true, decide_eq_true_eq] at hload
      simp only [Session.live, hactive, Bool.true_and, decide_eq_true_eq]
      omega
    rw [(hrow session hl hlive).1]
    exact mem_liveIndex.mpr ⟨h.listed _ session hl hlive, isLive_iff.mpr ⟨_, hl, hlive⟩⟩
  · intro hin
    obtain ⟨session, hl, hlive⟩ := isLive_iff.mp (mem_liveIndex.mp hin).2
    obtain ⟨huser, hactive, hexpires, hlt⟩ := hrow session hl hlive
    refine ⟨?_, huser.trans (h.user_of_mem hin hl)⟩
    simp only [SessionRow.loadable, hactive, Bool.true_and, decide_eq_true_eq]
    omega

/-- A restart on a table in order holds what the store held before. -/
theorem Refines.withStorage (h : m.Refines q now) (hmirrors : m.MirroredBy now table)
    (hsafe : m.Restartable now table) :
    (withStorage m.maxSessionsPerUser now table).Refines q now := by
  have hkeys := hmirrors.keys
  have hindex : ∀ userId, (SessionManager.withStorage m.maxSessionsPerUser now table).liveIndex
      now userId = m.liveIndex now userId := by
    intro userId
    have hsame : (table.filter fun row => row.loadable now && row.userId = userId) =
        table.filter fun row => decide (row.hashedToken ∈ m.liveIndex now userId) := by
      refine List.filter_congr fun row hmem => ?_
      rw [Bool.eq_iff_iff, decide_eq_true_iff, ← loadable_iff h hmirrors hsafe.1 hmem userId]
      simp
    have hfilter : (table.filter fun row => decide (row.hashedToken ∈ m.liveIndex now userId)).map
        (·.hashedToken) = (table.map (·.hashedToken)).filter (· ∈ m.liveIndex now userId) := by
      rw [List.filter_map]
      rfl
    rw [liveIndex_withStorage hkeys, hsame, hfilter]
    -- The order of the rows is that of the index, where there is one.
    cases htokens : m.userSessions.lookup userId with
    | some tokens => exact hsafe.2 ⟨userId, tokens⟩ (AList.mem_lookup_iff.mp htokens)
    | none => simp [liveIndex, index, htokens]
  constructor
  case cap =>
    have hpos : 1 ≤ m.maxSessionsPerUser := h.cap ▸ h.cap_pos
    rw [maxSessionsPerUser_withStorage, max_eq_left hpos, h.cap]
  case cap_pos => exact h.cap_pos
  case order => exact fun userId => (hindex userId).trans (h.order userId)
  case nodup => exact fun userId => (hindex userId).symm ▸ h.nodup userId
  case listed => exact listed_withStorage _ _ _ _
  case found =>
    intro userId s hs
    obtain ⟨session, hl, hqueued⟩ := h.found userId s hs
    have hin := h.mem_liveIndex_of_queued hs
    obtain ⟨row, hmem, hkey, huser, hip, hactive, hexpires⟩ :=
      hmirrors.row _ session hl hqueued.live
    have hfits := (hsafe.1 ⟨_, session⟩ (AList.mem_lookup_iff.mp hl) hqueued.live).2
    have hload := ((loadable_iff h hmirrors hsafe.1 hmem userId).mpr (hkey ▸ hin)).1
    exact ⟨row.toSession, hkey ▸ lookup_withStorage hkeys hmem hload, huser.trans hqueued.user,
      live_of_loadable hload, hip.trans hqueued.ip, (hexpires hfits).trans hqueued.expiresAt⟩

end Start

/-- What the outcome of an operation is, in terms of the queues. -/
theorem Refines.outcome_eq {hashToken : String → String} {m m' : SessionManager}
    {q : SessionQueues} {clock : ℕ} (h : m.Refines q clock) (h' : m'.Refines q clock)
    {op : SessionOp} (htimely : op.Timely clock)
    (hfresh : ∀ e ∈ op.creates hashToken, ∀ userId,
      e.2 ∉ m.index userId ∧ e.2 ∉ m'.index userId) :
    m.outcome hashToken op = m'.outcome hashToken op := by
  cases op with
  | create now now2 userId token ip userAgent ttlSecs =>
      have hle : clock ≤ now2 := htimely.1.trans htimely.2
      obtain ⟨hnew, hnew'⟩ := hfresh _ rfl userId
      simp only [outcome, (h.later hle).evicted_eq hnew, (h'.later hle).evicted_eq hnew']
  | validate now token expectedIp expectedUa =>
      have haccept := ((h.later htimely).validateWithRequest hashToken token expectedIp).1
      have haccept' := ((h'.later htimely).validateWithRequest hashToken token expectedIp).1
      simp only [outcome, Option.some.injEq, SessionOutcome.accepted.injEq]
      -- Both accept the token for the users for whom the queues do.
      refine Option.ext fun userId => ?_
      simp only [Option.map_eq_some_iff, haccept, haccept']
  | invalidate token => rfl
  | invalidateAll userId => rfl
  | cleanupExpired now => rfl

end SessionManager

/-- A store that runs on, one that is restarted, and what each of them has shown. -/
structure RestartState where
  plain : SessionManager
  restarted : SessionManager
  clock : ℕ
  plainOutcomes : List SessionOutcome
  restartedOutcomes : List SessionOutcome

/-- An operation on both stores, or a restart of one of them. -/
inductive RestartAction
  | op (op : SessionOp)
  | restart
  deriving DecidableEq, Repr

namespace RestartState

variable (hashToken : String → String)

/-- One step. -/
def step (s : RestartState) : RestartAction → Option RestartState
  | .op op =>
      if op.Timely s.clock then
        some {
          plain := s.plain.applyOp hashToken op
          restarted := s.restarted.applyOp hashToken op
          clock := op.after s.clock
          plainOutcomes := s.plainOutcomes ++ (s.plain.outcome hashToken op).toList
          restartedOutcomes := s.restartedOutcomes ++ (s.restarted.outcome hashToken op).toList }
      else none
  | .restart => s.restarted.storage.map fun table =>
      { s with
        restarted := .withStorage s.restarted.maxSessionsPerUser s.clock table }

/-- Both stores have just been started on the same table. -/
def initial (maxSessions now : ℕ) (table : Table SessionRow) : RestartState where
  plain := .withStorage maxSessions now table
  restarted := .withStorage maxSessions now table
  clock := now
  plainOutcomes := []
  restartedOutcomes := []

/-- Sequential runs with restarts. -/
def machine : Machine RestartState RestartAction := ⟨step hashToken⟩

/-- The steps that do not tell the stores apart: new tokens are listed nowhere yet, and a restart
finds a table from which nothing is lost. -/
def KeepsSessions (s : RestartState) : RestartAction → Prop
  | .op op => ∀ e ∈ op.creates hashToken,
      (∀ i ∈ s.plain.userSessions.entries, e.2 ∉ i.2) ∧
        ∀ i ∈ s.restarted.userSessions.entries, e.2 ∉ i.2
  | .restart => ∀ table ∈ s.restarted.storage, s.restarted.Restartable s.clock table

instance (s : RestartState) (a : RestartAction) : Decidable (s.KeepsSessions hashToken a) := by
  cases a <;> unfold KeepsSessions <;> infer_instance

/-- The invariant: both stores hold the same queues, and the table of the restarted one is good
for a restart. -/
def Inv (s : RestartState) : Prop :=
  (∃ q, s.plain.Refines q s.clock ∧ s.restarted.Refines q s.clock) ∧
    s.restarted.Mirrors s.clock ∧ s.plainOutcomes = s.restartedOutcomes

variable {hashToken}

/-- What stands in no stored index stands in no index. -/
theorem not_mem_index {m : SessionManager} {t : String}
    (h : ∀ i ∈ m.userSessions.entries, t ∉ i.2) (userId : String) : t ∉ m.index userId := by
  unfold SessionManager.index
  cases hl : m.userSessions.lookup userId with
  | none => simp
  | some tokens => exact h ⟨userId, tokens⟩ (AList.mem_lookup_iff.mp hl)

/-- Every step that does not tell the stores apart keeps the invariant. -/
theorem inv_step (s : RestartState) (a : RestartAction) (s' : RestartState) (hs : s.Inv)
    (hok : s.KeepsSessions hashToken a) (h : (machine hashToken).step s a = some s') :
    s'.Inv := by
  obtain ⟨⟨q, hplain, hrestarted⟩, hmirrors, hsame⟩ := hs
  cases a with
  | op op =>
      simp only [machine, step, Option.ite_none_right_eq_some, Option.some.injEq] at h
      obtain ⟨htimely, rfl⟩ := h
      have hfresh : ∀ e ∈ op.creates hashToken, ∀ userId,
          e.2 ∉ s.plain.index userId ∧ e.2 ∉ s.restarted.index userId :=
        fun e he userId => ⟨not_mem_index (hok e he).1 userId, not_mem_index (hok e he).2 userId⟩
      refine ⟨⟨q.applyOp hashToken op, ?_, ?_⟩, hmirrors.applyOp hashToken htimely, ?_⟩
      · exact hplain.applyOp hashToken htimely fun e he userId => (hfresh e he userId).1
      · exact hrestarted.applyOp hashToken htimely fun e he userId => (hfresh e he userId).2
      · rw [hplain.outcome_eq hrestarted htimely hfresh, hsame]
  | restart =>
      obtain ⟨table, hstorage, rfl⟩ := Option.map_eq_some_iff.mp h
      obtain ⟨table', hstorage', hmirrored⟩ := hmirrors
      cases hstorage.symm.trans hstorage'
      refine ⟨⟨q, hplain, hrestarted.withStorage hmirrored (hok table hstorage)⟩, ?_, hsame⟩
      exact SessionManager.mirrors_withStorage hmirrored.keys

/-- The invariant holds at the start. -/
theorem inv_initial (maxSessions now : ℕ) {table : Table SessionRow}
    (hkeys : (table.map (·.hashedToken)).Nodup) : (initial maxSessions now table).Inv :=
  ⟨⟨_, SessionManager.refines_loadedQueues maxSessions now hkeys,
    SessionManager.refines_loadedQueues maxSessions now hkeys⟩,
    SessionManager.mirrors_withStorage hkeys, rfl⟩

/-- In every run whose new tokens are fresh and whose restarts find every live session before its
end and in the order of its index, the restarts change no outcome. -/
theorem outcomes_eq_of_runs (hashToken : String → String) (maxSessions now : ℕ)
    (table : Table SessionRow) (hkeys : (table.map (·.hashedToken)).Nodup)
    (as : List RestartAction) (s : RestartState)
    (hrun : (machine hashToken).Runs (KeepsSessions hashToken) (initial maxSessions now table)
      as s) : s.plainOutcomes = s.restartedOutcomes :=
  (hrun.invariant inv_step (inv_initial maxSessions now hkeys)).2.2

/-- Two sessions of one user with room for two; the older one is validated at `now`, the store
restarted, and a third session created. -/
def thirdSession (now : ℕ) : List RestartAction :=
  [.op (.create 1 1 "u" "a" "10.0.0.1" "curl" 600), .op (.create 2 2 "u" "b" "10.0.0.1" "curl" 600),
    .op (.validate now "a" none none), .restart,
    .op (.create now now "u" "c" "10.0.0.1" "curl" 600)]

/-- A validation soon after the creation is not persisted, and the restart changes nothing. -/
theorem outcomes_eq_thirdSession :
    ∃ s, (machine id).Runs (KeepsSessions id) (initial 2 0 []) (thirdSession 5) s ∧
      s.plainOutcomes = s.restartedOutcomes := by
  obtain ⟨s, hs⟩ : ∃ s, (machine id).exec (KeepsSessions id) (initial 2 0 [])
      (thirdSession 5) = some s := Option.isSome_iff_exists.mp (by decide)
  have hrun := Machine.runs_of_exec hs
  exact ⟨s, hrun, outcomes_eq_of_runs id 2 0 [] List.nodup_nil (thirdSession 5) s hrun⟩

/-- A validation half a minute later is persisted and moves its row to the end of the table: the
restarted store evicts the younger session. -/
theorem outcomes_differ :
    ¬ ∀ (hashToken : String → String) (maxSessions now : ℕ) (table : Table SessionRow),
      (table.map (·.hashedToken)).Nodup → ∀ (as : List RestartAction) (s : RestartState),
        (machine hashToken).Runs Machine.unrestricted (initial maxSessions now table) as s →
          s.plainOutcomes = s.restartedOutcomes := by
  intro hall
  have hend : ∃ s, (machine id).exec Machine.unrestricted (initial 2 0 []) (thirdSession 40) =
      some s ∧ s.plainOutcomes = [.evicted [], .evicted [], .accepted (some "u"), .evicted ["a"]] ∧
        s.restartedOutcomes = [.evicted [], .evicted [], .accepted (some "u"), .evicted ["b"]] :=
    ⟨_, rfl, by decide, by decide⟩
  obtain ⟨s, hs, hplain, hrestarted⟩ := hend
  have hsame := hall id 2 0 [] List.nodup_nil (thirdSession 40) s (Machine.runs_of_exec hs)
  rw [hplain, hrestarted] at hsame
  exact absurd hsame (by decide)

end RestartState

end XiraNet

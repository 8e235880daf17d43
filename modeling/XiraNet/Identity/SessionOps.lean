import XiraNet.Identity.Sessions

/-!
# Whole session operations

What the operations of the session store do when each runs without interruption.

* `lookup_applyInvalidateToken`, `lookup_applyInvalidateUser`: what a revocation removes.
* `SessionManager.Listed`: every live session is in the index of its user. Every operation keeps
  it.
-/

namespace XiraNet

namespace SessionManager

section Operations

/-- An eviction only deactivates one session. -/
theorem lookup_evict (m : SessionManager) (old t : String) :
    (m.evict old).sessions.lookup t =
      if t = old then (m.sessions.lookup old).map fun s => { s with active := false }
      else m.sessions.lookup t := by
  rw [← lookup_deactivate]
  unfold evict
  split
  next session m' h =>
    obtain rfl : (m.deactivate old).2 = m' := congrArg Prod.snd h
    rfl
  next m' h =>
    obtain rfl : (m.deactivate old).2 = m' := congrArg Prod.snd h
    rfl

/-- An eviction does not touch the index. -/
@[simp]
theorem index_evict (m : SessionManager) (old userId : String) :
    (m.evict old).index userId = m.index userId := by
  unfold evict
  split
  next session m' h =>
    obtain rfl : (m.deactivate old).2 = m' := congrArg Prod.snd h
    rfl
  next m' h =>
    obtain rfl : (m.deactivate old).2 = m' := congrArg Prod.snd h
    rfl

/-- Evictions do not touch the index. -/
@[simp]
theorem index_foldl_evict (olds : List String) (m : SessionManager) (userId : String) :
    (olds.foldl evict m).index userId = m.index userId :=
  foldl_eq_of_step (index · userId) evict (fun m old => index_evict m old userId) olds m

/-- A session that is live after some evictions was not evicted. -/
theorem live_of_foldl_evict {olds : List String} {m : SessionManager} {t : String}
    {session : Session} {now : ℕ} (h : (olds.foldl evict m).sessions.lookup t = some session)
    (hlive : session.live now = true) : t ∉ olds ∧ m.sessions.lookup t = some session := by
  induction olds generalizing m with
  | nil => exact ⟨List.not_mem_nil, h⟩
  | cons old olds ih =>
      obtain ⟨hnot, hlookup⟩ := ih h
      rw [lookup_evict] at hlookup
      split at hlookup
      -- An evicted session is inactive, and no later eviction makes it active again.
      next =>
        obtain ⟨s, _, rfl⟩ := Option.map_eq_some_iff.mp hlookup
        simp at hlive
      next hne =>
        exact ⟨fun hmem => (List.mem_cons.mp hmem).elim hne hnot, hlookup⟩

/-- `apply_invalidate_token` removes one session, if it is there. -/
theorem lookup_applyInvalidateToken (m : SessionManager) (hashed t : String) :
    (m.applyInvalidateToken hashed).2.sessions.lookup t =
      if t = hashed then none else m.sessions.lookup t := by
  unfold applyInvalidateToken deactivate
  cases h : m.sessions.lookup hashed with
  | some session =>
      dsimp only
      rw [lookup_removeSession, sessions_deletePersisted, sessions_unlist, DashMap.lookup_modify]
      split
      next => rfl
      next => rfl
  | none =>
      dsimp only
      rw [DashMap.lookup_modify, h]
      rfl

/-- `apply_invalidate_token` reports whether the session was there. -/
theorem applyInvalidateToken_fst (m : SessionManager) (hashed : String) :
    (m.applyInvalidateToken hashed).1 = (m.sessions.lookup hashed).isSome := by
  unfold applyInvalidateToken deactivate
  cases m.sessions.lookup hashed with
  | some session => rfl
  | none => rfl

/-- `unlist` takes one token off one index. -/
theorem mem_index_unlist (m : SessionManager) (userId hashed userId' t : String) :
    t ∈ (m.unlist userId hashed).index userId' ↔
      t ∈ m.index userId' ∧ ¬ (userId' = userId ∧ t = hashed) := by
  unfold unlist index
  rw [DashMap.lookup_modify]
  by_cases h : userId' = userId
  · subst h
    cases m.userSessions.lookup userId' with
    | none => simp
    | some tokens => simp
  · simp [h]

/-- `apply_invalidate_token` takes no other token off an index. -/
theorem mem_index_applyInvalidateToken (m : SessionManager) {hashed t : String} (h : t ≠ hashed)
    (userId : String) :
    t ∈ (m.applyInvalidateToken hashed).2.index userId ↔ t ∈ m.index userId := by
  unfold applyInvalidateToken deactivate
  cases m.sessions.lookup hashed with
  | some session =>
      dsimp only
      rw [index_removeSession, index_deletePersisted, mem_index_unlist]
      exact and_iff_left fun hunlisted => h hunlisted.2
  | none => rfl

/-- The loop of `apply_invalidate_user` removes every listed session. -/
theorem lookup_foldl_dropToken (tokens : List String) (acc : ℕ × SessionManager) (t : String) :
    (tokens.foldl dropToken acc).2.sessions.lookup t =
      if t ∈ tokens then none else acc.2.sessions.lookup t := by
  induction tokens generalizing acc with
  | nil => rfl
  | cons hashed tokens ih =>
      rw [List.foldl_cons, ih]
      have hstep : (dropToken acc hashed).2.sessions.lookup t =
          if t = hashed then none else acc.2.sessions.lookup t := by
        simp only [dropToken]
        rw [lookup_removeSession, sessions_deletePersisted, lookup_deactivate]
        split
        next => rfl
        next => rfl
      rw [hstep]
      -- A token that is listed twice is removed at its first occurrence.
      by_cases hmem : t ∈ tokens
      · simp [hmem]
      · simp [hmem]

/-- The loop of `apply_invalidate_user` does not touch the index. -/
theorem index_foldl_dropToken (tokens : List String) (acc : ℕ × SessionManager)
    (userId : String) : (tokens.foldl dropToken acc).2.index userId = acc.2.index userId := by
  induction tokens generalizing acc with
  | nil => rfl
  | cons hashed tokens ih =>
      rw [List.foldl_cons, ih]
      rfl

/-- The loop of `apply_invalidate_user` counts something when it meets an active session. -/
theorem count_foldl_dropToken (tokens : List String) (acc : ℕ × SessionManager) :
    0 < (tokens.foldl dropToken acc).1 ↔
      0 < acc.1 ∨ ∃ t ∈ tokens, (acc.2.sessions.lookup t).any (·.active) = true := by
  induction tokens generalizing acc with
  | nil => simp
  | cons hashed tokens ih =>
      rw [List.foldl_cons, ih]
      have hlookup : ∀ t, (dropToken acc hashed).2.sessions.lookup t =
          if t = hashed then none else acc.2.sessions.lookup t := by
        intro t
        simpa using lookup_foldl_dropToken [hashed] acc t
      have hcount : (dropToken acc hashed).1 =
          if (acc.2.sessions.lookup hashed).any (·.active) then acc.1 + 1 else acc.1 := rfl
      rw [hcount]
      by_cases hactive : (acc.2.sessions.lookup hashed).any (·.active) = true
      · simp [hactive]
      · simp only [hactive, Bool.false_eq_true, if_false, hlookup, List.mem_cons,
          exists_eq_or_imp, false_or]
        -- A token that occurs again is not found the second time, and was not active anyway.
        refine or_congr_right (exists_congr fun t => and_congr_right fun _ => ?_)
        by_cases ht : t = hashed
        · rw [if_pos ht, ht]
          simpa using hactive
        · rw [if_neg ht]

/-- `apply_invalidate_user` removes every listed session of the user. -/
theorem lookup_applyInvalidateUser (m : SessionManager) (userId t : String) :
    (m.applyInvalidateUser userId).2.sessions.lookup t =
      if t ∈ m.index userId then none else m.sessions.lookup t :=
  lookup_foldl_dropToken (m.index userId) (0, m) t

/-- `apply_invalidate_user` counts the listed sessions that were active. -/
theorem applyInvalidateUser_fst_pos (m : SessionManager) (userId : String) :
    0 < (m.applyInvalidateUser userId).1 ↔
      ∃ t ∈ m.index userId, (m.sessions.lookup t).any (·.active) = true := by
  simpa [applyInvalidateUser] using count_foldl_dropToken (m.index userId) (0, m)

/-- `apply_invalidate_user` empties the index of the user. -/
theorem index_applyInvalidateUser (m : SessionManager) (userId userId' : String) :
    (m.applyInvalidateUser userId).2.index userId' =
      if userId' = userId then [] else m.index userId' := by
  have hfold := index_foldl_dropToken (m.index userId) (0, m) userId'
  unfold index at hfold
  simp only [applyInvalidateUser, unlistUser, index, DashMap.lookup_erase]
  split
  next => rfl
  next => exact hfold

/-- The removals of `cleanup_expired` leave the other sessions alone. -/
theorem lookup_foldl_cleanupOne (entries : List (String × String)) (m : SessionManager)
    (t : String) : (entries.foldl cleanupOne m).sessions.lookup t =
      if t ∈ entries.map (·.1) then none else m.sessions.lookup t := by
  induction entries generalizing m with
  | nil => rfl
  | cons entry entries ih =>
      rw [List.foldl_cons, ih]
      have hstep : (m.cleanupOne entry).sessions.lookup t =
          if t = entry.1 then none else m.sessions.lookup t := DashMap.lookup_erase _ _ _
      rw [hstep]
      by_cases hmem : t ∈ entries.map (·.1)
      · rw [if_pos hmem, if_pos]
        exact List.mem_cons_of_mem _ hmem
      · simp only [if_neg hmem, List.map_cons, List.mem_cons, or_iff_left hmem]

/-- The removals of `cleanup_expired` take no other token off an index. -/
theorem mem_index_foldl_cleanupOne {entries : List (String × String)} {m : SessionManager}
    {t : String} (h : t ∉ entries.map (·.1)) (userId : String) :
    t ∈ (entries.foldl cleanupOne m).index userId ↔ t ∈ m.index userId := by
  induction entries generalizing m with
  | nil => rfl
  | cons entry entries ih =>
      rw [List.map_cons, List.mem_cons, not_or] at h
      rw [List.foldl_cons, ih h.2, cleanupOne, mem_index_unlist]
      -- An entry unlists its own token only, which is not the given one.
      exact and_iff_left fun hunlisted => h.1 hunlisted.2

/-- `apply_invalidate_token` of an unknown token does nothing. -/
theorem applyInvalidateToken_of_not_found {m : SessionManager} {hashed : String}
    (h : m.sessions.lookup hashed = none) : (m.applyInvalidateToken hashed).2 = m := by
  unfold applyInvalidateToken deactivate
  rw [h]
  simp [DashMap.modify, h]

/-- A token without an active session is refused, whatever the request looks like. -/
theorem validateWithRequest_eq_none {m : SessionManager} {hashToken : String → String}
    {token : String}
    (h : ∀ session, m.sessions.lookup (hashToken token) = some session → session.active = false)
    (now : ℕ) (expectedIp : Option String) :
    (m.validateWithRequest hashToken now token expectedIp).1 = none := by
  unfold validateWithRequest
  rcases m.checkSession_cases now (hashToken token) expectedIp with
    ⟨-, hres⟩ | ⟨_, -, -, hres⟩ | ⟨_, -, -, -, hres⟩ | ⟨session, hlookup, hlive, -, -⟩
  · simp [hres]
  · simp [hres]
  · simp [hres]
  · simp [Session.live, h session hlookup] at hlive

/-- A validated session is a live one of the same user. -/
theorem mem_liveSessions_of_validated {m : SessionManager} {hashToken : String → String}
    {now : ℕ} {token : String} {expectedIp : Option String} {session : Session}
    (h : (m.validateWithRequest hashToken now token expectedIp).1 = some session) :
    hashToken token ∈ m.liveSessions now session.userId := by
  unfold validateWithRequest at h
  rcases m.checkSession_cases now (hashToken token) expectedIp with
    ⟨-, hres⟩ | ⟨_, -, -, hres⟩ | ⟨_, -, -, -, hres⟩ | ⟨old, hlookup, hlive, -, hres⟩
  · simp [hres] at h
  · simp [hres] at h
  · simp [hres] at h
  · simp only [hres, Option.some.injEq] at h
    subst h
    exact mem_liveSessions.mpr ⟨old, hlookup, rfl, hlive⟩

/-- Whether a bus event makes a node drop a session. -/
def Hits (m : SessionManager) (t : String) : BusEvent → Prop
  | .sessionInvalidateToken hashed => t = hashed
  | .sessionInvalidateUser userId => t ∈ m.index userId
  | .wafRuleAdded _ _ _ => False
  | .wafRuleRemoved _ => False

instance (m : SessionManager) (t : String) (event : BusEvent) : Decidable (m.Hits t event) := by
  cases event <;> unfold Hits <;> infer_instance

/-- The handler of a bus event drops the sessions that the event hits, and no others. -/
theorem lookup_handle (m : SessionManager) (event : BusEvent) (t : String) :
    (m.handle event).sessions.lookup t =
      if m.Hits t event then none else m.sessions.lookup t := by
  cases event with
  | sessionInvalidateToken hashed => exact lookup_applyInvalidateToken m hashed t
  | sessionInvalidateUser userId => exact lookup_applyInvalidateUser m userId t
  | wafRuleAdded id pattern label => rfl
  | wafRuleRemoved id => rfl

/-- What an event leaves is hit by the same events as before. -/
theorem hits_handle {m : SessionManager} {event : BusEvent} {t : String} (h : ¬ m.Hits t event)
    (event' : BusEvent) : (m.handle event).Hits t event' ↔ m.Hits t event' := by
  cases event' with
  | sessionInvalidateToken hashed => rfl
  | sessionInvalidateUser userId' =>
      cases event with
      | sessionInvalidateToken hashed => exact m.mem_index_applyInvalidateToken h userId'
      -- Only the index of the event's user changes, and the token was not in it.
      | sessionInvalidateUser userId =>
          show t ∈ (m.applyInvalidateUser userId).2.index userId' ↔ t ∈ m.index userId'
          rw [index_applyInvalidateUser]
          split
          next huser =>
            rw [huser]
            exact iff_of_false List.not_mem_nil h
          next => rfl
      | wafRuleAdded id pattern label => rfl
      | wafRuleRemoved id => rfl
  | wafRuleAdded id pattern label => rfl
  | wafRuleRemoved id => rfl

end Operations

section Listed

/-- Every live session is in the index of its user. -/
def Listed (m : SessionManager) (now : ℕ) : Prop :=
  ∀ t session, m.sessions.lookup t = some session → session.live now = true →
    t ∈ m.index session.userId

/-- A listed session stays listed while time passes. -/
theorem Listed.later {m : SessionManager} {now later : ℕ} (h : m.Listed now)
    (hle : now ≤ later) : m.Listed later :=
  fun t session hsession hlive => h t session hsession (Session.live_of_le hle hlive)

/-- An empty manager is listed. -/
theorem listed_new (maxSessions now : ℕ) : (new maxSessions).Listed now := by
  intro t session hsession
  simp [new] at hsession

variable {m : SessionManager} {now : ℕ}

/-- Loading a session lists it. -/
theorem Listed.load (h : m.Listed now) (session : Session) : (m.load session).Listed now := by
  intro t session' hsession hlive
  have hindex : (m.load session).index session'.userId =
      if session'.userId = session.userId then m.index session.userId ++ [session.token]
      else m.index session'.userId := by
    simp only [SessionManager.load, index, DashMap.lookup_insert]
    split
    next => rfl
    next => rfl
  simp only [SessionManager.load, DashMap.lookup_insert] at hsession
  rw [hindex]
  split at hsession
  next heq =>
    cases hsession
    simp [heq]
  next =>
    have hold := h t session' hsession hlive
    -- The index of the loaded session's user only grows.
    split
    next heq => exact List.mem_append_left _ (heq ▸ hold)
    next => exact hold

/-- A start lists every session that it loads. -/
theorem listed_withStorage (maxSessions now start : ℕ) (table : Table SessionRow) :
    (withStorage maxSessions start table).Listed now := by
  have hempty : Listed { new maxSessions with storage := some table } now :=
    fun t session hsession => listed_new maxSessions now t session hsession
  exact List.foldlRecOn (motive := fun m => Listed m now) _ _ hempty fun _ h session _ =>
    h.load session

/-- `create` keeps every live session listed: those that its index block drops are evicted. -/
theorem Listed.create (h : m.Listed now) (hmax : 0 < m.maxSessionsPerUser)
    (hashToken : String → String) (start : ℕ) (userId token ip userAgent : String)
    (ttlSecs : ℕ) :
    (m.create hashToken start now userId token ip userAgent ttlSecs).2.Listed now := by
  intro t session hsession hlive
  simp only [SessionManager.create, sessions_persist, lookup_insertSession, index_persist,
    index_insertSession, index_foldl_evict] at hsession ⊢
  split at hsession
  -- The new session is listed by the index block itself.
  next heq =>
    cases hsession
    rw [heq]
    exact m.mem_index_indexNew hmax _ _ _
  -- An older session was live throughout, so it was not among those selected for eviction.
  next =>
    obtain ⟨hkept, hlookup⟩ := live_of_foldl_evict hsession hlive
    rw [sessions_indexNew] at hlookup
    have hold := h t session hlookup hlive
    by_cases huser : session.userId = userId
    · have hisLive : m.isLive now t = true := by simpa [isLive, hlookup] using hlive
      rw [huser] at hold ⊢
      exact (mem_indexNew_of_isLive hold hisLive _).resolve_left hkept
    · rw [m.index_indexNew_of_ne huser]
      exact hold

/-- `apply_invalidate_token` keeps every live session listed. -/
theorem Listed.applyInvalidateToken (h : m.Listed now) (hashed : String) :
    (m.applyInvalidateToken hashed).2.Listed now := by
  intro t session hsession hlive
  rw [lookup_applyInvalidateToken] at hsession
  split at hsession
  next => cases hsession
  next hne => exact (m.mem_index_applyInvalidateToken hne _).mpr (h t session hsession hlive)

/-- `apply_invalidate_user` keeps every live session listed. -/
theorem Listed.applyInvalidateUser (h : m.Listed now) (userId : String) :
    (m.applyInvalidateUser userId).2.Listed now := by
  intro t session hsession hlive
  rw [lookup_applyInvalidateUser] at hsession
  split at hsession
  next => cases hsession
  next hunlisted =>
    have hold := h t session hsession hlive
    rw [index_applyInvalidateUser, if_neg]
    · exact hold
    -- A live session of that user was listed, so the loop has removed it.
    · intro huser
      rw [huser] at hold
      exact hunlisted hold

/-- `validate_with_request` keeps every live session listed. -/
theorem Listed.validateWithRequest (h : m.Listed now) (hashToken : String → String)
    (token : String) (expectedIp : Option String) :
    (m.validateWithRequest hashToken now token expectedIp).2.Listed now := by
  have hcheck : (m.checkSession now (hashToken token) expectedIp).2.Listed now := by
    intro t session hsession hlive
    obtain ⟨f, hf⟩ := m.lookup_checkSession now (hashToken token) expectedIp t
    rw [hf] at hsession
    obtain ⟨old, hold, rfl⟩ := Option.map_eq_some_iff.mp hsession
    rw [index_checkSession]
    exact h t old hold hlive
  unfold SessionManager.validateWithRequest
  rcases m.checkSession_cases now (hashToken token) expectedIp with
    ⟨-, hres⟩ | ⟨_, -, -, hres⟩ | ⟨_, -, -, -, hres⟩ | ⟨_, -, -, -, hres⟩
  · simpa [hres] using h
  · simpa [hres] using h
  · simpa [hres] using h.applyInvalidateToken (hashToken token)
  · rw [hres] at hcheck
    simp only [hres]
    split
    next => exact fun t session => hcheck t session
    next => exact hcheck

/-- `cleanup_expired` keeps every live session listed. -/
theorem Listed.cleanupExpired (h : m.Listed now) : (m.cleanupExpired now).2.Listed now := by
  intro t session hsession hlive
  rw [SessionManager.cleanupExpired, lookup_foldl_cleanupOne] at hsession
  split at hsession
  next => cases hsession
  next hkept =>
    rw [SessionManager.cleanupExpired, mem_index_foldl_cleanupOne hkept]
    exact h t session hsession hlive

/-- A bus event keeps every live session listed. -/
theorem Listed.handle (h : m.Listed now) (event : BusEvent) : (m.handle event).Listed now := by
  cases event with
  | sessionInvalidateToken hashed => exact h.applyInvalidateToken hashed
  | sessionInvalidateUser userId => exact h.applyInvalidateUser userId
  | wafRuleAdded id pattern label => exact h
  | wafRuleRemoved id => exact h

end Listed

section Size

/-- Evictions do not change the cap. -/
@[simp]
theorem maxSessionsPerUser_foldl_evict (olds : List String) (m : SessionManager) :
    (olds.foldl evict m).maxSessionsPerUser = m.maxSessionsPerUser := by
  refine foldl_eq_of_step maxSessionsPerUser evict (fun m old => ?_) olds m
  unfold evict deactivate
  cases m.sessions.lookup old <;> rfl

/-- `create` does not change the cap. -/
@[simp]
theorem maxSessionsPerUser_create (m : SessionManager) (hashToken : String → String)
    (now now2 : ℕ) (userId token ip userAgent : String) (ttlSecs : ℕ) :
    (m.create hashToken now now2 userId token ip userAgent ttlSecs).2.maxSessionsPerUser =
      m.maxSessionsPerUser :=
  maxSessionsPerUser_foldl_evict _ _

/-- `apply_invalidate_token` does not change the cap. -/
@[simp]
theorem maxSessionsPerUser_applyInvalidateToken (m : SessionManager) (hashed : String) :
    (m.applyInvalidateToken hashed).2.maxSessionsPerUser = m.maxSessionsPerUser := by
  unfold applyInvalidateToken deactivate
  cases m.sessions.lookup hashed <;> rfl

/-- `apply_invalidate_user` does not change the cap. -/
@[simp]
theorem maxSessionsPerUser_applyInvalidateUser (m : SessionManager) (userId : String) :
    (m.applyInvalidateUser userId).2.maxSessionsPerUser = m.maxSessionsPerUser :=
  foldl_eq_of_step (fun acc : ℕ × SessionManager => acc.2.maxSessionsPerUser) dropToken
    (fun _ _ => rfl) (m.index userId) (0, m)

/-- `validate_with_request` does not change the cap. -/
@[simp]
theorem maxSessionsPerUser_validateWithRequest (m : SessionManager)
    (hashToken : String → String) (now : ℕ) (token : String) (expectedIp : Option String) :
    (m.validateWithRequest hashToken now token expectedIp).2.maxSessionsPerUser =
      m.maxSessionsPerUser := by
  unfold validateWithRequest
  rcases m.checkSession_cases now (hashToken token) expectedIp with
    ⟨-, h⟩ | ⟨_, -, -, h⟩ | ⟨_, -, -, -, h⟩ | ⟨_, -, -, -, h⟩
  · simp [h]
  · simp [h]
  · simp [h]
  · simp only [h]
    split <;> rfl

/-- `cleanup_expired` does not change the cap. -/
@[simp]
theorem maxSessionsPerUser_cleanupExpired (m : SessionManager) (now : ℕ) :
    (m.cleanupExpired now).2.maxSessionsPerUser = m.maxSessionsPerUser :=
  foldl_eq_of_step maxSessionsPerUser cleanupOne (fun _ _ => rfl) _ m

/-- A bus event does not change the cap. -/
@[simp]
theorem maxSessionsPerUser_handle (m : SessionManager) (event : BusEvent) :
    (m.handle event).maxSessionsPerUser = m.maxSessionsPerUser := by
  cases event with
  | sessionInvalidateToken hashed => exact maxSessionsPerUser_applyInvalidateToken m hashed
  | sessionInvalidateUser userId => exact maxSessionsPerUser_applyInvalidateUser m userId
  | wafRuleAdded id pattern label => rfl
  | wafRuleRemoved id => rfl

/-- A start clamps the cap like `new`. -/
@[simp]
theorem maxSessionsPerUser_withStorage (maxSessions now : ℕ) (table : Table SessionRow) :
    (withStorage maxSessions now table).maxSessionsPerUser = max maxSessions 1 :=
  foldl_eq_of_step maxSessionsPerUser load (fun _ _ => rfl) _ _

end Size

end SessionManager

end XiraNet

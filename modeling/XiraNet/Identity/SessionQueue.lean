import Mathlib.Data.List.Basic
import Mathlib.Logic.Function.Basic
import XiraNet.Identity.SessionOps

/-!
# The session store as queues of sessions

What the session store is for, without its two maps and their lazy cleaning: every user has a
queue of sessions, the oldest first, and a session counts as long as it has not expired.

* `SessionQueues`: the queues and the effect of each operation on them.
* `SessionManager.liveIndex`: the live tokens that the index of a user lists. Each operation's
  effect on it is stated by a `liveIndex_` lemma.
* `SessionManager.Refines`: the index of every user lists the live sessions of his queue in the
  queue's order, and the session map knows them. Every operation keeps it.

Tokens stand for their stored form in both: two tokens with one hash are one token.
-/

namespace XiraNet

/-- A session in a queue. -/
structure QueuedSession where
  token : String
  ip : String
  expiresAt : ℕ
  deriving DecidableEq, Repr

/-- The queue of every user. -/
structure SessionQueues where
  maxSessions : ℕ
  queue : String → List QueuedSession

/-- Drop elements from the front until at most `max` are left. -/
def popFront {α : Type*} (max : ℕ) (xs : List α) : List α := xs.drop (xs.length - max)

namespace QueuedSession

/-- A session is live up to the second in which it expires. -/
def live (s : QueuedSession) (now : ℕ) : Bool := decide (now ≤ s.expiresAt)

/-- The request comes from another address than the session's, and both are known. -/
def foreign (s : QueuedSession) : Option String → Bool
  | some ip => s.ip ≠ "" && s.ip ≠ "unknown" && ip ≠ "" && s.ip ≠ ip
  | none => false

end QueuedSession

namespace SessionQueues

/-- Queues without sessions. -/
def empty (maxSessions : ℕ) : SessionQueues := ⟨maxSessions, fun _ => []⟩

/-- The live part of a queue. -/
def liveQueue (q : SessionQueues) (now : ℕ) (userId : String) : List QueuedSession :=
  (q.queue userId).filter (·.live now)

/-- A new session: the expired ones leave, the new one is appended, and the oldest leave while
there are too many. -/
def create (q : SessionQueues) (now : ℕ) (userId : String) (s : QueuedSession) : SessionQueues :=
  { q with
    queue := Function.update q.queue userId
      (popFront q.maxSessions (q.liveQueue now userId ++ [s])) }

/-- Keep the sessions that satisfy `p`. -/
def keep (q : SessionQueues) (p : QueuedSession → Bool) : SessionQueues :=
  { q with queue := fun userId => (q.queue userId).filter p }

/-- A request with a token: its session is removed if the request comes from elsewhere. -/
def validate (q : SessionQueues) (token : String) (ip : Option String) : SessionQueues :=
  q.keep fun s => !(s.token = token && s.foreign ip)

/-- The session of a token is removed. -/
def invalidate (q : SessionQueues) (token : String) : SessionQueues :=
  q.keep fun s => s.token ≠ token

/-- The sessions of a user are removed. -/
def invalidateAll (q : SessionQueues) (userId : String) : SessionQueues :=
  { q with queue := Function.update q.queue userId [] }

/-- A request with a token is accepted as the user's. -/
def Accepts (q : SessionQueues) (now : ℕ) (userId token : String) (ip : Option String) : Prop :=
  ∃ s ∈ q.liveQueue now userId, s.token = token ∧ s.foreign ip = false

/-- Removing sessions from the queues removes them from the live parts. -/
theorem liveQueue_keep (q : SessionQueues) (p : QueuedSession → Bool) (now : ℕ)
    (userId : String) : (q.keep p).liveQueue now userId = (q.liveQueue now userId).filter p := by
  simp only [liveQueue, keep, List.filter_filter, Bool.and_comm]

/-- A new session changes one queue. -/
theorem liveQueue_create (q : SessionQueues) (now : ℕ) (userId : String) (s : QueuedSession)
    (userId' : String) : (q.create now userId s).liveQueue now userId' =
      if userId' = userId then
        (popFront q.maxSessions (q.liveQueue now userId ++ [s])).filter (·.live now)
      else q.liveQueue now userId' := by
  simp only [liveQueue, create, Function.update_apply]
  split <;> rfl

/-- Removing a user's sessions empties one queue. -/
theorem liveQueue_invalidateAll (q : SessionQueues) (userId : String) (now : ℕ)
    (userId' : String) : (q.invalidateAll userId).liveQueue now userId' =
      if userId' = userId then [] else q.liveQueue now userId' := by
  simp only [liveQueue, invalidateAll, Function.update_apply]
  split <;> rfl

/-- What is live later is what is live of what is live now. -/
theorem liveQueue_later (q : SessionQueues) {now later : ℕ} (hle : now ≤ later)
    (userId : String) :
    q.liveQueue later userId = (q.liveQueue now userId).filter (·.live later) := by
  simp only [liveQueue, List.filter_filter]
  refine List.filter_congr fun s _ => ?_
  have himp : s.live later = true → s.live now = true := by
    simp only [QueuedSession.live, decide_eq_true_eq]
    omega
  cases h : s.live later with
  | false => rfl
  | true => simp [himp h]

end SessionQueues

/-- The eviction loop splits the queue so that the youngest tokens stay. -/
theorem evictOldest_eq (maxSessions : ℕ) (tokens : List String) :
    evictOldest maxSessions tokens =
      (tokens.take (tokens.length - maxSessions), popFront maxSessions tokens) := by
  induction tokens with
  | nil => simp [evictOldest, popFront]
  | cons oldest rest ih =>
      unfold evictOldest
      by_cases h : maxSessions < (oldest :: rest).length
      · have hlen : (oldest :: rest).length - maxSessions =
            rest.length - maxSessions + 1 := by
          simp only [List.length_cons] at h ⊢
          omega
        rw [if_pos h, ih, popFront, popFront, hlen]
        rfl
      · have hlen : (oldest :: rest).length - maxSessions = 0 := by omega
        rw [if_neg h, popFront, hlen]
        rfl

namespace SessionManager

/-- The live tokens that the index of a user lists, in its order. -/
def liveIndex (m : SessionManager) (now : ℕ) (userId : String) : List String :=
  (m.index userId).filter (m.isLive now)

section LiveIndex

variable {m m' : SessionManager} {now now2 : ℕ} {userId t : String}

/-- A live token belongs to a live session. -/
theorem isLive_iff : m.isLive now t = true ↔
    ∃ session, m.sessions.lookup t = some session ∧ session.live now = true := by
  unfold isLive
  cases m.sessions.lookup t <;> simp

/-- A token that is live later is live now. -/
theorem isLive_of_le (hle : now ≤ now2) (h : m.isLive now2 t = true) : m.isLive now t = true := by
  obtain ⟨session, hsession, hlive⟩ := isLive_iff.mp h
  exact isLive_iff.mpr ⟨session, hsession, Session.live_of_le hle hlive⟩

/-- A session that is found the same in two managers is as live in both. -/
theorem isLive_congr (h : m'.sessions.lookup t = m.sessions.lookup t) (now : ℕ) :
    m'.isLive now t = m.isLive now t := by
  unfold isLive
  rw [h]

/-- The members of the live index. -/
theorem mem_liveIndex :
    t ∈ m.liveIndex now userId ↔ t ∈ m.index userId ∧ m.isLive now t = true :=
  List.mem_filter

/-- What is live later is what is live of what is live now. -/
theorem liveIndex_later (m : SessionManager) (hle : now ≤ now2) (userId : String) :
    m.liveIndex now2 userId = (m.liveIndex now userId).filter (m.isLive now2) := by
  simp only [liveIndex, List.filter_filter]
  refine List.filter_congr fun t _ => ?_
  cases h : m.isLive now2 t with
  | false => rfl
  | true => simp [isLive_of_le hle h]

/-- An operation that keeps an index and removes the sessions outside `p`. -/
theorem liveIndex_of_index_eq {p : String → Bool} (hindex : m'.index userId = m.index userId)
    (hlive : ∀ t ∈ m.index userId, m'.isLive now t = (m.isLive now t && p t)) :
    m'.liveIndex now userId = (m.liveIndex now userId).filter p := by
  simp only [liveIndex, hindex, List.filter_filter]
  refine List.filter_congr fun t ht => ?_
  rw [hlive t ht, Bool.and_comm]

/-- `unlist` takes one token off one index. -/
theorem index_unlist (m : SessionManager) (userId hashed userId' : String) :
    (m.unlist userId hashed).index userId' =
      if userId' = userId then (m.index userId').filter (· ≠ hashed) else m.index userId' := by
  unfold unlist index
  rw [DashMap.lookup_modify]
  split
  next heq =>
    subst heq
    cases m.userSessions.lookup userId' <;> rfl
  next => rfl

/-- `apply_invalidate_token` takes its token off one index at most. -/
theorem index_applyInvalidateToken (m : SessionManager) (hashed userId : String) :
    (m.applyInvalidateToken hashed).2.index userId = m.index userId ∨
      (m.applyInvalidateToken hashed).2.index userId =
        (m.index userId).filter (· ≠ hashed) := by
  unfold applyInvalidateToken deactivate
  cases m.sessions.lookup hashed with
  | none => exact .inl rfl
  | some session =>
      dsimp only
      rw [index_removeSession, index_deletePersisted, index_unlist]
      split
      next => exact .inr rfl
      next => exact .inl rfl

/-- `apply_invalidate_token` takes its token off the live index. -/
theorem liveIndex_applyInvalidateToken (m : SessionManager) (hashed : String) (now : ℕ)
    (userId : String) : (m.applyInvalidateToken hashed).2.liveIndex now userId =
      (m.liveIndex now userId).filter (· ≠ hashed) := by
  have hlive : ∀ t, (m.applyInvalidateToken hashed).2.isLive now t =
      (m.isLive now t && decide (t ≠ hashed)) := by
    intro t
    unfold isLive
    rw [lookup_applyInvalidateToken]
    by_cases ht : t = hashed <;> simp [ht]
  rcases m.index_applyInvalidateToken hashed userId with hindex | hindex
  · exact liveIndex_of_index_eq hindex fun t _ => hlive t
  · simp only [liveIndex, hindex, List.filter_filter]
    refine List.filter_congr fun t _ => ?_
    rw [hlive t]
    cases m.isLive now t <;> by_cases ht : t = hashed <;> simp [ht]

/-- A validation does not change who is live. -/
theorem isLive_checkSession (m : SessionManager) (start : ℕ) (hashed : String)
    (expectedIp : Option String) (now : ℕ) (t : String) :
    (m.checkSession start hashed expectedIp).2.isLive now t = m.isLive now t := by
  obtain ⟨f, hf⟩ := m.lookup_checkSession start hashed expectedIp t
  unfold isLive
  rw [hf]
  cases m.sessions.lookup t <;> rfl

/-- `apply_invalidate_user` empties the live index of its user, and takes the tokens that his
index listed off those of the others. -/
theorem liveIndex_applyInvalidateUser (m : SessionManager) (userId : String) (now : ℕ)
    (userId' : String) : (m.applyInvalidateUser userId).2.liveIndex now userId' =
      if userId' = userId then []
      else (m.liveIndex now userId').filter (· ∉ m.index userId) := by
  split
  next heq => simp [liveIndex, index_applyInvalidateUser, heq]
  next hne =>
    refine liveIndex_of_index_eq (by rw [index_applyInvalidateUser, if_neg hne]) fun t _ => ?_
    unfold isLive
    rw [lookup_applyInvalidateUser]
    by_cases ht : t ∈ m.index userId <;> simp [ht]

/-- Unlisting tokens that are not live does not change the live part of an index. -/
theorem filter_index_foldl_cleanupOne {p : String → Bool} {entries : List (String × String)}
    (hdead : ∀ e ∈ entries, p e.1 = false) (m : SessionManager) (userId : String) :
    ((entries.foldl cleanupOne m).index userId).filter p = (m.index userId).filter p := by
  induction entries generalizing m with
  | nil => rfl
  | cons entry entries ih =>
      rw [List.foldl_cons, ih fun e he => hdead e (List.mem_cons_of_mem _ he), cleanupOne,
        index_unlist]
      split
      next =>
        rw [index_deletePersisted, index_removeSession, List.filter_filter]
        refine List.filter_congr fun t _ => ?_
        by_cases ht : t = entry.1
        · simp [ht, hdead entry List.mem_cons_self]
        · simp [ht]
      next => rfl

/-- Who is live does not depend on the sessions that `cleanup_expired` removes. -/
theorem isLive_cleanupExpired (m : SessionManager) (now : ℕ) (t : String) :
    (m.cleanupExpired now).2.isLive now t = m.isLive now t := by
  unfold isLive
  rw [cleanupExpired, lookup_foldl_cleanupOne]
  split
  next hmem =>
    simp only [List.map_map, List.mem_map, List.mem_filter, Function.comp] at hmem
    obtain ⟨⟨k, session⟩, ⟨hentry, hdead⟩, rfl⟩ := hmem
    have hlookup : m.sessions.lookup k = some session := AList.mem_lookup_iff.mpr hentry
    simpa [hlookup] using hdead
  next => rfl

/-- `cleanup_expired` does not change a live index. -/
theorem liveIndex_cleanupExpired (m : SessionManager) (now : ℕ) (userId : String) :
    (m.cleanupExpired now).2.liveIndex now userId = m.liveIndex now userId := by
  have hlive : (m.cleanupExpired now).2.isLive now = m.isLive now :=
    funext fun t => m.isLive_cleanupExpired now t
  rw [liveIndex, hlive, cleanupExpired, filter_index_foldl_cleanupOne]
  · rfl
  · simp only [List.mem_map, List.mem_filter]
    rintro e ⟨⟨k, session⟩, ⟨hentry, hdead⟩, rfl⟩
    have hlookup : m.sessions.lookup k = some session := AList.mem_lookup_iff.mpr hentry
    simpa [isLive, hlookup] using hdead

/-- Evictions only deactivate the evicted sessions. -/
theorem lookup_foldl_evict (olds : List String) (m : SessionManager) (t : String) :
    (olds.foldl evict m).sessions.lookup t =
      if t ∈ olds then (m.sessions.lookup t).map fun s => { s with active := false }
      else m.sessions.lookup t := by
  induction olds generalizing m with
  | nil => rfl
  | cons old olds ih =>
      rw [List.foldl_cons, ih, lookup_evict]
      by_cases hold : t = old
      · subst hold
        cases m.sessions.lookup t <;> simp
      · simp [hold]

section Create

variable (m : SessionManager) (hashToken : String → String) (now now2 ttlSecs : ℕ)
  (userId token ip userAgent : String)

/-- The index block of `create` for a token that is not listed yet. -/
theorem indexNew_of_not_mem {hashed : String} (hfresh : hashed ∉ m.index userId) :
    (m.indexNew now2 userId hashed).1 =
        (m.liveIndex now2 userId ++ [hashed]).take
          ((m.liveIndex now2 userId ++ [hashed]).length - m.maxSessionsPerUser) ∧
      (m.indexNew now2 userId hashed).2.index userId =
        popFront m.maxSessionsPerUser (m.liveIndex now2 userId ++ [hashed]) := by
  have hpruned : (m.index userId ++ [hashed]).filter
      (fun t => m.isLive now2 t || decide (t = hashed)) = m.liveIndex now2 userId ++ [hashed] := by
    rw [List.filter_append]
    congr 1
    · refine List.filter_congr fun t ht => ?_
      have hne : t ≠ hashed := fun heq => hfresh (heq ▸ ht)
      simp [hne]
    · simp
  simp only [indexNew, hpruned, evictOldest_eq, true_and]
  simp [index]

/-- A token that is not listed yet makes no duplicate. -/
theorem nodup_liveIndex_append {hashed : String} (hfresh : hashed ∉ m.index userId)
    (hnodup : (m.liveIndex now2 userId).Nodup) :
    (m.liveIndex now2 userId ++ [hashed]).Nodup := by
  rw [List.nodup_append]
  refine ⟨hnodup, List.nodup_singleton _, fun a ha b hb hab => ?_⟩
  rw [List.mem_singleton.mp hb] at hab
  exact hfresh (hab ▸ (mem_liveIndex.mp ha).1)

/-- The index block of `create` evicts no token that it lists. -/
theorem not_mem_evicted {hashed t : String} (hfresh : hashed ∉ m.index userId)
    (hnodup : (m.liveIndex now2 userId).Nodup)
    (ht : t ∈ popFront m.maxSessionsPerUser (m.liveIndex now2 userId ++ [hashed])) :
    t ∉ (m.indexNew now2 userId hashed).1 := by
  have hall := m.nodup_liveIndex_append now2 userId hfresh hnodup
  -- The evicted tokens and those that stay are the two parts of one list without duplicates.
  rw [← List.take_append_drop ((m.liveIndex now2 userId ++ [hashed]).length -
    m.maxSessionsPerUser) (m.liveIndex now2 userId ++ [hashed]), List.nodup_append] at hall
  rw [(m.indexNew_of_not_mem now2 userId hfresh).1]
  exact fun hin => hall.2.2 t hin t ht rfl

/-- What is found after `create`. -/
theorem lookup_create (t : String) :
    (m.create hashToken now now2 userId token ip userAgent ttlSecs).2.sessions.lookup t =
      if t = hashToken token then
        some (.opened now (hashToken token) userId ip userAgent ttlSecs)
      else if t ∈ (m.indexNew now2 userId (hashToken token)).1 then
        (m.sessions.lookup t).map fun s => { s with active := false }
      else m.sessions.lookup t := by
  simp only [create, sessions_persist, lookup_insertSession, lookup_foldl_evict,
    sessions_indexNew]

/-- The indexes after `create` are those after its index block. -/
theorem index_create (userId' : String) :
    (m.create hashToken now now2 userId token ip userAgent ttlSecs).2.index userId' =
      (m.indexNew now2 userId (hashToken token)).2.index userId' := by
  simp [create]

variable {userId token}

/-- `create` appends its token to the live index of its user and drops the oldest. -/
theorem liveIndex_create (hfresh : hashToken token ∉ m.index userId)
    (hnodup : (m.liveIndex now2 userId).Nodup) :
    (m.create hashToken now now2 userId token ip userAgent ttlSecs).2.liveIndex now2 userId =
      (popFront m.maxSessionsPerUser (m.liveIndex now2 userId ++ [hashToken token])).filter
        fun t => t ≠ hashToken token || decide (now2 ≤ wrappingAdd now ttlSecs) := by
  rw [liveIndex, index_create, (m.indexNew_of_not_mem now2 userId hfresh).2]
  refine List.filter_congr fun t ht => ?_
  unfold isLive
  rw [lookup_create]
  by_cases htoken : t = hashToken token
  · simp [htoken, Session.live, Session.opened]
  · -- A token that stays was live before, and is not among the evicted ones.
    have hmem : t ∈ m.liveIndex now2 userId := by
      have := List.mem_of_mem_drop ht
      simpa [htoken] using this
    have hstays := m.not_mem_evicted now2 userId hfresh hnodup ht
    simpa [htoken, hstays, isLive] using (mem_liveIndex.mp hmem).2

/-- `create` leaves the live indexes of the other users alone, unless it evicts their tokens. -/
theorem liveIndex_create_of_ne {userId' : String} (hne : userId' ≠ userId)
    (hfresh : hashToken token ∉ m.index userId')
    (hkept : ∀ t ∈ m.liveIndex now2 userId', t ∉ (m.indexNew now2 userId (hashToken token)).1) :
    (m.create hashToken now now2 userId token ip userAgent ttlSecs).2.liveIndex now2 userId' =
      m.liveIndex now2 userId' := by
  rw [liveIndex, index_create, m.index_indexNew_of_ne hne, liveIndex]
  refine List.filter_congr fun t ht => ?_
  have htoken : t ≠ hashToken token := fun heq => hfresh (heq ▸ ht)
  cases hlive : m.isLive now2 t with
  | true =>
      have hstays := hkept t (mem_liveIndex.mpr ⟨ht, hlive⟩)
      rw [← hlive]
      exact isLive_congr (by simp [lookup_create, htoken, hstays]) now2
  | false =>
      -- An evicted session is no more live than it was.
      unfold isLive at hlive ⊢
      rw [lookup_create, if_neg htoken]
      split
      next => cases m.sessions.lookup t <;> rfl
      next => exact hlive

end Create

end LiveIndex

/-- A session of the store is the given session of a user's queue. -/
structure IsQueued (session : Session) (now : ℕ) (userId : String) (s : QueuedSession) : Prop where
  user : session.userId = userId
  live : session.live now = true
  ip : session.ip = s.ip
  expiresAt : session.expiresAt = s.expiresAt

/-- The store holds the live sessions of the queues: every index lists them in the queue's order,
the map knows them, and no others are live. -/
structure Refines (m : SessionManager) (q : SessionQueues) (now : ℕ) : Prop where
  cap : m.maxSessionsPerUser = q.maxSessions
  cap_pos : 0 < q.maxSessions
  order : ∀ userId, m.liveIndex now userId = (q.liveQueue now userId).map (·.token)
  nodup : ∀ userId, (m.liveIndex now userId).Nodup
  found : ∀ userId, ∀ s ∈ q.liveQueue now userId, ∃ session,
    m.sessions.lookup s.token = some session ∧ IsQueued session now userId s
  listed : m.Listed now

namespace Refines

variable {m : SessionManager} {q : SessionQueues} {now now2 : ℕ}

/-- The index of a user lists the tokens of his queue. -/
theorem mem_liveIndex_of_queued (h : m.Refines q now) {userId : String} {s : QueuedSession}
    (hs : s ∈ q.liveQueue now userId) : s.token ∈ m.liveIndex now userId := by
  rw [h.order]
  exact List.mem_map_of_mem hs

/-- The session of a live token in an index belongs to the index's user. -/
theorem user_of_mem (h : m.Refines q now) {userId t : String} {session : Session}
    (hmem : t ∈ m.liveIndex now userId) (hsession : m.sessions.lookup t = some session) :
    session.userId = userId := by
  rw [h.order] at hmem
  obtain ⟨s, hs, rfl⟩ := List.mem_map.mp hmem
  obtain ⟨session', hsession', hqueued⟩ := h.found userId s hs
  cases hsession.symm.trans hsession'
  exact hqueued.user

/-- A live session of the store stands in the queue of its user. -/
theorem queued_of_live (h : m.Refines q now) {t : String} {session : Session}
    (hsession : m.sessions.lookup t = some session) (hlive : session.live now = true) :
    ∃ s ∈ q.liveQueue now session.userId, s.token = t ∧ IsQueued session now session.userId s := by
  have hmem : t ∈ m.liveIndex now session.userId :=
    mem_liveIndex.mpr ⟨h.listed t session hsession hlive, isLive_iff.mpr ⟨_, hsession, hlive⟩⟩
  rw [h.order] at hmem
  obtain ⟨s, hs, rfl⟩ := List.mem_map.mp hmem
  obtain ⟨session', hsession', hqueued⟩ := h.found _ s hs
  cases hsession.symm.trans hsession'
  exact ⟨s, hs, rfl, hqueued⟩

/-- A token stands in one queue at most. -/
theorem user_unique (h : m.Refines q now) {userId userId' t : String}
    (hmem : t ∈ m.liveIndex now userId) (hmem' : t ∈ m.liveIndex now userId') :
    userId = userId' := by
  obtain ⟨session, hsession, _⟩ := isLive_iff.mp (mem_liveIndex.mp hmem).2
  exact (h.user_of_mem hmem hsession).symm.trans (h.user_of_mem hmem' hsession)

/-- The relation holds on while time passes. -/
theorem later (h : m.Refines q now) (hle : now ≤ now2) : m.Refines q now2 where
  cap := h.cap
  cap_pos := h.cap_pos
  order := by
    intro userId
    rw [m.liveIndex_later hle, q.liveQueue_later hle, h.order, List.filter_map]
    congr 1
    refine List.filter_congr fun s hs => ?_
    obtain ⟨session, hsession, hqueued⟩ := h.found userId s hs
    have hactive : session.active = true := by
      have := hqueued.live
      simp only [Session.live, Bool.and_eq_true] at this
      exact this.1
    simp [isLive, hsession, Session.live, hactive, QueuedSession.live, hqueued.expiresAt]
  nodup := by
    intro userId
    rw [m.liveIndex_later hle]
    exact (h.nodup userId).filter _
  found := by
    intro userId s hs
    rw [q.liveQueue_later hle] at hs
    obtain ⟨hs, hlive⟩ := List.mem_filter.mp hs
    obtain ⟨session, hsession, huser, hold, hip, hexpires⟩ := h.found userId s hs
    refine ⟨session, hsession, huser, ?_, hip, hexpires⟩
    simp only [Session.live, QueuedSession.live, Bool.and_eq_true, decide_eq_true_eq] at *
    exact ⟨hold.1, hexpires ▸ hlive⟩
  listed := h.listed.later hle

/-- An operation that removes the same sessions from the store and from the queues. -/
theorem remove (h : m.Refines q now) {m' : SessionManager} {p : QueuedSession → Bool}
    (hcap : m'.maxSessionsPerUser = m.maxSessionsPerUser)
    (horder : ∀ userId, m'.liveIndex now userId =
      ((q.liveQueue now userId).filter p).map (·.token))
    (hfound : ∀ userId, ∀ s ∈ q.liveQueue now userId, p s = true → ∀ session,
      m.sessions.lookup s.token = some session → ∃ session',
        m'.sessions.lookup s.token = some session' ∧ session'.userId = session.userId ∧
          session'.live now = session.live now ∧ session'.ip = session.ip ∧
            session'.expiresAt = session.expiresAt)
    (hlisted : m'.Listed now) : m'.Refines (q.keep p) now where
  cap := hcap.trans h.cap
  cap_pos := h.cap_pos
  order := by
    intro userId
    rw [SessionQueues.liveQueue_keep, horder]
  nodup := by
    intro userId
    rw [horder]
    refine List.Nodup.sublist (List.filter_sublist.map _) ?_
    rw [← h.order]
    exact h.nodup userId
  found := by
    intro userId s hs
    rw [SessionQueues.liveQueue_keep] at hs
    obtain ⟨hs, hp⟩ := List.mem_filter.mp hs
    obtain ⟨session, hsession, hqueued⟩ := h.found userId s hs
    obtain ⟨session', hsession', huser, hlive, hip, hexpires⟩ :=
      hfound userId s hs hp session hsession
    exact ⟨session', hsession', huser.trans hqueued.user, hlive.trans hqueued.live,
      hip.trans hqueued.ip, hexpires.trans hqueued.expiresAt⟩
  listed := hlisted

/-- Whether a request may pass is the same for a session and its place in the queue. -/
theorem foreign_eq {session : Session} {userId : String} {s : QueuedSession}
    (h : IsQueued session now userId s) (ip : Option String) :
    s.foreign ip = session.bindingViolated ip := by
  cases ip <;> simp [QueuedSession.foreign, Session.bindingViolated, h.ip]

/-- `invalidate` and the removal of the token's session. -/
theorem applyInvalidateToken (h : m.Refines q now) (hashed : String) :
    (m.applyInvalidateToken hashed).2.Refines (q.invalidate hashed) now := by
  refine h.remove (m.maxSessionsPerUser_applyInvalidateToken hashed) (fun userId => ?_)
    (fun userId s _ hs session hsession => ?_) (h.listed.applyInvalidateToken hashed)
  · rw [liveIndex_applyInvalidateToken, h.order, List.filter_map]
    rfl
  · have hne : s.token ≠ hashed := by simpa using hs
    exact ⟨session, by rw [lookup_applyInvalidateToken, if_neg hne, hsession], rfl, rfl, rfl,
      rfl⟩

/-- An operation that removes nothing from the store, where the queues lose no live session. -/
theorem keep_all (h : m.Refines q now) {p : QueuedSession → Bool}
    (hp : ∀ userId, ∀ s ∈ q.liveQueue now userId, p s = true) : m.Refines (q.keep p) now := by
  refine h.remove rfl (fun userId => ?_) (fun _ s _ _ session hsession => ?_) h.listed
  · rw [h.order, List.filter_eq_self.mpr (hp userId)]
  · exact ⟨session, hsession, rfl, rfl, rfl, rfl⟩

/-- The relation does not look at the table. -/
theorem persist (h : m.Refines q now) (hashed : String) (session : Session) :
    (m.persist hashed session).Refines q now :=
  ⟨h.cap, h.cap_pos, h.order, h.nodup, h.found, h.listed⟩

/-- What stands in a queue under a token is what the map holds under it. -/
theorem queued_of_lookup (h : m.Refines q now) {userId : String} {s : QueuedSession}
    (hs : s ∈ q.liveQueue now userId) {session : Session}
    (hsession : m.sessions.lookup s.token = some session) : IsQueued session now userId s := by
  obtain ⟨session', hsession', hqueued⟩ := h.found userId s hs
  cases hsession.symm.trans hsession'
  exact hqueued

/-- A token without a live session is not accepted, and a request with it removes nothing. -/
theorem refuse (h : m.Refines q now) (hashed : String)
    (hdead : ∀ session, m.sessions.lookup hashed = some session → session.live now = false)
    (ip : Option String) :
    (∀ userId, ¬ q.Accepts now userId hashed ip) ∧ m.Refines (q.validate hashed ip) now := by
  have habsent : ∀ userId, ∀ s ∈ q.liveQueue now userId, s.token ≠ hashed := by
    intro userId s hs heq
    obtain ⟨session, hsession, hqueued⟩ := h.found userId s hs
    have := hdead session (heq ▸ hsession)
    rw [hqueued.live] at this
    cases this
  refine ⟨?_, h.keep_all fun userId s hs => ?_⟩
  · rintro userId ⟨s, hs, heq, _⟩
    exact habsent userId s hs heq
  · simp [habsent userId s hs]

/-- A request from elsewhere removes the token's session. -/
theorem violated (h : m.Refines q now) {hashed : String} {old : Session}
    (hold : m.sessions.lookup hashed = some old) {ip : Option String}
    (hviolated : old.bindingViolated ip = true) :
    (∀ userId, ¬ q.Accepts now userId hashed ip) ∧
      (m.applyInvalidateToken hashed).2.Refines (q.validate hashed ip) now := by
  have hforeign : ∀ userId, ∀ s ∈ q.liveQueue now userId, s.token = hashed →
      s.foreign ip = true := by
    intro userId s hs heq
    rw [foreign_eq (h.queued_of_lookup hs (heq ▸ hold)), hviolated]
  have hsame : ∀ userId, ∀ s ∈ q.liveQueue now userId,
      (!(decide (s.token = hashed) && s.foreign ip)) = decide (s.token ≠ hashed) := by
    intro userId s hs
    by_cases heq : s.token = hashed
    · simp [heq, hforeign userId s hs heq]
    · simp [heq]
  refine ⟨?_, h.remove (m.maxSessionsPerUser_applyInvalidateToken hashed) (fun userId => ?_)
    (fun userId s hs hp session hsession => ?_) (h.listed.applyInvalidateToken hashed)⟩
  · rintro userId ⟨s, hs, heq, hnot⟩
    rw [hforeign userId s hs heq] at hnot
    cases hnot
  · rw [liveIndex_applyInvalidateToken, h.order, List.filter_map, List.filter_congr (hsame userId)]
    rfl
  · have hne : s.token ≠ hashed := by
      rw [hsame userId s hs] at hp
      simpa using hp
    exact ⟨session, by rw [lookup_applyInvalidateToken, if_neg hne, hsession], rfl, rfl, rfl,
      rfl⟩

/-- A request that passes is accepted for the session's user and removes nothing. -/
theorem accept (h : m.Refines q now) {hashed : String} {old : Session}
    (hold : m.sessions.lookup hashed = some old) (hlive : old.live now = true)
    {ip : Option String} (hbound : old.bindingViolated ip = false) :
    (∀ userId, old.userId = userId ↔ q.Accepts now userId hashed ip) ∧
      (m.checkSession now hashed ip).2.Refines (q.validate hashed ip) now := by
  have hpass : ∀ userId, ∀ s ∈ q.liveQueue now userId, s.token = hashed →
      s.foreign ip = false := by
    intro userId s hs heq
    rw [foreign_eq (h.queued_of_lookup hs (heq ▸ hold)), hbound]
  have hall : ∀ userId, ∀ s ∈ q.liveQueue now userId,
      (!(decide (s.token = hashed) && s.foreign ip)) = true := by
    intro userId s hs
    by_cases heq : s.token = hashed
    · simp [hpass userId s hs heq]
    · simp [heq]
  have hcap : (m.checkSession now hashed ip).2.maxSessionsPerUser = m.maxSessionsPerUser := by
    rcases m.checkSession_cases now hashed ip with
      ⟨-, hres⟩ | ⟨_, -, -, hres⟩ | ⟨_, -, -, -, hres⟩ | ⟨_, -, -, -, hres⟩ <;> rw [hres]
  refine ⟨fun userId => ⟨?_, ?_⟩, h.remove hcap (fun userId => ?_)
    (fun userId s hs hp session hsession => ?_) ?_⟩
  · rintro rfl
    obtain ⟨s, hs, htoken, _⟩ := h.queued_of_live hold hlive
    exact ⟨s, hs, htoken, hpass _ s hs htoken⟩
  · rintro ⟨s, hs, heq, _⟩
    exact (h.queued_of_lookup hs (heq ▸ hold)).user
  · rw [List.filter_eq_self.mpr (hall userId), ← h.order, liveIndex, index_checkSession]
    exact List.filter_congr fun t _ => m.isLive_checkSession now hashed ip now t
  · obtain ⟨f, hf⟩ := m.lookup_checkSession now hashed ip s.token
    exact ⟨{ session with lastActivity := f session }, by rw [hf, hsession]; rfl, rfl, rfl, rfl,
      rfl⟩
  · intro t session hsession hlive
    obtain ⟨f, hf⟩ := m.lookup_checkSession now hashed ip t
    rw [hf] at hsession
    obtain ⟨old, hold, rfl⟩ := Option.map_eq_some_iff.mp hsession
    rw [index_checkSession]
    exact h.listed t old hold hlive

/-- A validation accepts a token for a user exactly as the queues do, and removes the same
session if any. -/
theorem validateWithRequest (h : m.Refines q now) (hashToken : String → String) (token : String)
    (ip : Option String) :
    (∀ userId, (∃ session, (m.validateWithRequest hashToken now token ip).1 = some session ∧
        session.userId = userId) ↔ q.Accepts now userId (hashToken token) ip) ∧
      (m.validateWithRequest hashToken now token ip).2.Refines
        (q.validate (hashToken token) ip) now := by
  unfold SessionManager.validateWithRequest
  rcases m.checkSession_cases now (hashToken token) ip with
    ⟨hnone, hres⟩ | ⟨old, hold, hdead, hres⟩ | ⟨old, hold, hlive, hviolated, hres⟩ |
      ⟨old, hold, hlive, hbound, hres⟩
  · obtain ⟨hrefused, hrefines⟩ := h.refuse (hashToken token) (by simp [hnone]) ip
    simp only [hres]
    exact ⟨fun userId => ⟨by simp, fun haccept => absurd haccept (hrefused userId)⟩, hrefines⟩
  · obtain ⟨hrefused, hrefines⟩ := h.refuse (hashToken token)
      (fun session hsession => by cases hold.symm.trans hsession; exact hdead) ip
    simp only [hres]
    exact ⟨fun userId => ⟨by simp, fun haccept => absurd haccept (hrefused userId)⟩, hrefines⟩
  · obtain ⟨hrefused, hrefines⟩ := h.violated hold hviolated
    simp only [hres]
    exact ⟨fun userId => ⟨by simp, fun haccept => absurd haccept (hrefused userId)⟩, hrefines⟩
  · obtain ⟨haccept, hrefines⟩ := h.accept hold hlive hbound
    rw [hres] at hrefines
    simp only [hres]
    refine ⟨fun userId => ?_, ?_⟩
    · rw [← haccept userId]
      simp
    · split
      next => exact hrefines.persist _ _
      next => exact hrefines

/-- `invalidate_all` empties one queue. -/
theorem applyInvalidateUser (h : m.Refines q now) (userId : String) :
    (m.applyInvalidateUser userId).2.Refines (q.invalidateAll userId) now := by
  -- A live token of another user is not in this user's index.
  have hother : ∀ userId', userId' ≠ userId → ∀ t ∈ m.liveIndex now userId',
      t ∉ m.index userId := by
    intro userId' hne t ht hmem
    exact hne (h.user_unique ht (mem_liveIndex.mpr ⟨hmem, (mem_liveIndex.mp ht).2⟩))
  have hindex : ∀ userId', (m.applyInvalidateUser userId).2.liveIndex now userId' =
      if userId' = userId then [] else m.liveIndex now userId' := by
    intro userId'
    rw [liveIndex_applyInvalidateUser]
    split
    next => rfl
    next hne =>
      rw [List.filter_eq_self.mpr fun t ht => by simpa using hother userId' hne t ht]
  constructor
  case cap => exact (m.maxSessionsPerUser_applyInvalidateUser userId).trans h.cap
  case cap_pos => exact h.cap_pos
  case order =>
    intro userId'
    rw [hindex, SessionQueues.liveQueue_invalidateAll]
    split
    next => rfl
    next => exact h.order userId'
  case nodup =>
    intro userId'
    rw [hindex]
    split
    next => exact List.nodup_nil
    next => exact h.nodup userId'
  case found =>
    intro userId' s hs
    rw [SessionQueues.liveQueue_invalidateAll] at hs
    split at hs
    next => cases hs
    next hne =>
      obtain ⟨session, hsession, hqueued⟩ := h.found userId' s hs
      have hstays := hother userId' hne s.token (h.mem_liveIndex_of_queued hs)
      exact ⟨session, by rw [lookup_applyInvalidateUser, if_neg hstays, hsession], hqueued⟩
  case listed => exact h.listed.applyInvalidateUser userId

/-- `cleanup_expired` removes nothing that counts. -/
theorem cleanupExpired (h : m.Refines q now) : (m.cleanupExpired now).2.Refines q now where
  cap := (m.maxSessionsPerUser_cleanupExpired now).trans h.cap
  cap_pos := h.cap_pos
  order := fun userId => (m.liveIndex_cleanupExpired now userId).trans (h.order userId)
  nodup := fun userId => (m.liveIndex_cleanupExpired now userId).symm ▸ h.nodup userId
  found := by
    intro userId s hs
    obtain ⟨session, hsession, hqueued⟩ := h.found userId s hs
    refine ⟨session, ?_, hqueued⟩
    rw [SessionManager.cleanupExpired, lookup_foldl_cleanupOne, if_neg, hsession]
    -- What is removed is not live, and the session is.
    simp only [List.map_map, List.mem_map, List.mem_filter, Function.comp, not_exists, not_and]
    rintro ⟨k, session'⟩ ⟨hentry, hdead⟩ rfl
    have hlookup : m.sessions.lookup s.token = some session' := AList.mem_lookup_iff.mpr hentry
    cases hsession.symm.trans hlookup
    simp [hqueued.live] at hdead
  listed := h.listed.cleanupExpired

section Create

variable (hashToken : String → String) (token ip userAgent : String) (ttlSecs : ℕ)

/-- The index block of `create` keeps the tokens that the queue keeps. -/
theorem popFront_tokens (h : m.Refines q now2) (userId : String) (new : QueuedSession) :
    popFront m.maxSessionsPerUser (m.liveIndex now2 userId ++ [new.token]) =
      (popFront q.maxSessions (q.liveQueue now2 userId ++ [new])).map (·.token) := by
  simp [popFront, h.order, h.cap, List.map_drop]

/-- A queued token is not one that is listed nowhere. -/
theorem token_ne_of_fresh (h : m.Refines q now2) {hashed userId : String}
    (hfresh : hashed ∉ m.index userId) {s : QueuedSession} (hs : s ∈ q.liveQueue now2 userId) :
    s.token ≠ hashed := by
  intro heq
  have hmem := h.mem_liveIndex_of_queued hs
  exact hfresh (heq ▸ (mem_liveIndex.mp hmem).1)

/-- `create` evicts no token of another user. -/
theorem not_mem_evicted_of_ne (h : m.Refines q now2) {hashed userId userId' : String}
    (hfresh : ∀ userId, hashed ∉ m.index userId) (hne : userId' ≠ userId) {t : String}
    (ht : t ∈ m.liveIndex now2 userId') : t ∉ (m.indexNew now2 userId hashed).1 := by
  intro hevicted
  rw [(m.indexNew_of_not_mem now2 userId (hfresh userId)).1] at hevicted
  rcases List.mem_append.mp (List.mem_of_mem_take hevicted) with hmem | hmem
  · exact hne (h.user_unique ht hmem)
  · rw [List.mem_singleton.mp hmem] at ht
    exact hfresh userId' (mem_liveIndex.mp ht).1

/-- After `create` every index lists what the queue of its user holds. -/
theorem order_create (h : m.Refines q now2) (hfresh : ∀ userId', hashToken token ∉ m.index userId')
    (userId userId' : String) :
    (m.create hashToken now now2 userId token ip userAgent ttlSecs).2.liveIndex now2 userId' =
      ((q.create now2 userId ⟨hashToken token, ip, wrappingAdd now ttlSecs⟩).liveQueue now2
        userId').map (·.token) := by
  rw [SessionQueues.liveQueue_create]
  split
  next heq =>
    subst heq
    rw [m.liveIndex_create hashToken now now2 ttlSecs ip userAgent (hfresh userId')
      (h.nodup userId'), h.popFront_tokens userId' ⟨hashToken token, ip, wrappingAdd now ttlSecs⟩,
      List.filter_map]
    congr 1
    refine List.filter_congr fun s hs => ?_
    -- The kept sessions were live before; the new one is live unless it is created expired.
    rcases List.mem_append.mp (List.mem_of_mem_drop hs) with hmem | hmem
    · have hlive : s.live now2 = true := (List.mem_filter.mp hmem).2
      simp [h.token_ne_of_fresh (hfresh userId') hmem, hlive]
    · rw [List.mem_singleton.mp hmem]
      simp [QueuedSession.live]
  next hne =>
    rw [m.liveIndex_create_of_ne hashToken now now2 ttlSecs ip userAgent hne (hfresh userId')
      (fun t ht => h.not_mem_evicted_of_ne hfresh hne ht), h.order]

/-- After `create` no index lists a token twice. -/
theorem nodup_create (h : m.Refines q now2) (hfresh : ∀ userId', hashToken token ∉ m.index userId')
    (userId userId' : String) : ((m.create hashToken now now2 userId token ip userAgent
      ttlSecs).2.liveIndex now2 userId').Nodup := by
  by_cases heq : userId' = userId
  · subst heq
    rw [m.liveIndex_create hashToken now now2 ttlSecs ip userAgent (hfresh userId')
      (h.nodup userId')]
    have happend := m.nodup_liveIndex_append now2 userId' (hfresh userId') (h.nodup userId')
    exact ((List.drop_sublist _ _).nodup happend).filter _
  · rw [m.liveIndex_create_of_ne hashToken now now2 ttlSecs ip userAgent heq (hfresh userId')
      (fun t ht => h.not_mem_evicted_of_ne hfresh heq ht)]
    exact h.nodup userId'

/-- After `create` the map knows every session of the queues. -/
theorem found_create (h : m.Refines q now2) (hfresh : ∀ userId', hashToken token ∉ m.index userId')
    (userId userId' : String) {s : QueuedSession}
    (hs : s ∈ (q.create now2 userId ⟨hashToken token, ip, wrappingAdd now ttlSecs⟩).liveQueue now2
      userId') :
    ∃ session, (m.create hashToken now now2 userId token ip userAgent ttlSecs).2.sessions.lookup
      s.token = some session ∧ IsQueued session now2 userId' s := by
  rw [SessionQueues.liveQueue_create] at hs
  split at hs
  next heq =>
    subst heq
    obtain ⟨hstays, hlive⟩ := List.mem_filter.mp hs
    rcases List.mem_append.mp (List.mem_of_mem_drop hstays) with hmem | hmem
    · -- A session that stays is neither the new one nor among the evicted ones.
      obtain ⟨session, hsession, hqueued⟩ := h.found userId' s hmem
      have hkeep : s.token ∉ (m.indexNew now2 userId' (hashToken token)).1 := by
        refine m.not_mem_evicted now2 userId' (hfresh userId') (h.nodup userId') ?_
        rw [h.popFront_tokens userId' ⟨hashToken token, ip, wrappingAdd now ttlSecs⟩]
        exact List.mem_map_of_mem hstays
      exact ⟨session, by rw [lookup_create, if_neg (h.token_ne_of_fresh (hfresh userId') hmem),
        if_neg hkeep, hsession], hqueued⟩
    · obtain rfl := List.mem_singleton.mp hmem
      refine ⟨_, by rw [lookup_create, if_pos rfl], rfl, ?_, rfl, rfl⟩
      simp only [Session.live, Session.opened, Bool.true_and]
      exact hlive
  next hne =>
    obtain ⟨session, hsession, hqueued⟩ := h.found userId' s hs
    have hstays := h.not_mem_evicted_of_ne hfresh hne (h.mem_liveIndex_of_queued hs)
    exact ⟨session, by rw [lookup_create, if_neg (h.token_ne_of_fresh (hfresh userId') hs),
      if_neg hstays, hsession], hqueued⟩

/-- `create` pushes one session onto one queue and pops the same ones as the queue. -/
theorem create (h : m.Refines q now2) (hashToken : String → String) (userId token ip : String)
    (userAgent : String) (ttlSecs : ℕ) (hfresh : ∀ userId', hashToken token ∉ m.index userId') :
    (m.create hashToken now now2 userId token ip userAgent ttlSecs).2.Refines
      (q.create now2 userId ⟨hashToken token, ip, wrappingAdd now ttlSecs⟩) now2 where
  cap := (m.maxSessionsPerUser_create hashToken now now2 userId token ip userAgent
    ttlSecs).trans h.cap
  cap_pos := h.cap_pos
  order := h.order_create hashToken token ip userAgent ttlSecs hfresh userId
  nodup := h.nodup_create hashToken token ip userAgent ttlSecs hfresh userId
  found := fun userId' _ hs =>
    h.found_create hashToken token ip userAgent ttlSecs hfresh userId userId' hs
  listed := h.listed.create (h.cap ▸ h.cap_pos) _ _ _ _ _ _ _

end Create

/-- The sessions that `create` evicts are the ones that the queue pops. -/
theorem evicted_eq (h : m.Refines q now2) {userId hashed : String}
    (hfresh : hashed ∉ m.index userId) : (m.indexNew now2 userId hashed).1 =
      ((q.liveQueue now2 userId).map (·.token) ++ [hashed]).take
        ((q.liveQueue now2 userId).length + 1 - q.maxSessions) := by
  rw [(m.indexNew_of_not_mem now2 userId hfresh).1, h.order, h.cap]
  simp

end Refines

end SessionManager

end XiraNet

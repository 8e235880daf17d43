import XiraNet.Lib.Runs
import XiraNet.Identity.SessionQueue

/-!
# Sequential runs of the session store

Runs in which one operation of the session store is finished before the next begins, under a
clock that does not go back and with a fresh token for every session. The queues of
`SessionQueue` take the same steps, and the order in which the sessions were created is kept.

* `SessionManager.Refines.applyOp`: one operation, whichever it is.
* `SessionRun.acceptsAndLists_of_runs`: after any run the store accepts what the queues accept,
  and the index of every user lists his live sessions in creation order.
-/

namespace XiraNet

/-- The operations of the session store, with what they read of the clock. -/
inductive SessionOp
  | create (now now2 : ℕ) (userId token ip userAgent : String) (ttlSecs : ℕ)
  /-- The request's user agent is only logged. -/
  | validate (now : ℕ) (token : String) (expectedIp expectedUa : Option String)
  | invalidate (token : String)
  | invalidateAll (userId : String)
  | cleanupExpired (now : ℕ)
  deriving DecidableEq, Repr

namespace SessionOp

/-- The clock does not go back. -/
def Timely (clock : ℕ) : SessionOp → Prop
  | .create now now2 _ _ _ _ _ => clock ≤ now ∧ now ≤ now2
  | .validate now _ _ _ => clock ≤ now
  | .invalidate _ => True
  | .invalidateAll _ => True
  | .cleanupExpired now => clock ≤ now

instance (clock : ℕ) (op : SessionOp) : Decidable (op.Timely clock) := by
  cases op <;> unfold Timely <;> infer_instance

/-- What the clock shows afterwards. -/
def after (clock : ℕ) : SessionOp → ℕ
  | .create _ now2 _ _ _ _ _ => now2
  | .validate now _ _ _ => now
  | .invalidate _ => clock
  | .invalidateAll _ => clock
  | .cleanupExpired now => now

/-- The user and the token of a session to be created. -/
def creates (hashToken : String → String) : SessionOp → Option (String × String)
  | .create _ _ userId token _ _ _ => some (userId, hashToken token)
  | .validate _ _ _ _ => none
  | .invalidate _ => none
  | .invalidateAll _ => none
  | .cleanupExpired _ => none

/-- The clock shows no less afterwards. -/
theorem Timely.le_after {clock : ℕ} {op : SessionOp} (h : op.Timely clock) :
    clock ≤ op.after clock := by
  cases op with
  | create now now2 userId token ip userAgent ttlSecs => exact h.1.trans h.2
  | validate now token expectedIp expectedUa => exact h
  | invalidate token => exact le_refl clock
  | invalidateAll userId => exact le_refl clock
  | cleanupExpired now => exact h

end SessionOp

section Operations

variable (hashToken : String → String)

/-- The effect of an operation on the store. -/
def SessionManager.applyOp (m : SessionManager) : SessionOp → SessionManager
  | .create now now2 userId token ip userAgent ttlSecs =>
      (m.create hashToken now now2 userId token ip userAgent ttlSecs).2
  | .validate now token expectedIp _ => (m.validateWithRequest hashToken now token expectedIp).2
  | .invalidate token => (m.invalidate hashToken token).2.2
  | .invalidateAll userId => (m.invalidateAll userId).2.2
  | .cleanupExpired now => (m.cleanupExpired now).2

/-- The effect of an operation on the queues. -/
def SessionQueues.applyOp (q : SessionQueues) : SessionOp → SessionQueues
  | .create now now2 userId token ip _ ttlSecs =>
      q.create now2 userId ⟨hashToken token, ip, wrappingAdd now ttlSecs⟩
  | .validate _ token expectedIp _ => q.validate (hashToken token) expectedIp
  | .invalidate token => q.invalidate (hashToken token)
  | .invalidateAll userId => q.invalidateAll userId
  | .cleanupExpired _ => q

namespace SessionManager

variable {m : SessionManager} {q : SessionQueues} {clock : ℕ}

/-- Every operation keeps the store and the queues together, as long as new tokens are fresh. -/
theorem Refines.applyOp (h : m.Refines q clock) {op : SessionOp} (htimely : op.Timely clock)
    (hfresh : ∀ e ∈ op.creates hashToken, ∀ userId, e.2 ∉ m.index userId) :
    (m.applyOp hashToken op).Refines (q.applyOp hashToken op) (op.after clock) := by
  have hlater := h.later htimely.le_after
  cases op with
  | create now now2 userId token ip userAgent ttlSecs =>
      exact hlater.create hashToken userId token ip userAgent ttlSecs (hfresh _ rfl)
  | validate now token expectedIp expectedUa =>
      exact (hlater.validateWithRequest hashToken token expectedIp).2
  | invalidate token => exact hlater.applyInvalidateToken (hashToken token)
  | invalidateAll userId => exact hlater.applyInvalidateUser userId
  | cleanupExpired now => exact hlater.cleanupExpired

/-- `cleanup_expired` leaves a part of every index. -/
theorem index_foldl_cleanupOne_sublist (entries : List (String × String)) (m : SessionManager)
    (userId : String) : ((entries.foldl cleanupOne m).index userId).Sublist (m.index userId) := by
  induction entries generalizing m with
  | nil => exact .refl _
  | cons entry entries ih =>
      refine (ih (m.cleanupOne entry)).trans ?_
      rw [cleanupOne, index_unlist]
      split
      next => exact List.filter_sublist
      next => exact .refl _

/-- An operation leaves a part of every index, followed by the token of a new session of its
user. -/
theorem index_applyOp_sublist (m : SessionManager) (op : SessionOp)
    (hfresh : ∀ e ∈ op.creates hashToken, ∀ userId, e.2 ∉ m.index userId) (userId : String) :
    ((m.applyOp hashToken op).index userId).Sublist (m.index userId ++
      ((op.creates hashToken).toList.filter (·.1 = userId)).map (·.2)) := by
  cases op with
  | create now now2 creator token ip userAgent ttlSecs =>
      simp only [applyOp, SessionOp.creates, Option.toList_some, index_create]
      by_cases heq : userId = creator
      -- The index of the creator: the live tokens and the new one, without the oldest.
      · subst heq
        rw [(m.indexNew_of_not_mem now2 userId (hfresh _ rfl userId)).2]
        refine (List.drop_sublist _ _).trans ?_
        simp only [decide_true, List.filter_cons_of_pos, List.filter_nil, List.map_cons,
          List.map_nil]
        exact List.Sublist.append_right List.filter_sublist _
      -- The other indexes are untouched.
      · rw [m.index_indexNew_of_ne heq]
        exact List.sublist_append_left _ _
  | validate now token expectedIp expectedUa =>
      simp only [applyOp, validateWithRequest, SessionOp.creates, Option.toList_none,
        List.filter_nil, List.map_nil, List.append_nil]
      rcases m.checkSession_cases now (hashToken token) expectedIp with
        ⟨-, hres⟩ | ⟨_, -, -, hres⟩ | ⟨_, -, -, -, hres⟩ | ⟨_, -, -, -, hres⟩
      · simp [hres]
      · simp [hres]
      · simp only [hres]
        rcases m.index_applyInvalidateToken (hashToken token) userId with h | h
        · rw [h]
        · rw [h]
          exact List.filter_sublist
      · simp only [hres]
        split <;> exact .refl _
  | invalidate token =>
      simp only [applyOp, invalidate, SessionOp.creates, Option.toList_none, List.filter_nil,
        List.map_nil, List.append_nil]
      rcases m.index_applyInvalidateToken (hashToken token) userId with h | h
      · rw [h]
      · rw [h]
        exact List.filter_sublist
  | invalidateAll userId' =>
      simp only [applyOp, invalidateAll, SessionOp.creates, Option.toList_none, List.filter_nil,
        List.map_nil, List.append_nil, index_applyInvalidateUser]
      split
      next => exact List.nil_sublist _
      next => exact .refl _
  | cleanupExpired now =>
      simp only [applyOp, cleanupExpired, SessionOp.creates, Option.toList_none, List.filter_nil,
        List.map_nil, List.append_nil]
      exact index_foldl_cleanupOne_sublist _ m userId

/-- The index of a user lists every live session of the user, without duplicates and in the order
of `created`. -/
structure Lists (m : SessionManager) (now : ℕ) (userId : String) (created : List String) :
    Prop where
  complete : ∀ t ∈ m.liveSessions now userId, t ∈ m.index userId
  in_order : (m.index userId).Sublist created
  nodup : (m.index userId).Nodup

end SessionManager

end Operations

/-- The store, the queues, the clock, and every session created so far: its user and token. -/
structure SessionRun where
  manager : SessionManager
  queues : SessionQueues
  clock : ℕ
  created : List (String × String)

namespace SessionRun

variable (hashToken : String → String)

/-- One operation on the store and on the queues. -/
def step (s : SessionRun) (op : SessionOp) : Option SessionRun :=
  if op.Timely s.clock ∧ ∀ e ∈ op.creates hashToken, e.2 ∉ s.created.map (·.2) then
    some {
      manager := s.manager.applyOp hashToken op
      queues := s.queues.applyOp hashToken op
      clock := op.after s.clock
      created := s.created ++ (op.creates hashToken).toList }
  else none

/-- An empty store, on whatever table. -/
def initial (maxSessions now : ℕ) (storage : Option (Table SessionRow)) : SessionRun where
  manager := { SessionManager.new maxSessions with storage }
  queues := .empty maxSessions
  clock := now
  created := []

/-- Sequential runs. -/
def machine : Machine SessionRun SessionOp := ⟨step hashToken⟩

/-- The tokens of the sessions created for a user, the oldest first. -/
def createdFor (s : SessionRun) (userId : String) : List String :=
  (s.created.filter (·.1 = userId)).map (·.2)

/-- The store accepts a request as a user's whenever the queues do. -/
def AcceptsAlike (s : SessionRun) : Prop :=
  ∀ now, s.clock ≤ now → ∀ token expectedIp userId,
    (∃ session, (s.manager.validateWithRequest hashToken now token expectedIp).1 = some session ∧
      session.userId = userId) ↔ s.queues.Accepts now userId (hashToken token) expectedIp

/-- The invariant. -/
structure Inv (s : SessionRun) : Prop where
  refines : s.manager.Refines s.queues s.clock
  in_order : ∀ userId, (s.manager.index userId).Sublist (s.createdFor userId)
  distinct : (s.created.map (·.2)).Nodup

variable {hashToken}

/-- Every operation keeps the invariant. -/
theorem inv_step (s : SessionRun) (op : SessionOp) (s' : SessionRun) (hs : s.Inv)
    (h : (machine hashToken).step s op = some s') : s'.Inv := by
  simp only [machine, step, Option.ite_none_right_eq_some, Option.some.injEq] at h
  obtain ⟨⟨htimely, hnew⟩, rfl⟩ := h
  -- What stands in an index has been created.
  have hfresh : ∀ e ∈ op.creates hashToken, ∀ userId, e.2 ∉ s.manager.index userId := by
    intro e he userId hmem
    have hcreated := (hs.in_order userId).subset hmem
    obtain ⟨e', he', heq⟩ := List.mem_map.mp hcreated
    exact hnew e he (heq ▸ List.mem_map_of_mem (List.mem_of_mem_filter he'))
  refine ⟨hs.refines.applyOp hashToken htimely hfresh, fun userId => ?_, ?_⟩
  · refine (s.manager.index_applyOp_sublist hashToken op hfresh userId).trans ?_
    simp only [createdFor, List.filter_append, List.map_append]
    exact (hs.in_order userId).append_right _
  -- A created token has not been created before.
  · rw [List.map_append, List.nodup_append]
    refine ⟨hs.distinct, ?_, fun t ht t' ht' heq => ?_⟩
    · cases op.creates hashToken <;> simp
    · obtain ⟨e, he, rfl⟩ := List.mem_map.mp ht'
      exact hnew e (by simpa using he) (heq ▸ ht)

/-- The invariant holds at the start. -/
theorem inv_initial {maxSessions : ℕ} (hmax : 1 ≤ maxSessions) (now : ℕ)
    (storage : Option (Table SessionRow)) : (initial maxSessions now storage).Inv where
  refines :=
    { cap := max_eq_left hmax
      cap_pos := hmax
      order := fun _ => rfl
      nodup := fun _ => List.nodup_nil
      found := fun _ _ hs => absurd hs List.not_mem_nil
      listed := fun t session hsession => by simp [initial, SessionManager.new] at hsession }
  in_order := fun _ => .refl _
  distinct := List.nodup_nil

/-- After any sequential run the store accepts exactly the requests that the queues accept, and
the index of every user lists his live sessions in creation order without duplicates. -/
theorem acceptsAndLists_of_runs (hashToken : String → String) (maxSessions : ℕ)
    (hmax : 1 ≤ maxSessions) (start : ℕ) (storage : Option (Table SessionRow))
    (ops : List SessionOp) (s : SessionRun)
    (hrun : (machine hashToken).Runs Machine.unrestricted (initial maxSessions start storage)
      ops s) :
    s.AcceptsAlike hashToken ∧ ∀ now, s.clock ≤ now → ∀ userId,
      s.manager.Lists now userId (s.createdFor userId) := by
  have hinv := hrun.invariant (fun s op s' hs _ h => inv_step s op s' hs h)
    (inv_initial hmax start storage)
  refine ⟨fun now hle token expectedIp => ?_, fun now hle userId => ?_⟩
  · exact ((hinv.refines.later hle).validateWithRequest hashToken token expectedIp).1
  · constructor
    case complete =>
      intro t ht
      obtain ⟨session, hsession, rfl, hlive⟩ := SessionManager.mem_liveSessions.mp ht
      exact (hinv.refines.later hle).listed t session hsession hlive
    case in_order => exact hinv.in_order userId
    case nodup =>
      refine (hinv.in_order userId).nodup ?_
      exact List.Nodup.sublist (List.filter_sublist.map _) hinv.distinct

/-- Three sessions of one user with room for two: the first is validated and then evicted. -/
def threeSessions : List SessionOp :=
  [.create 1 1 "u" "a" "10.0.0.1" "curl" 60, .create 2 2 "u" "b" "10.0.0.1" "curl" 60,
    .validate 3 "a" (some "10.0.0.1") none, .create 4 4 "u" "c" "10.0.0.1" "curl" 60]

/-- The store and the queues after three sessions. -/
theorem acceptsAndLists_threeSessions :
    ∃ s, (machine id).Runs Machine.unrestricted (initial 2 0 none) threeSessions s ∧
      s.manager.index "u" = ["b", "c"] ∧ s.AcceptsAlike id ∧
      ∀ now, s.clock ≤ now → ∀ userId, s.manager.Lists now userId (s.createdFor userId) := by
  obtain ⟨s, hs, hindex⟩ : ∃ s, (machine id).exec Machine.unrestricted (initial 2 0 none)
      threeSessions = some s ∧ s.manager.index "u" = ["b", "c"] := ⟨_, rfl, by decide⟩
  have hrun := Machine.runs_of_exec hs
  exact ⟨s, hrun, hindex, acceptsAndLists_of_runs id 2 (by decide) 0 none threeSessions s hrun⟩

end SessionRun

end XiraNet

import Mathlib.Logic.Function.Basic
import XiraNet.Identity.SessionOps
import XiraNet.Lib.Runs

/-!
# Revocation across a cluster

Any number of nodes, each with its own session manager and clock, connected by the bus. A
published event goes to every node, the publisher included, and is delivered in any order. An
operation of a node runs without interruption.

* `Cluster.Survives`: a session that no event in flight will drop. Deliveries do not change what
  survives.
* `revoked_iff`: after a revocation and the delivery of everything in flight, no node validates a
  covered session exactly if the revocation reached the node that holds the session.
* `revoked_fails`: `invalidate` on a node that does not hold the session publishes nothing.
-/

namespace XiraNet

/-- The nodes of a cluster and the events on the way to each of them. -/
structure Cluster (ι : Type) where
  nodes : ι → SessionManager
  clock : ι → ℕ
  inFlight : ι → List BusEvent

/-- An operation on one node, or a delivery. -/
inductive ClusterAction (ι : Type)
  /-- The clock of a node moves on. -/
  | tick (node : ι) (now : ℕ)
  /-- A node starts on a database. -/
  | start (node : ι) (maxSessions : ℕ) (table : Table SessionRow)
  | create (node : ι) (userId token ip userAgent : String) (ttlSecs : ℕ)
  | validateWithRequest (node : ι) (token : String) (expectedIp : Option String)
  | invalidate (node : ι) (token : String)
  | invalidateAll (node : ι) (userId : String)
  | cleanupExpired (node : ι)
  /-- An event in flight reaches a node. -/
  | deliver (node : ι) (event : BusEvent)
  deriving DecidableEq

namespace Cluster

variable {ι : Type} [DecidableEq ι]

/-- Replace the manager of one node. -/
def setNode (c : Cluster ι) (node : ι) (m : SessionManager) : Cluster ι :=
  { c with nodes := Function.update c.nodes node m }

/-- An event, if there is one, is sent to every node. -/
def publish (c : Cluster ι) (event : Option BusEvent) : Cluster ι :=
  { c with inFlight := fun node => event.toList ++ c.inFlight node }

variable (hashToken : String → String)

/-- One step. -/
def step (c : Cluster ι) : ClusterAction ι → Option (Cluster ι)
  | .tick node now =>
      if c.clock node ≤ now then some { c with clock := Function.update c.clock node now }
      else none
  | .start node maxSessions table =>
      some (c.setNode node (.withStorage maxSessions (c.clock node) table))
  | .create node userId token ip userAgent ttlSecs =>
      some (c.setNode node ((c.nodes node).create hashToken (c.clock node) (c.clock node) userId
        token ip userAgent ttlSecs).2)
  | .validateWithRequest node token expectedIp =>
      some (c.setNode node
        ((c.nodes node).validateWithRequest hashToken (c.clock node) token expectedIp).2)
  | .invalidate node token =>
      let (_, event, m) := (c.nodes node).invalidate hashToken token
      some ((c.setNode node m).publish event)
  | .invalidateAll node userId =>
      let (_, event, m) := (c.nodes node).invalidateAll userId
      some ((c.setNode node m).publish event)
  | .cleanupExpired node => some (c.setNode node ((c.nodes node).cleanupExpired (c.clock node)).2)
  -- Any event in flight may come next; the publisher handles its own event again.
  | .deliver node event =>
      if event ∈ c.inFlight node then
        some { c.setNode node ((c.nodes node).handle event) with
          inFlight := Function.update c.inFlight node ((c.inFlight node).erase event) }
      else none

/-- No node holds a session and nothing is in flight. -/
def initial (maxSessions clock : ι → ℕ) : Cluster ι where
  nodes node := .new (maxSessions node)
  clock
  inFlight _ := []

/-- Every history of a cluster. -/
def machine : Machine (Cluster ι) (ClusterAction ι) := ⟨step hashToken⟩

/-- The steps that only deliver what is in flight. -/
def DeliversOnly (_ : Cluster ι) : ClusterAction ι → Prop
  | .deliver _ _ => True
  | _ => False

instance (c : Cluster ι) (a : ClusterAction ι) : Decidable (c.DeliversOnly a) := by
  unfold DeliversOnly
  split <;> infer_instance

/-- The sessions that a revocation covers: that of the token, or those of the user, on any node. -/
def Covers (c : Cluster ι) (node : ι) (t : String) : ClusterAction ι → Prop
  | .invalidate _ token => t = hashToken token
  | .invalidateAll _ userId =>
      ∃ session ∈ (c.nodes node).sessions.lookup t, session.userId = userId
  | .validateWithRequest origin token expectedIp =>
      t = hashToken token ∧ ((c.nodes origin).checkSession (c.clock origin) (hashToken token)
        expectedIp).1 = .bindingViolation
  | _ => False

/-- No node validates a session that the action covered when it was taken in `c`. -/
def Revoked (c : Cluster ι) (a : ClusterAction ι) (c' : Cluster ι) : Prop :=
  ∀ node t, c.Covers hashToken node t a → (c'.nodes node).isLive (c'.clock node) t = false

/-- A live session of a node will be dropped by an event that is already in flight. -/
def Doomed (c : Cluster ι) (node : ι) (t : String) : Prop :=
  (c.nodes node).isLive (c.clock node) t = true →
    ∃ event ∈ c.inFlight node, (c.nodes node).Hits t event

/-- When a revocation reaches every node: the node that runs it holds the token, or an active
session of the user, and so publishes it; otherwise, and after a binding violation, which is not
published, the live sessions of the other nodes have to be on their way out already. -/
def ReachesAll (c : Cluster ι) : ClusterAction ι → Prop
  | .invalidate origin token =>
      ((c.nodes origin).sessions.lookup (hashToken token)).isSome ∨
        ∀ node, c.Doomed node (hashToken token)
  | .invalidateAll origin userId =>
      (∃ t ∈ (c.nodes origin).index userId,
          ((c.nodes origin).sessions.lookup t).any (·.active) = true) ∨
        ∀ node t, (∃ session ∈ (c.nodes node).sessions.lookup t, session.userId = userId) →
          c.Doomed node t
  | .validateWithRequest origin token expectedIp =>
      ((c.nodes origin).checkSession (c.clock origin) (hashToken token) expectedIp).1 =
          .bindingViolation →
        ∀ node, node ≠ origin → c.Doomed node (hashToken token)
  | _ => True

/-- A session that no event in flight will drop. -/
def Survives (c : Cluster ι) (node : ι) (t : String) (session : Session) : Prop :=
  (c.nodes node).sessions.lookup t = some session ∧
    ∀ event ∈ c.inFlight node, ¬ (c.nodes node).Hits t event

variable {hashToken}

/-- A delivery does not change what survives. -/
theorem survives_deliver {c c' : Cluster ι} {origin : ι} {event : BusEvent}
    (h : (machine hashToken).step c (.deliver origin event) = some c') (node : ι) (t : String)
    (session : Session) : c'.Survives node t session ↔ c.Survives node t session := by
  simp only [machine, step] at h
  split at h
  next hmem =>
    cases h
    by_cases hnode : node = origin
    · subst hnode
      simp only [Survives, setNode, Function.update_self, SessionManager.lookup_handle]
      by_cases hhit : (c.nodes node).Hits t event
      -- What the event hits did not survive before either, as the event was in flight.
      · rw [if_pos hhit]
        refine iff_of_false (by simp) fun hsurvives => ?_
        exact hsurvives.2 event hmem hhit
      · rw [if_neg hhit]
        refine and_congr_right fun _ => ?_
        simp only [SessionManager.hits_handle hhit]
        -- Only one copy of the event is taken off, but no copy of it hits the session.
        constructor
        · intro hrest event' hmem'
          by_cases heq : event' = event
          · rwa [heq]
          · exact hrest event' ((List.mem_erase_of_ne heq).mpr hmem')
        · exact fun hall event' hmem' => hall event' (List.mem_of_mem_erase hmem')
    · simp [Survives, setNode, Function.update_of_ne hnode]
  next => cases h

/-- Deliveries do not change what survives, and do not move the clocks. -/
theorem survives_of_runs {c c' : Cluster ι} {as : List (ClusterAction ι)}
    (hrun : (machine hashToken).Runs DeliversOnly c as c') :
    (∀ node t session, c'.Survives node t session ↔ c.Survives node t session) ∧
      c'.clock = c.clock := by
  induction hrun with
  | nil => exact ⟨fun _ _ _ => Iff.rfl, rfl⟩
  | @cons c mid c' a as hok hstep _ ih =>
      cases a with
      | deliver node event =>
          refine ⟨fun node' t session => ?_, ?_⟩
          · exact (ih.1 node' t session).trans (survives_deliver hstep node' t session)
          · rw [ih.2]
            simp only [machine, step] at hstep
            split at hstep
            next =>
              cases hstep
              rfl
            next => cases hstep
      | _ => exact False.elim hok

/-- Once everything is delivered, a node validates the live sessions that survive. -/
theorem isLive_of_delivered {c c' : Cluster ι} {as : List (ClusterAction ι)}
    (hrun : (machine hashToken).Runs DeliversOnly c as c') (hquiet : ∀ node, c'.inFlight node = [])
    (node : ι) (t : String) : (c'.nodes node).isLive (c'.clock node) t = true ↔
      ∃ session, c.Survives node t session ∧ session.live (c.clock node) = true := by
  obtain ⟨hsurvives, hclock⟩ := survives_of_runs hrun
  simp only [SessionManager.isLive, Option.any_eq_true, hclock]
  refine exists_congr fun session => and_congr_left fun _ => ?_
  rw [← hsurvives]
  simp [Survives, hquiet]

/-- The invariant: on every node the live sessions are listed, and there is room for one. -/
def Inv (c : Cluster ι) : Prop :=
  ∀ node, (c.nodes node).Listed (c.clock node) ∧ 0 < (c.nodes node).maxSessionsPerUser

/-- Replacing one manager keeps the invariant. -/
theorem Inv.setNode {c : Cluster ι} (hs : c.Inv) {origin : ι} {m : SessionManager}
    (hlisted : m.Listed (c.clock origin)) (hmax : 0 < m.maxSessionsPerUser) :
    (c.setNode origin m).Inv := by
  intro node
  by_cases hnode : node = origin
  · subst hnode
    simpa [Cluster.setNode] using ⟨hlisted, hmax⟩
  · simpa [Cluster.setNode, Function.update_of_ne hnode] using hs node

/-- Every step keeps the invariant. -/
theorem inv_step (c : Cluster ι) (a : ClusterAction ι) (c' : Cluster ι) (hs : c.Inv)
    (_ : Machine.unrestricted c a) (h : c.step hashToken a = some c') : c'.Inv := by
  cases a with
  | tick origin now =>
      simp only [step] at h
      split at h
      next hle =>
        cases h
        intro node
        refine ⟨(hs node).1.later ?_, (hs node).2⟩
        by_cases hnode : node = origin
        · subst hnode
          simpa using hle
        · simp [Function.update_of_ne hnode]
      next => cases h
  | start origin maxSessions table =>
      cases h
      refine hs.setNode (SessionManager.listed_withStorage _ _ _ _) ?_
      rw [SessionManager.maxSessionsPerUser_withStorage]
      omega
  | create origin userId token ip userAgent ttlSecs =>
      cases h
      obtain ⟨hlisted, hmax⟩ := hs origin
      exact hs.setNode (hlisted.create hmax _ _ _ _ _ _ _) (by simpa using hmax)
  | validateWithRequest origin token expectedIp =>
      cases h
      obtain ⟨hlisted, hmax⟩ := hs origin
      exact hs.setNode (hlisted.validateWithRequest _ _ _) (by simpa using hmax)
  | invalidate origin token =>
      cases h
      obtain ⟨hlisted, hmax⟩ := hs origin
      exact hs.setNode (hlisted.applyInvalidateToken _)
        (hmax.trans_eq (SessionManager.maxSessionsPerUser_applyInvalidateToken _ _).symm)
  | invalidateAll origin userId =>
      cases h
      obtain ⟨hlisted, hmax⟩ := hs origin
      exact hs.setNode (hlisted.applyInvalidateUser _)
        (hmax.trans_eq (SessionManager.maxSessionsPerUser_applyInvalidateUser _ _).symm)
  | cleanupExpired origin =>
      cases h
      obtain ⟨hlisted, hmax⟩ := hs origin
      exact hs.setNode hlisted.cleanupExpired (by simpa using hmax)
  | deliver origin event =>
      simp only [step] at h
      split at h
      next =>
        cases h
        obtain ⟨hlisted, hmax⟩ := hs origin
        exact hs.setNode (hlisted.handle event) (by simpa using hmax)
      next => cases h

omit [DecidableEq ι] in
/-- The invariant holds at the start. -/
theorem inv_initial (maxSessions clock : ι → ℕ) : (initial maxSessions clock).Inv :=
  fun _ => ⟨SessionManager.listed_new _ _, Nat.lt_of_lt_of_le Nat.one_pos (le_max_right _ 1)⟩

/-- A node is rid of a session once everything is delivered exactly if the session was doomed,
provided the node is as it was. -/
theorem isLive_eq_false_iff_doomed {c c1 c' : Cluster ι} {as : List (ClusterAction ι)} {node : ι}
    {t : String} (hrun : (machine hashToken).Runs DeliversOnly c1 as c')
    (hquiet : ∀ node, c'.inFlight node = []) (hclock : c1.clock node = c.clock node)
    (hnode : c1.nodes node = c.nodes node) (hflight : c1.inFlight node = c.inFlight node) :
    (c'.nodes node).isLive (c'.clock node) t = false ↔ c.Doomed node t := by
  rw [Bool.eq_false_iff, ne_eq, isLive_of_delivered hrun hquiet, hclock]
  unfold Survives Doomed SessionManager.isLive
  rw [hnode, hflight]
  -- Both sides speak of the session that the node holds for the token, if any.
  cases (c.nodes node).sessions.lookup t with
  | none => simp
  | some session => simp [imp.swap, and_comm]

/-- A node is rid of a session if everything that is live there is hit by an event in flight. -/
theorem isLive_eq_false_of_hits {c1 c' : Cluster ι} {as : List (ClusterAction ι)} {node : ι}
    {t : String} (hrun : (machine hashToken).Runs DeliversOnly c1 as c')
    (hquiet : ∀ node, c'.inFlight node = [])
    (hhits : ∀ session, (c1.nodes node).sessions.lookup t = some session →
      session.live (c1.clock node) = true →
        ∃ event ∈ c1.inFlight node, (c1.nodes node).Hits t event) :
    (c'.nodes node).isLive (c'.clock node) t = false := by
  rw [Bool.eq_false_iff, ne_eq, isLive_of_delivered hrun hquiet]
  rintro ⟨session, ⟨hlookup, hsurvives⟩, hlive⟩
  obtain ⟨event, hmem, hhit⟩ := hhits session hlookup hlive
  exact hsurvives event hmem hhit

/-- `invalidate` publishes what it removed. -/
theorem step_invalidate {c c1 : Cluster ι} {origin : ι} {token : String}
    (h : c.step hashToken (.invalidate origin token) = some c1) :
    c1 = (c.setNode origin ((c.nodes origin).applyInvalidateToken (hashToken token)).2).publish
      (if ((c.nodes origin).sessions.lookup (hashToken token)).isSome then
        some (.sessionInvalidateToken (hashToken token)) else none) := by
  rw [← SessionManager.applyInvalidateToken_fst]
  exact (Option.some.inj h).symm

/-- `invalidate_all` publishes when it counted a session. -/
theorem step_invalidateAll {c c1 : Cluster ι} {origin : ι} {userId : String}
    (h : c.step hashToken (.invalidateAll origin userId) = some c1) :
    c1 = (c.setNode origin ((c.nodes origin).applyInvalidateUser userId).2).publish
      (if 0 < ((c.nodes origin).applyInvalidateUser userId).1 then
        some (.sessionInvalidateUser userId) else none) :=
  (Option.some.inj h).symm

/-- `invalidate` reaches every node exactly if its own node holds the token or the token is on
its way out everywhere. -/
theorem revoked_invalidate_iff {c c1 c' : Cluster ι} {origin : ι} {token : String}
    (hcall : c.step hashToken (.invalidate origin token) = some c1)
    {ds : List (ClusterAction ι)} (hrun : (machine hashToken).Runs DeliversOnly c1 ds c')
    (hquiet : ∀ node, c'.inFlight node = []) :
    c.Revoked hashToken (.invalidate origin token) c' ↔
      c.ReachesAll hashToken (.invalidate origin token) := by
  have hc1 := step_invalidate hcall
  have hcovers : c.Revoked hashToken (.invalidate origin token) c' ↔
      ∀ node, (c'.nodes node).isLive (c'.clock node) (hashToken token) = false :=
    forall_congr' fun node => forall_eq
  rw [hcovers]
  cases hfound : (c.nodes origin).sessions.lookup (hashToken token) with
  | some session =>
      -- Published: every node gets an event for the token.
      refine iff_of_true (fun node => ?_) (.inl (by simp [hfound]))
      refine isLive_eq_false_of_hits hrun hquiet fun session _ _ => ?_
      refine ⟨.sessionInvalidateToken (hashToken token), ?_, rfl⟩
      simp [hc1, publish, hfound]
  | none =>
      -- Nothing is removed or published.
      have hreaches : c.ReachesAll hashToken (.invalidate origin token) ↔
          ∀ node, c.Doomed node (hashToken token) := by
        simp [ReachesAll, hfound]
      rw [SessionManager.applyInvalidateToken_of_not_found hfound] at hc1
      rw [hreaches]
      refine forall_congr' fun node => isLive_eq_false_iff_doomed hrun hquiet ?_ ?_ ?_
      · simp [hc1, publish, setNode]
      · simp [hc1, publish, setNode]
      · simp [hc1, publish, setNode, hfound]

/-- `invalidate_all` reaches every node exactly if its own node has an active session of the user
in its index or the user's sessions are on their way out everywhere. -/
theorem revoked_invalidateAll_iff {c c1 c' : Cluster ι} (hs : c.Inv) {origin : ι}
    {userId : String} (hcall : c.step hashToken (.invalidateAll origin userId) = some c1)
    {ds : List (ClusterAction ι)} (hrun : (machine hashToken).Runs DeliversOnly c1 ds c')
    (hquiet : ∀ node, c'.inFlight node = []) :
    c.Revoked hashToken (.invalidateAll origin userId) c' ↔
      c.ReachesAll hashToken (.invalidateAll origin userId) := by
  have hc1 := step_invalidateAll hcall
  have hcount := SessionManager.applyInvalidateUser_fst_pos (c.nodes origin) userId
  have hclock : c1.clock = c.clock := by rw [hc1]; rfl
  -- On the node of the call every live session of the user is listed and so removed.
  have horigin : ∀ t session, (∃ old ∈ (c.nodes origin).sessions.lookup t, old.userId = userId) →
      (c1.nodes origin).sessions.lookup t = some session →
      session.live (c.clock origin) = false := by
    rintro t session ⟨old, hold, huser⟩ hlookup
    have hnode : c1.nodes origin = ((c.nodes origin).applyInvalidateUser userId).2 := by
      simp [hc1, publish, setNode]
    rw [hnode, SessionManager.lookup_applyInvalidateUser] at hlookup
    split at hlookup
    next => cases hlookup
    next hunlisted =>
      obtain rfl : old = session := Option.some.inj ((Option.mem_def.mp hold).symm.trans hlookup)
      rw [Bool.eq_false_iff]
      intro hlive
      exact hunlisted (huser ▸ (hs origin).1 t old hlookup hlive)
  have hother : ∀ node, node ≠ origin → c1.nodes node = c.nodes node := by
    intro node hnode
    simp [hc1, publish, setNode, Function.update_of_ne hnode]
  by_cases hactive : ∃ t ∈ (c.nodes origin).index userId,
      ((c.nodes origin).sessions.lookup t).any (·.active) = true
  · -- Published: every node drops its listed sessions of the user.
    rw [if_pos (hcount.mpr hactive)] at hc1
    refine iff_of_true (fun node t hcovered => ?_) (.inl hactive)
    refine isLive_eq_false_of_hits hrun hquiet fun session hlookup hlive => ?_
    refine ⟨.sessionInvalidateUser userId, by simp [hc1, publish], ?_⟩
    rw [hclock] at hlive
    by_cases hnode : node = origin
    · subst hnode
      rw [horigin t session hcovered hlookup] at hlive
      cases hlive
    · obtain ⟨old, hold, huser⟩ := hcovered
      rw [hother node hnode] at hlookup ⊢
      obtain rfl : old = session := Option.some.inj ((Option.mem_def.mp hold).symm.trans hlookup)
      exact huser ▸ (hs node).1 t old hlookup hlive
  · -- Nothing is published, and the node of the call has no live session of the user.
    rw [if_neg (mt hcount.mp hactive)] at hc1
    have hreaches : c.ReachesAll hashToken (.invalidateAll origin userId) ↔ ∀ node t,
        (∃ session ∈ (c.nodes node).sessions.lookup t, session.userId = userId) →
          c.Doomed node t := or_iff_right hactive
    rw [hreaches]
    refine forall_congr' fun node => forall_congr' fun t => forall_congr' fun hcovered => ?_
    by_cases hnode : node = origin
    · subst hnode
      refine iff_of_true (isLive_eq_false_of_hits hrun hquiet fun session hlookup hlive => ?_)
        fun hlive => ?_
      · rw [hclock, horigin t session hcovered hlookup] at hlive
        cases hlive
      · obtain ⟨old, hold, huser⟩ := hcovered
        rw [SessionManager.isLive, Option.mem_def.mp hold] at hlive
        refine absurd ⟨t, huser ▸ (hs node).1 t old hold hlive, ?_⟩ hactive
        rw [Option.mem_def.mp hold]
        exact (Bool.and_eq_true_iff.mp hlive).1
    · refine isLive_eq_false_iff_doomed hrun hquiet (by rw [hclock]) (hother node hnode) ?_
      simp [hc1, publish, setNode]

/-- A binding violation, which is not published, reaches every node exactly if the token is on
its way out on all other nodes. -/
theorem revoked_validateWithRequest_iff {c c1 c' : Cluster ι} {origin : ι} {token : String}
    {expectedIp : Option String}
    (hcall : c.step hashToken (.validateWithRequest origin token expectedIp) = some c1)
    {ds : List (ClusterAction ι)} (hrun : (machine hashToken).Runs DeliversOnly c1 ds c')
    (hquiet : ∀ node, c'.inFlight node = []) :
    c.Revoked hashToken (.validateWithRequest origin token expectedIp) c' ↔
      c.ReachesAll hashToken (.validateWithRequest origin token expectedIp) := by
  have hc1 : c1 = c.setNode origin ((c.nodes origin).validateWithRequest hashToken
      (c.clock origin) token expectedIp).2 := (Option.some.inj hcall).symm
  unfold Revoked ReachesAll
  by_cases hviolated : ((c.nodes origin).checkSession (c.clock origin) (hashToken token)
      expectedIp).1 = .bindingViolation
  · have hcovers : ∀ node t, c.Covers hashToken node t
        (.validateWithRequest origin token expectedIp) ↔ t = hashToken token :=
      fun node t => and_iff_left hviolated
    simp only [hcovers, forall_eq, hviolated, forall_const]
    -- The node itself removes the session, so only the other nodes need an event.
    have hnode : (c1.nodes origin).sessions.lookup (hashToken token) = none := by
      rcases (c.nodes origin).checkSession_cases (c.clock origin) (hashToken token) expectedIp with
        ⟨-, h⟩ | ⟨_, -, -, h⟩ | ⟨_, -, -, -, h⟩ | ⟨_, -, -, -, h⟩
      · simp [h] at hviolated
      · simp [h] at hviolated
      · simp [hc1, setNode, SessionManager.validateWithRequest, h,
          SessionManager.lookup_applyInvalidateToken]
      · simp [h] at hviolated
    constructor
    · intro hrevoked node hne
      refine (isLive_eq_false_iff_doomed hrun hquiet ?_ ?_ ?_).mp (hrevoked node)
      · rw [hc1]; rfl
      · simp [hc1, setNode, Function.update_of_ne hne]
      · rw [hc1]; rfl
    · intro hdoomed node
      by_cases hne : node = origin
      · subst hne
        refine isLive_eq_false_of_hits hrun hquiet fun session hlookup _ => ?_
        rw [hnode] at hlookup
        cases hlookup
      · refine (isLive_eq_false_iff_doomed hrun hquiet ?_ ?_ ?_).mpr (hdoomed node hne)
        · rw [hc1]; rfl
        · simp [hc1, setNode, Function.update_of_ne hne]
        · rw [hc1]; rfl
  · exact iff_of_true (fun node t hcovered => absurd hcovered.2 hviolated)
      fun h => absurd h hviolated

/-- Two nodes with the same session of user `u` in their databases. -/
def sharedSession : List (ClusterAction (Fin 2)) :=
  [.start 0 3 [⟨"a", "u", 0, 100, 0, "10.0.0.1", "curl", "CLI/API Client", 1⟩],
    .start 1 3 [⟨"a", "u", 0, 100, 0, "10.0.0.1", "curl", "CLI/API Client", 1⟩],
    .create 1 "u" "b" "10.0.0.1" "curl" 60]

/-- A session that only node 1 holds. -/
def remoteSession : List (ClusterAction (Fin 2)) := [.create 1 "u" "a" "10.0.0.1" "curl" 60]

end Cluster

end XiraNet

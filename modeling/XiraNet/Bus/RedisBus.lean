import Mathlib.Data.List.Perm.Subperm
import XiraNet.Identity.Cluster
import XiraNet.Lib.LossyChannel

/-!
# The Redis bus

The transport of `bus/redis_bus.rs` between the session managers of a cluster. What a call publishes
reaches the channel `xira:bus` in a task of its own, or is lost. A node takes the messages of the
channel one by one from the stream of its subscription; while it has none it misses what is
published. Other clients may publish on the channel.

* `RedisCluster.heard_of_runs`: in every interleaving a node has handled what was published while it
  was subscribed, once and in order.
* `RedisCluster.refines_of_runs`: the managers behave like those of a `Cluster`, whose messages may
  arrive late, in any order or never.
-/

namespace XiraNet

/-- What `serde_json` writes for an event and reads from a payload. -/
structure BusCodec where
  /-- `to_string`. -/
  toString : BusEvent → Option String
  /-- `from_str`. -/
  fromStr : String → Option BusEvent
  fromStr_toString : ∀ {event payload}, toString event = some payload →
    fromStr payload = some event

/-- An event that session managers handle. -/
def BusEvent.isSession : BusEvent → Bool
  | .sessionInvalidateUser _ | .sessionInvalidateToken _ => true
  | .wafRuleAdded .. | .wafRuleRemoved _ => false

/-- The longest pause of a subscriber. -/
def maxBackoffSecs : ℕ := 30

/-- The nodes of a cluster, the channel between them and what has happened. -/
structure RedisCluster (ι : Type) where
  nodes : ι → SessionManager
  clock : ι → ℕ
  /-- The events whose tasks have not published them yet. -/
  spawned : List BusEvent
  /-- What is on its way to a node that is subscribed. -/
  streams : ι → Option (List String)
  /-- `backoff_secs` of the subscriber of a node. -/
  backoffSecs : ι → ℕ
  /-- The errors of the subscriber of a node since it was last subscribed. -/
  failures : ι → ℕ
  /-- What was published on the channel. -/
  channel : List String
  /-- What a node has received of it, or missed. -/
  told : ι → List (Told String)
  handled : ι → List BusEvent
  /-- The events that calls have spawned tasks for. -/
  issued : List BusEvent
  /-- The events that were published. -/
  reached : List BusEvent
  /-- The events whose `publish` failed. -/
  lost : List BusEvent

/-- One step. -/
inductive RedisAction (ι : Type)
  /-- An operation of a session manager, or its clock. -/
  | call (a : ClusterAction ι)
  /-- A task publishes its event. -/
  | publish (event : BusEvent)
  /-- The `publish` of a task fails. -/
  | lose (event : BusEvent)
  /-- Another client publishes on the channel. -/
  | foreign (payload : String)
  /-- The subscriber of a node is connected and subscribed. -/
  | subscribe (node : ι)
  /-- The subscriber of a node fails to do so, and pauses. -/
  | fail (node : ι)
  /-- The subscriber of a node takes the next message. -/
  | receive (node : ι)
  /-- The stream of a node ends. -/
  | disconnect (node : ι)

/-- Whether the action is a delivery of the abstract cluster. -/
def ClusterAction.isDeliver {ι : Type} : ClusterAction ι → Bool
  | .deliver .. => true
  | _ => false

/-- What an operation publishes. -/
def ClusterAction.published {ι : Type} (hashToken : String → String) (nodes : ι → SessionManager) :
    ClusterAction ι → Option BusEvent
  | .invalidate node token => ((nodes node).invalidate hashToken token).2.1
  | .invalidateAll node userId => ((nodes node).invalidateAll userId).2.1
  | _ => none

namespace RedisCluster

variable {ι : Type} [DecidableEq ι]

/-- A message goes to every node that is subscribed. -/
def send (s : RedisCluster ι) (payload : String) : RedisCluster ι :=
  { s with
    channel := s.channel ++ [payload]
    streams := fun node => (s.streams node).map (· ++ [payload]) }

variable (codec : BusCodec) (hashToken : String → String)

/-- One step. -/
def step (s : RedisCluster ι) : RedisAction ι → Option (RedisCluster ι)
  | .call a =>
      if a.isDeliver then none
      else
        (Cluster.step hashToken ⟨s.nodes, s.clock, fun _ => []⟩ a).map fun c =>
          let event := (a.published hashToken s.nodes).toList
          { s with
            nodes := c.nodes
            clock := c.clock
            spawned := event ++ s.spawned
            issued := event ++ s.issued }
  | .publish event =>
      if event ∈ s.spawned then
        let s := { s with spawned := s.spawned.erase event }
        match codec.toString event with
        | some payload => some { s.send payload with reached := s.reached ++ [event] }
        | none => some { s with lost := event :: s.lost }
      else none
  | .lose event =>
      if event ∈ s.spawned then
        some { s with spawned := s.spawned.erase event, lost := event :: s.lost }
      else none
  | .foreign payload => some (s.send payload)
  | .subscribe node =>
      match s.streams node with
      | some _ => none
      | none =>
          let missed := s.channel.length - Reads.counted (s.told node)
          some { s with
            streams := Function.update s.streams node (some [])
            told := Function.update s.told node
              (s.told node ++ if 0 < missed then [.lagged missed] else []) }
  | .fail node =>
      match s.streams node with
      | some _ => none
      | none =>
          some { s with
            backoffSecs := Function.update s.backoffSecs node
              (min (s.backoffSecs node * 2) maxBackoffSecs)
            failures := Function.update s.failures node (s.failures node + 1) }
  | .receive node =>
      match s.streams node with
      | none | some [] => none
      | some (payload :: rest) =>
          -- What cannot be read is skipped.
          let event := codec.fromStr payload
          some { s with
            streams := Function.update s.streams node (some rest)
            told := Function.update s.told node (s.told node ++ [.got payload])
            handled := Function.update s.handled node (s.handled node ++ event.toList)
            nodes := Function.update s.nodes node
              (event.toList.foldl SessionManager.handle (s.nodes node)) }
  | .disconnect node =>
      (s.streams node).map fun _ =>
        { s with
          streams := Function.update s.streams node none
          backoffSecs := Function.update s.backoffSecs node 1
          failures := Function.update s.failures node 0 }

omit [DecidableEq ι] in
/-- No node is subscribed. -/
def initial (maxSessions clock : ι → ℕ) : RedisCluster ι where
  nodes node := .new (maxSessions node)
  clock
  spawned := []
  streams _ := none
  backoffSecs _ := 1
  failures _ := 0
  channel := []
  told _ := []
  handled _ := []
  issued := []
  reached := []
  lost := []

/-- Every interleaving. -/
def machine : Machine (RedisCluster ι) (RedisAction ι) := ⟨step codec hashToken⟩

/-- Nobody else publishes events of sessions. -/
def Trusted (_ : RedisCluster ι) : RedisAction ι → Prop
  | .foreign payload => ∀ event ∈ codec.fromStr payload, event.isSession = false
  | _ => True

instance (codec : BusCodec) (s : RedisCluster ι) (a : RedisAction ι) :
    Decidable (s.Trusted codec a) :=
  match a with
  | .foreign payload =>
      inferInstanceAs (Decidable (∀ event ∈ codec.fromStr payload, event.isSession = false))
  | .call _ | .publish _ | .lose _ | .subscribe _ | .fail _ | .receive _ | .disconnect _ =>
      inferInstanceAs (Decidable True)

/-- What has been received, as events. -/
def events (told : List (Told String)) : List BusEvent :=
  told.flatMap fun t =>
    match t with
    | .got payload => (codec.fromStr payload).toList
    | .lagged _ => []

/-- Every node has handled what was published while it was subscribed. -/
structure Heard (s : RedisCluster ι) : Prop where
  /-- A node has received the messages of the channel, once and in order, but for those that it
  missed and those that are on their way or will be missed, and has handled those that it could
  read. -/
  nodes : ∀ node, ∃ rest, Reads (s.told node) s.channel rest ∧
    (∀ stream, s.streams node = some stream → stream = rest) ∧
      s.handled node = events codec (s.told node)
  /-- The events of sessions on the channel are those that the nodes have published. -/
  channel : (s.channel.flatMap fun payload => (codec.fromStr payload).toList).filter
    BusEvent.isSession = s.reached.filter BusEvent.isSession
  /-- Every event is published once, unless its task has not done so yet or has failed. -/
  once : s.issued.Perm (s.spawned ++ s.reached ++ s.lost)
  /-- The pauses of a subscriber grow with its errors. -/
  backoff : ∀ node, s.backoffSecs node = min (2 ^ s.failures node) maxBackoffSecs

variable {codec hashToken} {s s' : RedisCluster ι}

omit [DecidableEq ι] in
/-- What is received after something else. -/
theorem events_append (told told' : List (Told String)) :
    events codec (told ++ told') = events codec told ++ events codec told' := List.flatMap_append

omit [DecidableEq ι] in
/-- A message is ahead of every node. -/
theorem heard_send (h : ∀ node, ∃ rest, Reads (s.told node) s.channel rest ∧
    (∀ stream, s.streams node = some stream → stream = rest) ∧
      s.handled node = events codec (s.told node)) (payload : String) (node : ι) :
    ∃ rest, Reads ((s.send payload).told node) (s.send payload).channel rest ∧
      (∀ stream, (s.send payload).streams node = some stream → stream = rest) ∧
        (s.send payload).handled node = events codec ((s.send payload).told node) := by
  obtain ⟨rest, hreads, hstream, hhandled⟩ := h node
  refine ⟨rest ++ [payload], hreads.sent_append payload, fun stream hsome => ?_, hhandled⟩
  obtain ⟨old, hold, rfl⟩ := Option.map_eq_some_iff.mp hsome
  rw [hstream old hold]

/-- A node has received or missed more. -/
theorem heard_update (h : ∀ node, ∃ rest, Reads (s.told node) s.channel rest ∧
    (∀ stream, s.streams node = some stream → stream = rest) ∧
      s.handled node = events codec (s.told node)) (node : ι) {told : List (Told String)}
    {stream : Option (List String)} {handled : List BusEvent}
    (hnode : ∃ rest, Reads told s.channel rest ∧ (∀ st, stream = some st → st = rest) ∧
      handled = events codec told) (node' : ι) :
    ∃ rest, Reads (Function.update s.told node told node') s.channel rest ∧
      (∀ st, Function.update s.streams node stream node' = some st → st = rest) ∧
        Function.update s.handled node handled node' =
          events codec (Function.update s.told node told node') := by
  by_cases heq : node' = node
  · subst heq
    simpa only [Function.update_self] using hnode
  · simpa only [Function.update_of_ne heq] using h node'

omit [DecidableEq ι] in
/-- A message adds the event that it is read as. -/
theorem filter_send (h : s.Heard codec) {payload : String} (event : List BusEvent)
    (hevent : ((codec.fromStr payload).toList).filter BusEvent.isSession =
      event.filter BusEvent.isSession) :
    ((s.channel ++ [payload]).flatMap fun p => (codec.fromStr p).toList).filter
      BusEvent.isSession = (s.reached ++ event).filter BusEvent.isSession := by
  rw [List.flatMap_append, List.filter_append, List.filter_append, h.channel,
    List.flatMap_singleton, hevent]

/-- A step keeps what is heard. -/
theorem heard_step (s : RedisCluster ι) (a : RedisAction ι) (s' : RedisCluster ι)
    (hs : s.Heard codec) (hok : s.Trusted codec a) (h : s.step codec hashToken a = some s') :
    s'.Heard codec := by
  cases a with
  | call a =>
      simp only [step] at h
      split at h
      next => cases h
      next =>
        obtain ⟨c, -, rfl⟩ := Option.map_eq_some_iff.mp h
        refine ⟨hs.nodes, hs.channel, ?_, hs.backoff⟩
        simp only [List.append_assoc]
        exact (hs.once.trans (by rw [List.append_assoc])).append_left _
  | publish event =>
      simp only [step] at h
      split at h
      next hmem =>
        -- The task is gone whether the event is written or not; only where the event goes differs.
        have honce := hs.once.trans (((List.perm_cons_erase hmem).append_right _).append_right _)
        split at h
        next payload hpayload =>
          cases h
          refine ⟨heard_send hs.nodes payload, filter_send hs [event] ?_, ?_, hs.backoff⟩
          · rw [codec.fromStr_toString hpayload, Option.toList_some]
          · have hmove : s.spawned.erase event ++ (s.reached ++ [event]) ++ s.lost =
                s.spawned.erase event ++ s.reached ++ event :: s.lost := by simp
            rw [send, hmove]
            exact honce.trans List.perm_middle.symm
        next =>
          cases h
          exact ⟨hs.nodes, hs.channel, honce.trans List.perm_middle.symm, hs.backoff⟩
      next => cases h
  | lose event =>
      simp only [step] at h
      split at h
      next hmem =>
        cases h
        have honce := hs.once.trans (((List.perm_cons_erase hmem).append_right _).append_right _)
        exact ⟨hs.nodes, hs.channel, honce.trans List.perm_middle.symm, hs.backoff⟩
      next => cases h
  | foreign payload =>
      cases h
      refine ⟨heard_send hs.nodes payload, ?_, hs.once, hs.backoff⟩
      -- Another client may publish anything but events of sessions, so these stay the same.
      refine (filter_send hs [] ?_).trans (by rw [List.append_nil]; rfl)
      rw [List.filter_nil, List.filter_eq_nil_iff]
      intro event hevent
      simpa using hok event (Option.mem_toList.mp hevent)
  | subscribe node =>
      simp only [step] at h
      split at h
      next => cases h
      next =>
        cases h
        refine ⟨fun node' => ?_, hs.channel, hs.once, hs.backoff⟩
        obtain ⟨rest, hreads, -, hhandled⟩ := hs.nodes node
        -- All that is ahead is missed.
        have hlength : s.channel.length - Reads.counted (s.told node) = rest.length := by
          rw [← hreads.counted_add_length, Nat.add_sub_cancel_left]
        have hmissed : Reads (s.told node ++
            if 0 < s.channel.length - Reads.counted (s.told node) then
              [.lagged (s.channel.length - Reads.counted (s.told node))] else [])
            s.channel [] := by
          rw [hlength]
          split
          next hpos =>
            refine Reads.told_lagged (List.length_pos_iff.mp hpos) ?_
            rw [List.append_nil]
            exact hreads
          next hzero =>
            rw [List.length_pos_iff, not_not] at hzero
            rw [List.append_nil, ← hzero]
            exact hreads
        have hupdate := heard_update hs.nodes node ⟨[], hmissed,
          fun st (hst : some [] = some st) => (Option.some.inj hst).symm,
          show s.handled node = _ by
            rw [events_append, hhandled]
            split <;> exact (List.append_nil _).symm⟩ node'
        rw [Function.update_eq_self] at hupdate
        exact hupdate
  | fail node =>
      simp only [step] at h
      split at h
      next => cases h
      next =>
        cases h
        refine ⟨hs.nodes, hs.channel, hs.once, fun node' => ?_⟩
        by_cases heq : node' = node
        · subst heq
          simp only [Function.update_self]
          rw [hs.backoff, pow_succ]
          omega
        · simpa only [Function.update_of_ne heq] using hs.backoff node'
  | receive node =>
      simp only [step] at h
      split at h
      next => cases h
      next => cases h
      next payload stream hstream =>
        cases h
        refine ⟨heard_update hs.nodes node ?_, hs.channel, hs.once, hs.backoff⟩
        obtain ⟨rest, hreads, hrest, hhandled⟩ := hs.nodes node
        -- The stream of a subscribed node is all that is ahead of it, so the message taken is the
        -- next one of the channel.
        obtain rfl := hrest _ hstream
        refine ⟨stream, hreads.told_got, fun st hst => (Option.some.inj hst).symm, ?_⟩
        rw [events_append, hhandled]
        congr 1
        exact (List.append_nil _).symm
  | disconnect node =>
      obtain ⟨stream, hstream, rfl⟩ := Option.map_eq_some_iff.mp h
      refine ⟨fun node' => ?_, hs.channel, hs.once, fun node' => ?_⟩
      · obtain ⟨rest, hreads, hrest, hhandled⟩ := hs.nodes node'
        refine ⟨rest, hreads, fun st hst => ?_, hhandled⟩
        by_cases heq : node' = node
        · subst heq
          dsimp only at hst
          rw [Function.update_self] at hst
          cases hst
        · dsimp only at hst
          rw [Function.update_of_ne heq] at hst
          exact hrest st hst
      · by_cases heq : node' = node
        · subst heq
          simp only [Function.update_self]
          decide
        · simpa only [Function.update_of_ne heq] using hs.backoff node'

/-- In every interleaving in which nobody else publishes events of sessions, every node has handled
what was published while it was subscribed. -/
theorem heard_of_runs {maxSessions clock : ι → ℕ} {as : List (RedisAction ι)}
    (hrun : (machine codec hashToken).Runs (Trusted codec) (initial maxSessions clock) as s) :
    s.Heard codec := by
  refine hrun.invariant heard_step ?_
  refine ⟨fun node => ⟨[], .nil [], fun stream h => ?_, rfl⟩, rfl, List.Perm.refl _, fun node => ?_⟩
  · cases h
  · exact (by decide : 1 = min (2 ^ 0) maxBackoffSecs)

/-- The payload of a revocation. -/
def revokedPayload : String :=
  "\x7b\"kind\":\"SessionInvalidateToken\",\"hashed_token\":\"h\"\x7d"

/-- The codec on the events of one token. -/
def revocationCodec : BusCodec where
  toString event := if event = .sessionInvalidateToken "h" then some revokedPayload else none
  fromStr payload := if payload = revokedPayload then some (.sessionInvalidateToken "h") else none
  fromStr_toString := by
    intro event payload h
    split at h
    next hevent =>
      cases h
      rw [if_pos rfl, hevent]
    next => cases h

/-- A session is closed on one node while the other is subscribed. -/
def logoutOverRedis : List (RedisAction (Fin 2)) :=
  [.fail 0, .subscribe 1, .call (.create 0 "u" "h" "10.0.0.1" "ua" 60), .call (.invalidate 0 "h"),
    .publish (.sessionInvalidateToken "h"), .foreign "?", .subscribe 0, .receive 1, .receive 1]

/-- One node has handled the revocation, the other has missed it. -/
theorem heard_logoutOverRedis : ∃ s, (machine revocationCodec id).Runs (Trusted revocationCodec)
    (initial (fun _ => 5) fun _ => 100) logoutOverRedis s ∧
      s.handled 1 = [.sessionInvalidateToken "h"] ∧ s.told 0 = [.lagged 2] ∧
        s.Heard revocationCodec := by
  obtain ⟨s, hs, hhandled, htold⟩ : ∃ s, (machine revocationCodec id).exec (Trusted revocationCodec)
      (initial (fun _ => 5) fun _ => 100) logoutOverRedis = some s ∧
        s.handled 1 = [.sessionInvalidateToken "h"] ∧ s.told 0 = [.lagged 2] := by
    refine ⟨_, rfl, ?_, ?_⟩ <;> decide
  have hrun := Machine.runs_of_exec hs
  exact ⟨s, hrun, hhandled, htold, heard_of_runs hrun⟩

/-- What a node has yet to receive. -/
def incoming (codec : BusCodec) (s : RedisCluster ι) (node : ι) : List BusEvent :=
  ((s.streams node).getD []).flatMap fun payload => (codec.fromStr payload).toList

/-- The events of sessions that may still reach a node. -/
def pending (codec : BusCodec) (s : RedisCluster ι) (node : ι) : List BusEvent :=
  (s.spawned ++ s.incoming codec node).filter BusEvent.isSession

/-- The abstract cluster has the same managers, and what may still arrive is in flight there. -/
structure Refines (codec : BusCodec) (s : RedisCluster ι) (c : Cluster ι) : Prop where
  nodes : c.nodes = s.nodes
  clock : c.clock = s.clock
  inFlight : ∀ node, (s.pending codec node).Subperm (c.inFlight node)

/-- An operation of a node does not depend on what is in flight. -/
theorem step_inFlight {nodes : ι → SessionManager} {clock : ι → ℕ} {a : ClusterAction ι}
    {c : Cluster ι} (ha : a.isDeliver = false)
    (h : Cluster.step hashToken ⟨nodes, clock, fun _ => []⟩ a = some c)
    (inFlight : ι → List BusEvent) :
    Cluster.step hashToken ⟨nodes, clock, inFlight⟩ a = some ⟨c.nodes, c.clock,
      fun node => (a.published hashToken nodes).toList ++ inFlight node⟩ := by
  cases a with
  | deliver node event => cases ha
  | tick node now =>
      simp only [Cluster.step] at h ⊢
      split at h
      next hle =>
        cases h
        rw [if_pos hle]
        rfl
      next => cases h
  | start | create | validateWithRequest | invalidate | invalidateAll | cleanupExpired =>
      cases h
      rfl

omit [DecidableEq ι] in
/-- A message that is sent is incoming where a node is subscribed. -/
theorem incoming_send (codec : BusCodec) (s : RedisCluster ι) (payload : String) (node : ι) :
    ((s.send payload).incoming codec node).Sublist
      (s.incoming codec node ++ (codec.fromStr payload).toList) := by
  unfold incoming send
  cases hstream : s.streams node with
  | none =>
      dsimp only
      rw [hstream]
      exact List.nil_sublist _
  | some stream =>
      dsimp only
      rw [hstream, Option.map_some, Option.getD_some, Option.getD_some, List.flatMap_append,
        List.flatMap_singleton]

/-- What a node receives is delivered in the abstract cluster, if it is an event of sessions. -/
theorem Refines.receive {c : Cluster ι} (h : s.Refines codec c) {node : ι} {payload : String}
    {rest : List String} (hstream : s.streams node = some (payload :: rest)) :
    ∃ bs c', (Cluster.machine hashToken).Runs Machine.unrestricted c bs c' ∧
      c'.nodes = Function.update s.nodes node
        ((codec.fromStr payload).toList.foldl SessionManager.handle (s.nodes node)) ∧
      c'.clock = s.clock ∧ ∀ node', ((s.spawned ++ if node' = node then
        rest.flatMap fun payload => (codec.fromStr payload).toList
          else s.incoming codec node').filter BusEvent.isSession).Subperm (c'.inFlight node') := by
  have hincoming : s.incoming codec node = (codec.fromStr payload).toList ++
      rest.flatMap fun payload => (codec.fromStr payload).toList := by
    unfold incoming
    rw [hstream]
    rfl
  -- What is not an event of sessions changes no manager.
  have hskip : ((codec.fromStr payload).toList.filter BusEvent.isSession = []) →
      (codec.fromStr payload).toList.foldl SessionManager.handle (s.nodes node) = s.nodes node := by
    cases codec.fromStr payload with
    | none => exact fun _ => rfl
    | some event => cases event <;> simp [BusEvent.isSession, SessionManager.handle]
  cases hevent : (codec.fromStr payload).toList.filter BusEvent.isSession with
  | nil =>
      refine ⟨[], c, .nil c, ?_, h.clock, fun node' => ?_⟩
      · rw [hskip hevent, Function.update_eq_self, h.nodes]
      · have hsub := h.inFlight node'
        unfold pending at hsub
        split
        next heq =>
          subst heq
          rw [hincoming, List.filter_append, List.filter_append, hevent, List.nil_append] at hsub
          rw [List.filter_append]
          exact hsub
        next => exact hsub
  | cons event others =>
      obtain ⟨hread, hsession, rfl⟩ : codec.fromStr payload = some event ∧
          event.isSession = true ∧ others = [] := by
        cases hread : codec.fromStr payload with
        | none =>
            rw [hread] at hevent
            cases hevent
        | some event' =>
            rw [hread, Option.toList_some, List.filter_singleton] at hevent
            cases hsession : event'.isSession with
            | true =>
                rw [hsession, cond_true] at hevent
                cases hevent
                exact ⟨rfl, hsession, rfl⟩
            | false =>
                rw [hsession, cond_false] at hevent
                cases hevent
      -- The event that is taken is in flight there, with all that may still arrive.
      have hperm : (event :: (s.spawned ++ rest.flatMap fun payload =>
          (codec.fromStr payload).toList).filter BusEvent.isSession).Subperm (c.inFlight node) := by
        refine (List.Perm.subperm ?_).trans (h.inFlight node)
        unfold pending
        rw [hincoming, List.filter_append, List.filter_append, List.filter_append, hevent]
        exact List.perm_middle.symm
      have hmem : event ∈ c.inFlight node := hperm.subset List.mem_cons_self
      refine ⟨[.deliver node event], _, .cons trivial (if_pos hmem) (.nil _), ?_, h.clock,
        fun node' => ?_⟩
      · simp only [Cluster.setNode, h.nodes, hread, Option.toList_some, List.foldl_cons,
          List.foldl_nil]
      · split
        next heq =>
          subst heq
          dsimp only
          rw [Function.update_self]
          simpa only [List.erase_cons_head] using hperm.erase event
        next hne =>
          dsimp only
          rw [Function.update_of_ne hne]
          exact h.inFlight node'

/-- A step is matched by steps of the abstract cluster. -/
theorem Refines.step {c : Cluster ι} (h : s.Refines codec c) {a : RedisAction ι}
    (hok : s.Trusted codec a) (hstep : s.step codec hashToken a = some s') :
    ∃ bs c', (Cluster.machine hashToken).Runs Machine.unrestricted c bs c' ∧
      s'.Refines codec c' := by
  cases a with
  | call a =>
      simp only [RedisCluster.step] at hstep
      split at hstep
      next => cases hstep
      next hdeliver =>
        obtain ⟨c', hc', rfl⟩ := Option.map_eq_some_iff.mp hstep
        have hcluster := step_inFlight (Bool.eq_false_iff.mpr hdeliver) hc' c.inFlight
        rw [← h.nodes, ← h.clock] at hcluster
        -- There the event is in flight to every node at once, here it waits for its task.
        refine ⟨[a], _, .cons trivial hcluster (.nil _), rfl, rfl, fun node => ?_⟩
        unfold pending
        rw [h.nodes, List.append_assoc, List.filter_append]
        exact (List.Sublist.subperm List.filter_sublist).append (h.inFlight node)
  | publish event =>
      simp only [RedisCluster.step] at hstep
      split at hstep
      next hmem =>
        split at hstep
        next payload hpayload =>
          cases hstep
          -- Nothing happens there: the event moves from its task to the streams.
          refine ⟨[], c, .nil c, h.nodes, h.clock, fun node => ?_⟩
          have hsub := incoming_send codec s payload node
          rw [codec.fromStr_toString hpayload, Option.toList_some] at hsub
          have hmove : (s.spawned.erase event ++ (s.incoming codec node ++ [event])).Perm
              (s.spawned ++ s.incoming codec node) := by
            rw [← List.append_assoc]
            exact (List.perm_append_singleton event _).trans
              ((List.perm_cons_erase hmem).append_right _).symm
          exact ((hsub.append_left (s.spawned.erase event)).filter BusEvent.isSession).subperm.trans
            ((hmove.filter BusEvent.isSession).subperm.trans (h.inFlight node))
        next =>
          cases hstep
          exact ⟨[], c, .nil c, h.nodes, h.clock, fun node =>
            ((List.erase_sublist.append_right _).filter _).subperm.trans (h.inFlight node)⟩
      next => cases hstep
  | lose event =>
      simp only [RedisCluster.step] at hstep
      split at hstep
      next =>
        cases hstep
        exact ⟨[], c, .nil c, h.nodes, h.clock, fun node =>
          ((List.erase_sublist.append_right _).filter _).subperm.trans (h.inFlight node)⟩
      next => cases hstep
  | foreign payload =>
      cases hstep
      refine ⟨[], c, .nil c, h.nodes, h.clock, fun node => ?_⟩
      have hnone : (codec.fromStr payload).toList.filter BusEvent.isSession = [] := by
        rw [List.filter_eq_nil_iff]
        intro event hevent
        simpa using hok event (Option.mem_toList.mp hevent)
      have hsub := ((incoming_send codec s payload node).append_left s.spawned).filter
        BusEvent.isSession
      rw [← List.append_assoc s.spawned, List.filter_append _ (codec.fromStr payload).toList, hnone,
        List.append_nil] at hsub
      exact hsub.subperm.trans (h.inFlight node)
  | subscribe node =>
      simp only [RedisCluster.step] at hstep
      split at hstep
      next => cases hstep
      next hnone =>
        cases hstep
        refine ⟨[], c, .nil c, h.nodes, h.clock, fun node' => ?_⟩
        have hsub := h.inFlight node'
        unfold pending incoming at hsub ⊢
        by_cases heq : node' = node
        · subst heq
          rw [hnone] at hsub
          simp only [Function.update_self]
          exact hsub
        · simpa only [Function.update_of_ne heq] using hsub
  | fail node =>
      simp only [RedisCluster.step] at hstep
      split at hstep
      next => cases hstep
      next =>
        cases hstep
        exact ⟨[], c, .nil c, h.nodes, h.clock, h.inFlight⟩
  | receive node =>
      simp only [RedisCluster.step] at hstep
      split at hstep
      next => cases hstep
      next => cases hstep
      next payload rest hstream =>
        cases hstep
        obtain ⟨bs, c', hrun, hnodes, hclock, hinFlight⟩ := h.receive hstream
        refine ⟨bs, c', hrun, hnodes, hclock, fun node' => ?_⟩
        have hsub := hinFlight node'
        unfold pending incoming
        by_cases heq : node' = node
        · subst heq
          rw [if_pos rfl] at hsub
          simp only [Function.update_self]
          exact hsub
        · rw [if_neg heq] at hsub
          simp only [Function.update_of_ne heq]
          exact hsub
  | disconnect node =>
      obtain ⟨stream, hstream, rfl⟩ := Option.map_eq_some_iff.mp hstep
      refine ⟨[], c, .nil c, h.nodes, h.clock, fun node' => ?_⟩
      have hsub := h.inFlight node'
      unfold pending incoming at hsub ⊢
      by_cases heq : node' = node
      · subst heq
        simp only [Function.update_self]
        exact (((List.nil_sublist _).append_left s.spawned).filter _).subperm.trans hsub
      · simpa only [Function.update_of_ne heq] using hsub

/-- In every interleaving in which nobody else publishes events of sessions, the session managers
are those of a run of the abstract cluster. -/
theorem refines_of_runs {maxSessions clock : ι → ℕ} {as : List (RedisAction ι)}
    (hrun : (machine codec hashToken).Runs (Trusted codec) (initial maxSessions clock) as s) :
    ∃ bs c, (Cluster.machine hashToken).Runs Machine.unrestricted
      (Cluster.initial maxSessions clock) bs c ∧ s.Refines codec c := by
  refine hrun.invariant (I := fun s => ∃ bs c, (Cluster.machine hashToken).Runs
    Machine.unrestricted (Cluster.initial maxSessions clock) bs c ∧ s.Refines codec c)
    (fun s a s' hs hok h => ?_) ⟨[], _, .nil _, rfl, rfl, fun node => List.Subperm.refl _⟩
  obtain ⟨bs, c, hbs, hrefines⟩ := hs
  obtain ⟨bs', c', hbs', hrefines'⟩ := hrefines.step hok h
  exact ⟨bs ++ bs', c', hbs.append hbs', hrefines'⟩

/-- The logout, in the abstract cluster. -/
theorem refines_logoutOverRedis : ∃ s bs c, (machine revocationCodec id).Runs
    (Trusted revocationCodec) (initial (fun _ => 5) fun _ => 100) logoutOverRedis s ∧
      (Cluster.machine id).Runs Machine.unrestricted
        (Cluster.initial (fun _ => 5) fun _ => 100) bs c ∧ s.Refines revocationCodec c := by
  obtain ⟨s, hs⟩ : ∃ s, (machine revocationCodec id).exec (Trusted revocationCodec)
      (initial (fun _ => 5) fun _ => 100) logoutOverRedis = some s := ⟨_, rfl⟩
  have hrun := Machine.runs_of_exec hs
  obtain ⟨bs, c, hrefines⟩ := refines_of_runs hrun
  exact ⟨s, bs, c, hrun, hrefines⟩

end RedisCluster

end XiraNet

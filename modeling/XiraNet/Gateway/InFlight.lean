import XiraNet.Gateway.Handler
import XiraNet.Lib.Runs

/-!
# Requests in flight

The `LoadBalancer` together with the executions of `gateway_handler` (`gateway/mod.rs`) that have
not ended. `acquire_connection` and `release_connection` are two calls of the handler with awaits
between them. Where the handler awaits, its future may be dropped, as it is when the client
disconnects, and the rest of the handler does not run. A selection reads the counts in one state.

* `exact_throughout_iff`: the counts are those of the requests in flight throughout a run exactly
  if no execution is dropped while it has a connection, and no count overflows.
* `runs_forward`: what the handler does to the balancer is a run of this system.
* `exact_fails`: a client that disconnects leaves its connection counted for good.
-/

namespace XiraNet

/-- Where an execution of `gateway_handler` stands. -/
inductive LoadPhase
  /-- Before `select_upstream`. -/
  | checking
  /-- Between `select_upstream` and `acquire_connection`. -/
  | selected (upstream : String)
  /-- Between `acquire_connection` and `release_connection`: the upstream is contacted. -/
  | forwarding (upstream : String)
  /-- After `release_connection`. -/
  | released
  deriving DecidableEq, Repr

/-- Whether the handler awaits in a phase. Nothing is awaited from the selection to the
acquisition. -/
def LoadPhase.awaits : LoadPhase → Bool
  | .selected _ => false
  | _ => true

/-- The balancer and the executions that have neither returned nor been dropped. -/
structure LoadState where
  lb : LoadBalancer
  running : List LoadPhase

/-- One step of an execution. -/
inductive LoadAction
  | arrive
  /-- The handler returns before it selects an upstream. -/
  | answer
  | select (rand : ℕ) (service : ServiceEntry)
  | acquire (upstream : String)
  | release (upstream : String)
  /-- The handler returns after the release. -/
  | finish
  /-- The future of an execution is dropped. -/
  | drop (phase : LoadPhase)
  deriving DecidableEq, Repr

namespace LoadState

/-- The number of executions that have acquired an upstream and not yet left it. -/
def inFlight (s : LoadState) (upstream : String) : ℕ := s.running.count (.forwarding upstream)

/-- One execution goes from a phase to the next, or ends, and leaves the balancer `lb`. -/
def move (s : LoadState) (phase : LoadPhase) (next : Option LoadPhase) (lb : LoadBalancer) :
    Option LoadState :=
  if phase ∈ s.running then some ⟨lb, next.toList ++ s.running.erase phase⟩ else none

/-- The selection of an upstream of a service. -/
def selection (s : LoadState) (rand : ℕ) (service : ServiceEntry) : String × LoadBalancer :=
  s.lb.selectUpstream rand service.id service.allUpstreams
    ((service.loadBalance.map LoadBalanceStrategy.fromStr).getD .roundRobin)

/-- One step. -/
def step (s : LoadState) : LoadAction → Option LoadState
  | .arrive => some { s with running := .checking :: s.running }
  | .answer => s.move .checking none s.lb
  | .select rand service =>
      s.move .checking (some (.selected (s.selection rand service).1)) (s.selection rand service).2
  | .acquire upstream =>
      s.move (.selected upstream) (some (.forwarding upstream)) (s.lb.acquireConnection upstream)
  | .release upstream =>
      s.move (.forwarding upstream) (some .released) (s.lb.releaseConnection upstream)
  | .finish => s.move .released none s.lb
  -- Nothing runs on a drop: there is no guard that would release the connection.
  | .drop phase => if phase.awaits then s.move phase none s.lb else none

/-- The start of the gateway. -/
def initial : LoadState := ⟨.new, []⟩

/-- Every interleaving of executions. -/
def machine : Machine LoadState LoadAction := ⟨step⟩

/-- The counters are exact: each is the number of requests in flight at its upstream. So the
strategy of least connections selects an upstream with the fewest requests in flight, and without
any request in flight all counters are at zero. -/
structure Exact (s : LoadState) : Prop where
  counts : ∀ u, s.lb.connCount u = s.inFlight u
  least : ∀ rand (service : ServiceEntry), ∀ u ∈ service.allUpstreams,
    s.inFlight (s.lb.selectUpstream rand service.id service.allUpstreams .leastConnections).1 ≤
      s.inFlight u
  idle : (∀ u, s.inFlight u = 0) → ∀ u count, s.lb.connections.lookup u = some count → count = 0

/-- The steps that keep the counters exact: no execution is dropped between `acquire_connection`
and `release_connection`, and no counter reaches the end of its range. -/
def KeepsCount (s : LoadState) : LoadAction → Prop
  | .drop (.forwarding _) => False
  | .acquire upstream => s.inFlight upstream + 1 < 2 ^ 64
  | _ => True

instance (s : LoadState) (a : LoadAction) : Decidable (s.KeepsCount a) := by
  unfold KeepsCount
  split <;> infer_instance

/-- The invariant: every counter is exact and in its range. -/
structure Counted (s : LoadState) : Prop where
  counts : ∀ u, s.lb.connCount u = s.inFlight u
  range : ∀ u, s.inFlight u < 2 ^ 64

/-- Exact counters in their range are all that is needed. -/
theorem Counted.exact {s : LoadState} (hs : s.Counted) : s.Exact where
  counts := hs.counts
  least := by
    intro rand service u hu
    rw [← hs.counts, ← hs.counts]
    exact s.lb.connCount_selectUpstream_le rand service.id
      (fun v => (hs.counts v).trans_lt (hs.range v)) hu
  idle := by
    intro hidle u count hcount
    have hzero := (hs.counts u).trans (hidle u)
    rwa [LoadBalancer.connCount, hcount] at hzero

/-- What a move does to the balancer and to the requests in flight. -/
theorem move_spec {s s' : LoadState} {phase : LoadPhase} {next : Option LoadPhase}
    {lb : LoadBalancer} (h : s.move phase next lb = some s') (u : String) :
    s'.lb = lb ∧
      s'.inFlight u + (if phase = .forwarding u then 1 else 0) =
        s.inFlight u + (if next = some (.forwarding u) then 1 else 0) := by
  unfold move at h
  split at h
  next hmem =>
    cases h
    refine ⟨rfl, ?_⟩
    -- The running executions are the one that moves and the others, in some order.
    have hcount := (List.perm_cons_erase hmem).count_eq (LoadPhase.forwarding u)
    simp only [List.count_cons, beq_iff_eq] at hcount
    unfold inFlight
    rw [hcount, List.count_append]
    cases next with
    | none => simp
    | some p =>
        simp only [Option.toList_some, List.count_singleton, beq_iff_eq, Option.some.injEq]
        omega
  next => cases h

/-- A step between phases without a connection leaves the counters exact. -/
theorem counted_of_move {s s' : LoadState} {phase : LoadPhase} {next : Option LoadPhase}
    {lb : LoadBalancer} (hs : s.Counted) (h : s.move phase next lb = some s')
    (hlb : lb.connections = s.lb.connections) (hphase : ∀ u, phase ≠ .forwarding u)
    (hnext : ∀ u, next ≠ some (.forwarding u)) : s'.Counted := by
  have hsame : ∀ u, s'.lb.connCount u = s.lb.connCount u ∧ s'.inFlight u = s.inFlight u := by
    intro u
    obtain ⟨hbalancer, hcount⟩ := move_spec h u
    rw [if_neg (hphase u), if_neg (hnext u)] at hcount
    refine ⟨?_, hcount⟩
    unfold LoadBalancer.connCount
    rw [hbalancer, hlb]
  constructor
  · intro u
    rw [(hsame u).1, (hsame u).2]
    exact hs.counts u
  · intro u
    rw [(hsame u).2]
    exact hs.range u

/-- An acquisition counts one more request, and only at its own upstream. -/
theorem counted_acquire {s s' : LoadState} {upstream : String} (hs : s.Counted)
    (hrange : s.inFlight upstream + 1 < 2 ^ 64) (h : s.step (.acquire upstream) = some s') :
    s'.Counted := by
  have hspec : ∀ u, s'.lb.connCount u = s'.inFlight u ∧ s'.inFlight u < 2 ^ 64 := by
    intro u
    obtain ⟨hbalancer, hcount⟩ := move_spec h u
    rw [if_neg (by simp)] at hcount
    rw [hbalancer, LoadBalancer.connCount_acquireConnection]
    have hold := hs.counts u
    have hlt := hs.range u
    by_cases heq : u = upstream
    · subst heq
      rw [if_pos rfl] at hcount
      rw [if_pos rfl, hold, Nat.mod_eq_of_lt hrange]
      omega
    · rw [if_neg (by simpa using Ne.symm heq)] at hcount
      rw [if_neg heq]
      omega
  exact ⟨fun u => (hspec u).1, fun u => (hspec u).2⟩

/-- A release takes one request off the count of its upstream. -/
theorem counted_release {s s' : LoadState} {upstream : String} (hs : s.Counted)
    (h : s.step (.release upstream) = some s') : s'.Counted := by
  have hspec : ∀ u, s'.lb.connCount u = s'.inFlight u ∧ s'.inFlight u < 2 ^ 64 := by
    intro u
    obtain ⟨hbalancer, hcount⟩ := move_spec h u
    rw [if_neg (by simp : ¬ some LoadPhase.released = some (.forwarding u))] at hcount
    rw [hbalancer, LoadBalancer.connCount_releaseConnection]
    have hold := hs.counts u
    have hlt := hs.range u
    by_cases heq : u = upstream
    · subst heq
      rw [if_pos rfl] at hcount
      rw [if_pos rfl]
      omega
    · rw [if_neg (by simpa using Ne.symm heq)] at hcount
      rw [if_neg heq]
      omega
  exact ⟨fun u => (hspec u).1, fun u => (hspec u).2⟩

/-- Every step that meets the condition keeps the invariant. -/
theorem counted_step (s : LoadState) (a : LoadAction) (s' : LoadState) (hs : s.Counted)
    (hok : s.KeepsCount a) (h : machine.step s a = some s') : s'.Counted := by
  cases a with
  | arrive =>
      cases h
      -- A new execution has no connection yet.
      have hcount : ∀ u, (LoadState.mk s.lb (.checking :: s.running)).inFlight u = s.inFlight u :=
        fun u => List.count_cons_of_ne (by simp)
      exact ⟨fun u => (hs.counts u).trans (hcount u).symm,
        fun u => (hcount u).trans_lt (hs.range u)⟩
  | answer => exact counted_of_move hs h rfl (by simp) (by simp)
  | select rand service =>
      exact counted_of_move hs h (s.lb.connections_selectUpstream _ _ _ _) (by simp) (by simp)
  | acquire upstream => exact counted_acquire hs hok h
  | release upstream => exact counted_release hs h
  | finish => exact counted_of_move hs h rfl (by simp) (by simp)
  | drop phase =>
      simp only [machine, step] at h
      split at h
      next =>
        refine counted_of_move hs h rfl (fun u hphase => ?_) (by simp)
        subst hphase
        exact hok
      next => cases h

/-- A step that does not meet the condition leaves a counter that is wrong. -/
theorem not_exact_step (s : LoadState) (a : LoadAction) (s' : LoadState) (hs : s.Counted)
    (hbad : ¬ s.KeepsCount a) (h : machine.step s a = some s') : ¬ s'.Exact := by
  intro hexact
  cases a with
  | acquire upstream =>
      obtain ⟨hbalancer, hcount⟩ := move_spec h upstream
      rw [if_neg (by simp), if_pos rfl] at hcount
      -- The counter has gone around to zero.
      have hfull : s.inFlight upstream + 1 = 2 ^ 64 :=
        le_antisymm (hs.range upstream) (not_lt.mp hbad)
      have hnew := hexact.counts upstream
      rw [hbalancer, LoadBalancer.connCount_acquireConnection, if_pos rfl, hs.counts, hfull,
        Nat.mod_self] at hnew
      omega
  | drop phase =>
      cases phase with
      | forwarding upstream =>
          obtain ⟨hbalancer, hcount⟩ := move_spec h upstream
          rw [if_pos rfl, if_neg (by simp)] at hcount
          -- One request less, and the same counter.
          have hold := hs.counts upstream
          have hnew := hexact.counts upstream
          rw [hbalancer] at hnew
          omega
      | checking => exact hbad trivial
      | selected => exact hbad trivial
      | released => exact hbad trivial
  | arrive => exact hbad trivial
  | answer => exact hbad trivial
  | select => exact hbad trivial
  | release => exact hbad trivial
  | finish => exact hbad trivial

/-- At the start nothing is in flight. -/
theorem counted_initial : initial.Counted :=
  ⟨fun _ => rfl, fun _ => Nat.two_pow_pos 64⟩

/-- The counters are exact throughout a run exactly if no execution is dropped while it has a
connection, and no counter overflows. -/
theorem exact_throughout_iff {actions : List LoadAction} {s : LoadState}
    (hrun : machine.Runs Machine.unrestricted initial actions s) :
    machine.Throughout Exact initial actions ↔ machine.Runs KeepsCount initial actions s :=
  hrun.throughout_iff (fun _ h => h.exact) counted_step not_exact_step counted_initial

/-- A service with two upstreams and least connections. -/
def leastService : ServiceEntry :=
  { ServiceEntry.new 1 0 "api" "/api" "http://a" "/health" with
    upstreams := ["http://b"]
    loadBalance := some "least-connections" }

/-- Two requests, of which the second is dropped after the first is done with the upstream. -/
def leastActions : List LoadAction :=
  [.arrive, .arrive, .select 0 leastService, .acquire "http://a", .select 0 leastService,
    .acquire "http://b", .release "http://a", .finish, .release "http://b", .drop .released]

/-- What is dropped after the release is not counted any more. -/
theorem exact_throughout_leastActions :
    machine.Throughout Exact initial leastActions := by
  have hrun : machine.Runs KeepsCount initial leastActions
      ((machine.exec KeepsCount initial leastActions).getD initial) :=
    Machine.runs_of_exec rfl
  exact (exact_throughout_iff (hrun.mono fun _ _ _ => trivial)).mpr hrun

/-- The client disconnects while the upstream works on its request: the connection stays counted,
with no request in flight, and the next requests go to the other upstream. -/
theorem exact_fails :
    ¬ ∀ (actions : List LoadAction) (s : LoadState),
      machine.Runs Machine.unrestricted initial actions s → s.Exact := by
  intro h
  have hrun : machine.Runs Machine.unrestricted initial
      [.arrive, .select 0 leastService, .acquire "http://a", .drop (.forwarding "http://a")]
      ⟨LoadBalancer.new.acquireConnection "http://a", []⟩ :=
    Machine.runs_of_exec rfl
  have hcount := (h _ _ hrun).counts "http://a"
  exact absurd hcount (by decide)

end LoadState

/-- What `gateway_handler` does to the balancer between the cache decision and the contact with the
upstream is a run of this system. -/
theorem Gateway.runs_forward (env : GatewayEnv) (g : Gateway) (service : ServiceEntry)
    (req : HttpRequest) (running : List LoadPhase) :
    ∃ upstream, LoadState.machine.Runs Machine.unrestricted ⟨g.lb, .checking :: running⟩
      [.select env.rand service, .acquire upstream]
      ⟨(forward env g service req).2.lb, .forwarding upstream :: running⟩ := by
  let s : LoadState := ⟨g.lb, .checking :: running⟩
  let chosen := s.selection env.rand service
  have hlb : (forward env g service req).2.lb = chosen.2.acquireConnection chosen.1 := by
    unfold forward
    dsimp only
    split <;> rfl
  have hselect : s.step (.select env.rand service) =
      some ⟨chosen.2, .selected chosen.1 :: running⟩ := by
    rw [LoadState.step, LoadState.move, if_pos List.mem_cons_self, List.erase_cons_head]
    rfl
  have hacquire : (LoadState.mk chosen.2 (.selected chosen.1 :: running)).step
      (.acquire chosen.1) =
        some ⟨chosen.2.acquireConnection chosen.1, .forwarding chosen.1 :: running⟩ := by
    rw [LoadState.step, LoadState.move, if_pos List.mem_cons_self, List.erase_cons_head]
    rfl
  refine ⟨chosen.1, .cons trivial hselect (.cons trivial hacquire ?_)⟩
  rw [hlb]
  exact .nil _

end XiraNet

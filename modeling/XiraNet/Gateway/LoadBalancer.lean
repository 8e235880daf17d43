import Mathlib.Data.List.GetD
import XiraNet.Base
import XiraNet.Lib.DashMap
import XiraNet.Lib.Text

/-!
# Load balancer

`gateway/load_balancer.rs`. The index that `rand_index` draws is an argument.

`selectUpstream_mem`: what is selected is one of the upstreams.
-/

namespace XiraNet

/-- The strategies. -/
inductive LoadBalanceStrategy
  | roundRobin
  | random
  | leastConnections
  deriving DecidableEq, Repr

/-- `LoadBalanceStrategy::from_str`. No letter outside ASCII has a letter of these names as its
lower case. -/
def LoadBalanceStrategy.fromStr (s : String) : LoadBalanceStrategy :=
  let s := Text.toAsciiLowercase s
  if s = "random" then .random
  else if s = "least-connections" ∨ s = "least_connections" then .leastConnections
  else .roundRobin

/-- The balancer: a counter per service and the open connections per upstream. -/
structure LoadBalancer where
  counters : DashMap Uuid ℕ
  connections : DashMap String ℕ

namespace LoadBalancer

/-- `LoadBalancer::new`. -/
def new : LoadBalancer := ⟨∅, ∅⟩

/-- The number of open connections of an upstream. -/
def connCount (lb : LoadBalancer) (upstream : String) : ℕ := (lb.connections.lookup upstream).getD 0

/-- One iteration of the search for the least connections: the upstream selected so far and its
number of connections. -/
def leastStep (lb : LoadBalancer) (best : String × ℕ) (upstream : String) : String × ℕ :=
  if lb.connCount upstream < best.2 then (upstream, lb.connCount upstream) else best

/-- `select_upstream`, for a random number `rand`. -/
def selectUpstream (lb : LoadBalancer) (rand : ℕ) (serviceId : Uuid) (upstreams : List String)
    (strategy : LoadBalanceStrategy) : String × LoadBalancer :=
  match upstreams with
  | [] => ("", lb)
  | [only] => (only, lb)
  | first :: rest =>
      let upstreams := first :: rest
      match strategy with
      | .roundRobin =>
          let counter := (lb.counters.lookup serviceId).getD 0
          (upstreams.getD (counter % upstreams.length) first,
            { lb with counters := lb.counters.insert serviceId ((counter + 1) % 2 ^ 64) })
      | .random => (upstreams.getD (rand % upstreams.length) first, lb)
      -- The search starts from the first upstream and a count that every other one beats.
      | .leastConnections => ((upstreams.foldl lb.leastStep (first, 2 ^ 64 - 1)).1, lb)

/-- `acquire_connection`. -/
def acquireConnection (lb : LoadBalancer) (upstream : String) : LoadBalancer :=
  { lb with
    connections := lb.connections.insert upstream ((lb.connCount upstream + 1) % 2 ^ 64) }

/-- `release_connection`: a count is never taken below zero. -/
def releaseConnection (lb : LoadBalancer) (upstream : String) : LoadBalancer :=
  match lb.connections.lookup upstream with
  | some prev =>
      if 0 < prev then { lb with connections := lb.connections.insert upstream (prev - 1) } else lb
  | none => lb

/-- `rand_index`, for a random number `rand`. It panics when there is nothing to choose from. -/
def randIndex (rand max : ℕ) : Option ℕ := if max = 0 then none else some (rand % max)

/-- `select_upstream` with its panics: `none` is a modulo by zero or an index out of range. -/
def trySelectUpstream (lb : LoadBalancer) (rand : ℕ) (serviceId : Uuid) (upstreams : List String)
    (strategy : LoadBalanceStrategy) : Option (String × LoadBalancer) :=
  if upstreams.isEmpty then some ("", lb)
  else if upstreams.length = 1 then (upstreams[0]?).map (·, lb)
  else
    match strategy with
    | .roundRobin => do
        let counter := (lb.counters.lookup serviceId).getD 0
        let idx ← if upstreams.length = 0 then none else some (counter % upstreams.length)
        let upstream ← upstreams[idx]?
        return (upstream,
          { lb with counters := lb.counters.insert serviceId ((counter + 1) % 2 ^ 64) })
    | .random => do
        let idx ← randIndex rand upstreams.length
        let upstream ← upstreams[idx]?
        return (upstream, lb)
    | .leastConnections => do
        let first ← upstreams[0]?
        return ((upstreams.foldl lb.leastStep (first, 2 ^ 64 - 1)).1, lb)

/-- The count of an upstream after a connection is acquired. -/
theorem connCount_acquireConnection (lb : LoadBalancer) (upstream u : String) :
    (lb.acquireConnection upstream).connCount u =
      if u = upstream then (lb.connCount upstream + 1) % 2 ^ 64 else lb.connCount u := by
  unfold acquireConnection connCount
  dsimp only
  rw [DashMap.lookup_insert]
  split
  next => rfl
  next => rfl

/-- The count of an upstream after a connection is released. -/
theorem connCount_releaseConnection (lb : LoadBalancer) (upstream u : String) :
    (lb.releaseConnection upstream).connCount u =
      if u = upstream then lb.connCount upstream - 1 else lb.connCount u := by
  unfold releaseConnection connCount
  cases hprev : lb.connections.lookup upstream with
  | none =>
      dsimp only
      split
      next heq =>
        rw [heq, hprev]
        rfl
      next => rfl
  | some prev =>
      dsimp only
      by_cases hpos : 0 < prev
      · rw [if_pos hpos, DashMap.lookup_insert]
        split
        next => rfl
        next => rfl
      · rw [if_neg hpos]
        split
        next heq =>
          rw [heq, hprev, Option.getD_some]
          omega
        next => rfl

/-- A selection does not touch the connections. -/
theorem connections_selectUpstream (lb : LoadBalancer) (rand : ℕ) (serviceId : Uuid)
    (upstreams : List String) (strategy : LoadBalanceStrategy) :
    (lb.selectUpstream rand serviceId upstreams strategy).2.connections = lb.connections := by
  unfold selectUpstream
  split
  next => rfl
  next => rfl
  next => cases strategy <;> rfl

/-- The search for the least connections ends with a count that no upstream is below. -/
theorem foldl_leastStep_le (lb : LoadBalancer) (upstreams : List String) (best : String × ℕ)
    (hbest : lb.connCount best.1 ≤ best.2) :
    lb.connCount (upstreams.foldl lb.leastStep best).1 ≤ best.2 ∧
      ∀ u ∈ upstreams, lb.connCount (upstreams.foldl lb.leastStep best).1 ≤ lb.connCount u := by
  induction upstreams generalizing best with
  | nil => exact ⟨hbest, fun u hu => (nomatch hu)⟩
  | cons upstream upstreams ih =>
      rw [List.foldl_cons, List.forall_mem_cons]
      by_cases hless : lb.connCount upstream < best.2
      · have hstep : lb.leastStep best upstream = (upstream, lb.connCount upstream) := if_pos hless
        rw [hstep]
        obtain ⟨hle, hrest⟩ := ih (upstream, lb.connCount upstream) le_rfl
        exact ⟨hle.trans hless.le, hle, hrest⟩
      · have hstep : lb.leastStep best upstream = best := if_neg hless
        rw [hstep]
        obtain ⟨hle, hrest⟩ := ih best hbest
        exact ⟨hle, hle.trans (not_lt.mp hless), hrest⟩

/-- The strategy of least connections selects an upstream with the least count, as long as no count
is beyond the one the search starts from. -/
theorem connCount_selectUpstream_le (lb : LoadBalancer) (rand : ℕ) (serviceId : Uuid)
    {upstreams : List String} (hmax : ∀ u, lb.connCount u < 2 ^ 64) {u : String}
    (hu : u ∈ upstreams) :
    lb.connCount (lb.selectUpstream rand serviceId upstreams .leastConnections).1 ≤
      lb.connCount u := by
  match upstreams with
  | [] => cases hu
  | [only] => rw [List.mem_singleton.mp hu]; rfl
  | first :: second :: rest =>
      exact (foldl_leastStep_le lb (first :: second :: rest) (first, 2 ^ 64 - 1)
        (Nat.le_sub_one_of_lt (hmax first))).2 u hu

/-- The search for the least connections selects one of the upstreams it meets. -/
theorem foldl_leastStep_mem (lb : LoadBalancer) (upstreams : List String) (best : String × ℕ) :
    (upstreams.foldl lb.leastStep best).1 ∈ best.1 :: upstreams := by
  induction upstreams generalizing best with
  | nil => exact List.mem_singleton.mpr rfl
  | cons upstream upstreams ih =>
      have hmem := ih (lb.leastStep best upstream)
      rw [List.foldl_cons]
      rcases List.mem_cons.mp hmem with heq | hrest
      · rw [heq, leastStep]
        split
        · exact List.mem_cons_of_mem _ List.mem_cons_self
        · exact List.mem_cons_self
      · exact List.mem_cons_of_mem _ (List.mem_cons_of_mem _ hrest)

/-- An upstream of the service is selected. -/
theorem selectUpstream_mem (lb : LoadBalancer) (rand : ℕ) (serviceId : Uuid)
    {upstreams : List String} (strategy : LoadBalanceStrategy) (h : upstreams ≠ []) :
    (lb.selectUpstream rand serviceId upstreams strategy).1 ∈ upstreams := by
  -- An index modulo the number of upstreams never falls back to the default.
  have hget : ∀ (i : ℕ) (first : String) (rest : List String),
      (first :: rest).getD (i % (first :: rest).length) first ∈ first :: rest := by
    intro i first rest
    have hlt : i % (first :: rest).length < (first :: rest).length := Nat.mod_lt _ (by simp)
    rw [List.getD_eq_getElem _ _ hlt]
    exact List.getElem_mem hlt
  unfold selectUpstream
  split
  next => exact absurd rfl h
  next => exact List.mem_singleton.mpr rfl
  next first rest hmany =>
    cases strategy with
    | roundRobin => exact hget _ first rest
    | random => exact hget _ first rest
    | leastConnections =>
        have hmem := foldl_leastStep_mem lb (first :: rest) (first, 2 ^ 64 - 1)
        rcases List.mem_cons.mp hmem with heq | hrest
        · rw [heq]
          exact List.mem_cons_self
        · exact hrest

/-- `select_upstream` never panics. -/
theorem trySelectUpstream_eq (lb : LoadBalancer) (rand : ℕ) (serviceId : Uuid)
    (upstreams : List String) (strategy : LoadBalanceStrategy) :
    lb.trySelectUpstream rand serviceId upstreams strategy =
      some (lb.selectUpstream rand serviceId upstreams strategy) := by
  match upstreams with
  | [] => rfl
  | [only] => rfl
  | first :: second :: rest =>
      have hne : (first :: second :: rest).length ≠ 0 := by simp
      -- The index is in range, so the default of the other definition is never taken.
      have hget : ∀ i, (first :: second :: rest)[i % (first :: second :: rest).length]? =
          some ((first :: second :: rest).getD (i % (first :: second :: rest).length) first) := by
        intro i
        have hlt := Nat.mod_lt i (Nat.pos_of_ne_zero hne)
        rw [List.getD_eq_getElem _ _ hlt, List.getElem?_eq_getElem hlt]
      have hmany : (first :: second :: rest).length ≠ 1 := by simp
      unfold trySelectUpstream
      rw [if_neg (by simp), if_neg hmany]
      cases strategy with
      | roundRobin =>
          dsimp only
          rw [if_neg hne, Option.bind_eq_bind, Option.bind_some, hget]
          rfl
      | random =>
          dsimp only
          rw [randIndex, if_neg hne, Option.bind_eq_bind, Option.bind_some, hget]
          rfl
      | leastConnections => rfl

end LoadBalancer

end XiraNet

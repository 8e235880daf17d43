import XiraNet.Gateway.LoadBalancer
import XiraNet.Lib.Cyclic
import XiraNet.Registry.Models

/-!
# Round robin

Sequences of calls of a `LoadBalancer`, as the handlers of all requests make them. Each call holds
the lock of the map entry it works on, so that calls of different handlers come one after the
other.

* `roundRobinChoices_eq`: the upstreams that round robin chooses for a service are those that one
  meets going around its list, from the place where its counter stands.
* `roundRobin_fair`: no window of these choices has one upstream two times more than another, and
  every choice is an upstream of the service.
-/

namespace XiraNet

/-- A call of the balancer. -/
inductive BalancerCall
  | select (rand : ℕ) (serviceId : Uuid) (upstreams : List String) (strategy : LoadBalanceStrategy)
  | acquire (upstream : String)
  | release (upstream : String)
  deriving DecidableEq, Repr

namespace LoadBalancer

/-- The balancer after a call. -/
def afterCall (lb : LoadBalancer) : BalancerCall → LoadBalancer
  | .select rand serviceId upstreams strategy =>
      (lb.selectUpstream rand serviceId upstreams strategy).2
  | .acquire upstream => lb.acquireConnection upstream
  | .release upstream => lb.releaseConnection upstream

/-- The counter of a service. -/
def counter (lb : LoadBalancer) (serviceId : Uuid) : ℕ := (lb.counters.lookup serviceId).getD 0

/-- The upstream that a call chooses for a service by round robin, if it is such a call. -/
def roundRobinChoice (lb : LoadBalancer) (serviceId : Uuid) : BalancerCall → Option String
  | .select rand id upstreams .roundRobin =>
      if id = serviceId then some (lb.selectUpstream rand id upstreams .roundRobin).1 else none
  | _ => none

/-- The upstreams that round robin chooses for a service, in the order of the calls. -/
def roundRobinChoices (lb : LoadBalancer) (serviceId : Uuid) : List BalancerCall → List String
  | [] => []
  | call :: calls =>
      (lb.roundRobinChoice serviceId call).toList ++
        (lb.afterCall call).roundRobinChoices serviceId calls

/-- Every round robin selection of a service is made among the same upstreams. -/
def SameUpstreams (serviceId : Uuid) (upstreams : List String) (calls : List BalancerCall) :
    Prop :=
  ∀ call ∈ calls, ∀ rand us, call = .select rand serviceId us .roundRobin → us = upstreams

/-- Acquiring a connection does not touch the counters. -/
@[simp]
theorem counter_acquireConnection (lb : LoadBalancer) (upstream : String) (serviceId : Uuid) :
    (lb.acquireConnection upstream).counter serviceId = lb.counter serviceId := rfl

/-- Releasing a connection does not touch the counters. -/
@[simp]
theorem counter_releaseConnection (lb : LoadBalancer) (upstream : String) (serviceId : Uuid) :
    (lb.releaseConnection upstream).counter serviceId = lb.counter serviceId := by
  unfold releaseConnection
  split
  next => split <;> rfl
  next => rfl

/-- A selection by round robin among several upstreams. -/
theorem selectUpstream_roundRobin (lb : LoadBalancer) (rand : ℕ) (serviceId : Uuid)
    {upstreams : List String} (hmany : 2 ≤ upstreams.length) :
    lb.selectUpstream rand serviceId upstreams .roundRobin =
      (Cyclic.nth (upstreams.headD "") upstreams (lb.counter serviceId),
        { lb with
          counters := lb.counters.insert serviceId ((lb.counter serviceId + 1) % 2 ^ 64) }) := by
  match upstreams with
  | [] => simp at hmany
  | [_] => simp at hmany
  | _ :: _ :: _ => rfl

/-- A selection moves no other counter than that of a round robin selection. -/
theorem counter_selectUpstream_of_ne (lb : LoadBalancer) (rand : ℕ) {id serviceId : Uuid}
    (upstreams : List String) {strategy : LoadBalanceStrategy}
    (h : strategy = .roundRobin → id ≠ serviceId) :
    (lb.selectUpstream rand id upstreams strategy).2.counter serviceId =
      lb.counter serviceId := by
  unfold selectUpstream
  split
  next => rfl
  next => rfl
  next =>
    cases strategy with
    | random => rfl
    | leastConnections => rfl
    | roundRobin =>
        unfold counter
        dsimp only
        rw [DashMap.lookup_insert, if_neg (Ne.symm (h rfl))]

/-- What a call does to the round robin of a service: it chooses the upstream at the counter and
moves the counter on, or it does neither. -/
theorem roundRobinChoice_cases (lb : LoadBalancer) {serviceId : Uuid} {upstreams : List String}
    (hmany : 2 ≤ upstreams.length) {call : BalancerCall}
    (hsame : ∀ rand us, call = .select rand serviceId us .roundRobin → us = upstreams) :
    lb.roundRobinChoice serviceId call =
          some (Cyclic.nth (upstreams.headD "") upstreams (lb.counter serviceId)) ∧
        (lb.afterCall call).counter serviceId = (lb.counter serviceId + 1) % 2 ^ 64 ∨
      lb.roundRobinChoice serviceId call = none ∧
        (lb.afterCall call).counter serviceId = lb.counter serviceId := by
  cases call with
  | acquire upstream => exact .inr ⟨rfl, lb.counter_acquireConnection upstream serviceId⟩
  | release upstream => exact .inr ⟨rfl, lb.counter_releaseConnection upstream serviceId⟩
  | select rand id us strategy =>
      -- The counter is that of the id, not of the list: `hsame` says that the list is the same.
      by_cases hcounts : strategy = .roundRobin ∧ id = serviceId
      case pos =>
        obtain ⟨rfl, rfl⟩ := hcounts
        obtain rfl := hsame rand us rfl
        left
        rw [roundRobinChoice, if_pos rfl, afterCall, lb.selectUpstream_roundRobin rand id hmany]
        refine ⟨rfl, ?_⟩
        unfold counter
        rw [AList.lookup_insert, Option.getD_some]
      case neg =>
        right
        refine ⟨?_, lb.counter_selectUpstream_of_ne rand us fun h hid => hcounts ⟨h, hid⟩⟩
        cases strategy with
        | roundRobin => exact if_neg fun hid => hcounts ⟨rfl, hid⟩
        | random => rfl
        | leastConnections => rfl

/-- As long as the counter of a service does not wrap, round robin goes around its upstreams. -/
theorem roundRobinChoices_eq {serviceId : Uuid} {upstreams : List String}
    (hmany : 2 ≤ upstreams.length) (lb : LoadBalancer) (calls : List BalancerCall)
    (hsame : SameUpstreams serviceId upstreams calls)
    (hwrap : lb.counter serviceId + (lb.roundRobinChoices serviceId calls).length ≤ 2 ^ 64) :
    lb.roundRobinChoices serviceId calls =
      Cyclic.segment (upstreams.headD "") upstreams (lb.counter serviceId)
        (lb.roundRobinChoices serviceId calls).length := by
  induction calls generalizing lb with
  | nil => rfl
  | cons call calls ih =>
      have hrest := ih (lb.afterCall call) fun c hc => hsame c (List.mem_cons_of_mem _ hc)
      rw [roundRobinChoices] at hwrap ⊢
      rcases lb.roundRobinChoice_cases hmany (hsame call List.mem_cons_self) with
        ⟨hchoice, hcounter⟩ | ⟨hchoice, hcounter⟩
      · rw [hchoice, Option.toList_some, List.singleton_append, List.length_cons] at hwrap ⊢
        rw [Cyclic.segment_succ]
        congr 1
        cases hlist : (lb.afterCall call).roundRobinChoices serviceId calls with
        -- After the last choice the counter may be at its end.
        | nil => rfl
        | cons u us =>
            have hlt : lb.counter serviceId + 1 < 2 ^ 64 := by
              rw [hlist, List.length_cons] at hwrap
              omega
            rw [Nat.mod_eq_of_lt hlt] at hcounter
            rw [hcounter, hlist] at hrest
            refine hrest ?_
            rw [hlist] at hwrap
            omega
      -- Calls for other services, and other calls, leave the counter where it is.
      · rw [hchoice, Option.toList_none, List.nil_append] at hwrap ⊢
        rw [hcounter] at hrest
        exact hrest hwrap

/-- Round robin is fair and every selection is in range: while the upstreams of a service stay the
same and its counter does not wrap, any window of its choices has every two upstreams equally
often, up to one time. Whatever the strategy, `select_upstream` does not panic, and it selects one
of the upstreams of the service. -/
theorem roundRobin_fair :
    (∀ (lb : LoadBalancer) (service : ServiceEntry) (calls : List BalancerCall),
      2 ≤ service.allUpstreams.length →
      SameUpstreams service.id service.allUpstreams calls →
      lb.counter service.id + (lb.roundRobinChoices service.id calls).length ≤ 2 ^ 64 →
      ∀ start k, ∀ u ∈ service.allUpstreams, ∀ v ∈ service.allUpstreams,
        (((lb.roundRobinChoices service.id calls).drop start).take k).count u ≤
          (((lb.roundRobinChoices service.id calls).drop start).take k).count v + 1) ∧
      ∀ (lb : LoadBalancer) (rand : ℕ) (service : ServiceEntry) (strategy : LoadBalanceStrategy),
        ∃ upstream ∈ service.allUpstreams, ∃ lb',
          lb.trySelectUpstream rand service.id service.allUpstreams strategy =
            some (upstream, lb') := by
  constructor
  · intro lb service calls hmany hsame hwrap start k u hu v hv
    rw [lb.roundRobinChoices_eq hmany calls hsame hwrap, Cyclic.take_drop_segment]
    exact Cyclic.count_segment_le service.nodup_allUpstreams hu hv _ _
  · intro lb rand service strategy
    exact ⟨_, lb.selectUpstream_mem rand service.id strategy service.allUpstreams_ne_nil, _,
      lb.trySelectUpstream_eq rand service.id service.allUpstreams strategy⟩

/-- A service with an extra upstream, listed twice. -/
def pairService : ServiceEntry :=
  { ServiceEntry.new 1 0 "api" "/api" "http://a" "/health" with
    upstreams := ["http://b", "http://b"] }

/-- Three selections for a service, and one for another service in between. -/
def pairCalls : List BalancerCall :=
  [.select 0 1 ["http://a", "http://b"] .roundRobin,
    .select 7 2 ["http://c", "http://d"] .roundRobin,
    .select 0 1 ["http://a", "http://b"] .roundRobin,
    .select 0 1 ["http://a", "http://b"] .roundRobin]

/-- The calls for the service all name its two upstreams. -/
theorem sameUpstreams_pairCalls :
    SameUpstreams pairService.id pairService.allUpstreams pairCalls := by
  have hlist : pairService.allUpstreams = ["http://a", "http://b"] := by decide
  intro call hcall rand us heq
  subst heq
  simp only [pairCalls, List.mem_cons, BalancerCall.select.injEq, List.not_mem_nil,
    or_false] at hcall
  rw [hlist]
  rcases hcall with h | h | h | h
  · exact h.2.2.1
  · exact absurd h.2.1 (by decide)
  · exact h.2.2.1
  · exact h.2.2.1

/-- Round robin alternates between two upstreams. -/
theorem roundRobin_fair_pair :
    (((new.roundRobinChoices pairService.id pairCalls).drop 0).take 3).count "http://a" ≤
      (((new.roundRobinChoices pairService.id pairCalls).drop 0).take 3).count "http://b" + 1 :=
  roundRobin_fair.1 new pairService pairCalls (by decide) sameUpstreams_pairCalls (by decide) 0 3
    "http://a" (by decide) "http://b" (by decide)

end LoadBalancer

end XiraNet

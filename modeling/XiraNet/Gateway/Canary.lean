import Mathlib.Data.Set.Card
import XiraNet.Http
import XiraNet.Lib.CumulativePick
import XiraNet.Lib.DashMap

/-!
# Canary routing

The choice of an upstream by weights and by a header, of `gateway/canary.rs`. The weights stand in
a hash map; the order of the list here is the order in which an iteration meets them. The random
number is an argument.

## Main result

* `CanaryConfig.proportional_iff`: every upstream is chosen by as many rolls as its weight says,
  if and only if the weights add up to less than 2 ^ 32.
-/

namespace XiraNet

/-- A traffic split. -/
structure CanaryConfig where
  enabled : Bool
  /-- From the address of an upstream to its weight. -/
  weights : AList fun _ : String => UInt32
  headerName : Option String
  headerValue : Option String
  canaryUpstream : Option String

/-- The sum of two `u32`. A build with overflow checks panics where another one wraps around. -/
def addU32 (checks : Bool) (a b : UInt32) : Option UInt32 :=
  if checks = true ∧ 2 ^ 32 ≤ a.toNat + b.toNat then none else some (a + b)

namespace CanaryConfig

/-- The weights in the order of the iteration. -/
def entries (config : CanaryConfig) : List (String × UInt32) :=
  config.weights.entries.map fun e => (e.1, e.2)

/-- The loop of `select_upstream`. -/
def selectLoop (checks : Bool) (upstreams : List String) (roll : UInt32) :
    UInt32 → List (String × UInt32) → Option (Option String)
  | _, [] => some upstreams.head?
  | cumulative, (upstream, weight) :: entries => do
      let cumulative ← addU32 checks cumulative weight
      if roll < cumulative then some (some upstream)
      else selectLoop checks upstreams roll cumulative entries

/-- `self.weights.values().sum()`. -/
def sumWeights (checks : Bool) : UInt32 → List (String × UInt32) → Option UInt32
  | total, [] => some total
  | total, (_, weight) :: entries => do
      let total ← addU32 checks total weight
      sumWeights checks total entries

/-- `select_upstream`; the outer `none` is a panic. -/
def selectUpstream (checks : Bool) (config : CanaryConfig) (upstreams : List String)
    (random : UInt32) : Option (Option String) :=
  if !config.enabled || config.entries.isEmpty then some none
  else do
    let totalWeight ← sumWeights checks 0 config.entries
    if totalWeight = 0 then some none
    else selectLoop checks upstreams (random % totalWeight) 0 config.entries

/-- `check_header_routing`. -/
def checkHeaderRouting (config : CanaryConfig) (headers : HeaderMap) : Option String :=
  if !config.enabled then none
  else
    match config.headerName, config.headerValue, config.canaryUpstream with
    | some headerName, some headerValue, some canaryUpstream =>
        match (headers.get headerName).bind HeaderValue.toStr with
        | some val => if val = headerValue then some canaryUpstream else none
        | none => none
    | _, _, _ => none

end CanaryConfig

/-- `select_canary_or_lb`. -/
def selectCanaryOrLb (checks : Bool) (canary : Option CanaryConfig) (headers : HeaderMap)
    (upstreams : List String) (random : UInt32) : Option (Option String) :=
  match canary with
  | none => some none
  | some config =>
      match config.checkHeaderRouting headers with
      | some upstream => some (some upstream)
      | none => config.selectUpstream checks upstreams random

/-- A sum that fits is the sum of the numbers in every build. -/
theorem addU32_of_lt (checks : Bool) {a b : UInt32} (h : a.toNat + b.toNat < 2 ^ 32) :
    ∃ c, addU32 checks a b = some c ∧ c.toNat = a.toNat + b.toNat := by
  refine ⟨a + b, ?_, ?_⟩
  · rw [addU32, if_neg (by omega)]
  · rw [UInt32.toNat_add, Nat.mod_eq_of_lt h]

namespace CanaryConfig

/-- Weights as numbers. -/
def shares (l : List (String × UInt32)) : List (String × ℕ) := l.map fun e => (e.1, e.2.toNat)

@[simp]
theorem shares_cons (e : String × UInt32) (l : List (String × UInt32)) :
    shares (e :: l) = (e.1, e.2.toNat) :: shares l := rfl

/-- The mathematical sum of the weights. -/
def weightSum (config : CanaryConfig) : ℕ := CumulativePick.totalWeight (shares config.entries)

/-- Selection in proportion to the weights, where `W` is the mathematical sum of the weights and
the roll is the random number modulo `W`. -/
structure Proportional (checks : Bool) (config : CanaryConfig) : Prop where
  /-- Without any weight the choice is left to the load balancer. -/
  unweighted : config.weightSum = 0 →
    ∀ upstreams random, config.selectUpstream checks upstreams random = some none
  /-- An upstream with a positive weight is chosen; there is neither a panic nor a fallback. -/
  chosen : 0 < config.weightSum → ∀ random, ∃ u w, config.weights.lookup u = some w ∧ 0 < w ∧
    ∀ upstreams, config.selectUpstream checks upstreams random = some (some u)
  /-- The roll decides. -/
  of_roll : 0 < config.weightSum → ∀ upstreams (random random' : UInt32),
    random.toNat % config.weightSum = random'.toNat % config.weightSum →
    config.selectUpstream checks upstreams random = config.selectUpstream checks upstreams random'
  /-- Of the rolls below `W`, as many choose an upstream as its weight says. -/
  share : 0 < config.weightSum → ∀ upstreams u w, config.weights.lookup u = some w →
    Set.ncard {roll | roll < config.weightSum ∧ ∃ random : UInt32,
      random.toNat % config.weightSum = roll ∧
      config.selectUpstream checks upstreams random = some (some u)} = w.toNat

variable {config : CanaryConfig}

/-- The total of weights that fit. -/
theorem sumWeights_of_lt (checks : Bool) (total : UInt32) (l : List (String × UInt32))
    (h : total.toNat + CumulativePick.totalWeight (shares l) < 2 ^ 32) :
    ∃ t, sumWeights checks total l = some t ∧
      t.toNat = total.toNat + CumulativePick.totalWeight (shares l) := by
  induction l generalizing total with
  | nil => exact ⟨total, rfl, rfl⟩
  | cons e l ih =>
      rw [shares_cons, CumulativePick.totalWeight_cons] at h ⊢
      obtain ⟨c, hc, hval⟩ := addU32_of_lt checks (by omega : total.toNat + e.2.toNat < 2 ^ 32)
      obtain ⟨t, ht, hsum⟩ := ih c (by omega)
      refine ⟨t, ?_, by omega⟩
      rw [sumWeights, hc, Option.bind_eq_bind, Option.bind_some, ht]

/-- With overflow checks, weights that do not fit panic. -/
theorem sumWeights_checked (total : UInt32) (l : List (String × UInt32))
    (h : 2 ^ 32 ≤ total.toNat + CumulativePick.totalWeight (shares l)) :
    sumWeights true total l = none := by
  induction l generalizing total with
  | nil =>
      have hlt := total.toNat_lt
      exact absurd h (Nat.not_le.mpr hlt)
  | cons e l ih =>
      rw [shares_cons, CumulativePick.totalWeight_cons] at h
      rw [sumWeights]
      by_cases hc : 2 ^ 32 ≤ total.toNat + e.2.toNat
      · rw [addU32, if_pos ⟨rfl, hc⟩]
        rfl
      · obtain ⟨c, hadd, hval⟩ := addU32_of_lt true (Nat.not_le.mp hc)
        rw [hadd, Option.bind_eq_bind, Option.bind_some, ih c (by omega)]

/-- Without overflow checks the total wraps around. -/
theorem sumWeights_wrapped (total : UInt32) (l : List (String × UInt32)) :
    ∃ t, sumWeights false total l = some t ∧
      t.toNat = (total.toNat + CumulativePick.totalWeight (shares l)) % 2 ^ 32 := by
  induction l generalizing total with
  | nil => exact ⟨total, rfl, (Nat.mod_eq_of_lt total.toNat_lt).symm⟩
  | cons e l ih =>
      obtain ⟨t, ht, hsum⟩ := ih (total + e.2)
      refine ⟨t, ?_, ?_⟩
      · rw [sumWeights, addU32, if_neg (by simp)]
        exact ht
      · rw [hsum, UInt32.toNat_add, Nat.mod_add_mod, shares_cons, CumulativePick.totalWeight_cons,
          Nat.add_assoc]

/-- While the sums fit, the loop chooses by the running sum. -/
theorem selectLoop_of_lt {checks : Bool} {upstreams : List String} {roll cumulative : UInt32}
    {l : List (String × UInt32)}
    (hfit : cumulative.toNat + CumulativePick.totalWeight (shares l) < 2 ^ 32)
    (hle : cumulative.toNat ≤ roll.toNat)
    (hlt : roll.toNat < cumulative.toNat + CumulativePick.totalWeight (shares l)) :
    selectLoop checks upstreams roll cumulative l =
      some (CumulativePick.pick roll.toNat cumulative.toNat (shares l)) := by
  induction l generalizing cumulative with
  | nil => exact absurd hlt (Nat.not_lt.mpr hle)
  | cons e l ih =>
      rw [shares_cons, CumulativePick.totalWeight_cons] at hfit hlt
      obtain ⟨c, hc, hval⟩ :=
        addU32_of_lt checks (by omega : cumulative.toNat + e.2.toNat < 2 ^ 32)
      rw [selectLoop, hc, Option.bind_eq_bind, Option.bind_some, shares_cons, CumulativePick.pick,
        ← hval]
      by_cases hroll : roll.toNat < c.toNat
      · rw [if_pos (UInt32.lt_iff_toNat_lt.mpr hroll), if_pos hroll]
      · rw [if_neg (fun h => hroll (UInt32.lt_iff_toNat_lt.mp h)), if_neg hroll]
        exact ih (by omega) (by omega) (by omega)

/-- The keys of the shares are those of the map. -/
theorem keys_shares (config : CanaryConfig) :
    (shares config.entries).map Prod.fst = config.weights.keys := by
  simp [shares, entries, AList.keys, List.keys]

/-- The shares are the weights of the map. -/
theorem mem_shares_iff {u : String} {n : ℕ} :
    (u, n) ∈ shares config.entries ↔ ∃ w, config.weights.lookup u = some w ∧ w.toNat = n := by
  simp only [shares, entries, List.mem_map, exists_exists_and_eq_and, Prod.mk.injEq]
  constructor
  · rintro ⟨e, he, rfl, rfl⟩
    exact ⟨e.2, AList.mem_lookup_iff.mpr he, rfl⟩
  · rintro ⟨w, hw, rfl⟩
    exact ⟨⟨u, w⟩, AList.mem_lookup_iff.mp hw, rfl, rfl⟩

/-- What an enabled split does with its total. -/
theorem selectUpstream_eq (checks : Bool) (henabled : config.enabled = true)
    (hne : config.weights.entries ≠ []) (upstreams : List String) (random : UInt32) :
    config.selectUpstream checks upstreams random =
      (sumWeights checks 0 config.entries).bind fun total =>
        if total = 0 then some none
        else selectLoop checks upstreams (random % total) 0 config.entries := by
  have hempty : config.entries.isEmpty = false := by
    rw [entries, List.isEmpty_map, List.isEmpty_eq_false_iff]
    exact hne
  rw [selectUpstream, henabled, hempty]
  rfl

/-- While the weights fit, the roll chooses by the running sum. -/
theorem selectUpstream_of_lt (checks : Bool) (henabled : config.enabled = true)
    (hne : config.weights.entries ≠ []) (hfit : config.weightSum < 2 ^ 32)
    (upstreams : List String) (random : UInt32) :
    config.selectUpstream checks upstreams random =
      if config.weightSum = 0 then some none
      else some (CumulativePick.pick (random.toNat % config.weightSum) 0
        (shares config.entries)) := by
  obtain ⟨total, htotal, hval⟩ := sumWeights_of_lt checks 0 config.entries
    (by simpa [weightSum] using hfit)
  replace hval : total.toNat = config.weightSum := by simpa [weightSum] using hval
  rw [selectUpstream_eq checks henabled hne, htotal, Option.bind_some]
  by_cases hzero : config.weightSum = 0
  · rw [if_pos hzero, if_pos (UInt32.toNat_inj.mp (by rw [hval, hzero]; rfl))]
  · have hroll : (random % total).toNat < config.weightSum := by
      rw [UInt32.toNat_mod, hval]
      exact Nat.mod_lt _ (by omega)
    rw [if_neg hzero, if_neg (fun h => hzero (by rw [← hval, h]; rfl)),
      selectLoop_of_lt (by simpa [weightSum] using hfit) (by simp)
        (by simpa [weightSum] using hroll), UInt32.toNat_mod, hval]
    rfl

/-- Weights that fit are respected. -/
theorem proportional_of_lt (checks : Bool) (henabled : config.enabled = true)
    (hne : config.weights.entries ≠ []) (hfit : config.weightSum < 2 ^ 32) :
    config.Proportional checks := by
  have hselect := selectUpstream_of_lt checks henabled hne hfit
  refine ⟨fun hzero upstreams random => ?_, fun hpos random => ?_, fun hpos upstreams r r' h => ?_,
    fun hpos upstreams u w hw => ?_⟩
  · rw [hselect, if_pos hzero]
  · -- Some weight's interval holds the roll.
    obtain ⟨⟨u, n⟩, hmem, hn, hpick⟩ := CumulativePick.exists_pick (l := shares config.entries)
      (Nat.zero_le _) (by simpa [weightSum] using Nat.mod_lt random.toNat hpos)
    obtain ⟨w, hw, rfl⟩ := mem_shares_iff.mp hmem
    refine ⟨u, w, hw, UInt32.lt_iff_toNat_lt.mpr hn, fun upstreams => ?_⟩
    rw [hselect, if_neg hpos.ne', ← hpick]
    rfl
  · rw [hselect, hselect, h]
  · have hcount := CumulativePick.count_pick 0 (by rw [keys_shares]; exact config.weights.nodupKeys)
      (mem_shares_iff.mpr ⟨w, hw, rfl⟩)
    rw [Nat.count_eq_card_filter_range, ← Set.ncard_coe_finset] at hcount
    refine Eq.trans (congrArg Set.ncard ?_) hcount
    ext roll
    simp only [Set.mem_ofPred_eq, Finset.coe_filter, Finset.mem_range, Nat.zero_add]
    refine and_congr_right fun hroll => ⟨?_, fun hpick => ?_⟩
    · rintro ⟨random, rfl, h⟩
      rw [hselect, if_neg hpos.ne'] at h
      exact Option.some.inj h
    · -- A roll that fits is itself a random number.
      have hrandom : (UInt32.ofNat roll).toNat % config.weightSum = roll := by
        rw [UInt32.toNat_ofNat_of_lt' (by rw [UInt32.size]; omega), Nat.mod_eq_of_lt hroll]
      refine ⟨UInt32.ofNat roll, hrandom, ?_⟩
      rw [hselect, if_neg hpos.ne', hrandom, hpick]

/-- With weights that do not fit, the shares add up to no more than there are random numbers. -/
theorem weightSum_le_of_share {checks : Bool} (hge : 2 ^ 32 ≤ config.weightSum)
    (h : config.Proportional checks) : config.weightSum ≤ 2 ^ 32 := by
  have hpos : 0 < config.weightSum := by omega
  -- What a roll selects: only a random number is ever a roll.
  let f : ℕ → Option String := fun r =>
    if r < 2 ^ 32 then (config.selectUpstream checks [] (UInt32.ofNat r)).join else none
  have hshare : ∀ p ∈ shares config.entries,
      p.2 = Nat.count (fun r => f r = some p.1) config.weightSum := by
    rintro ⟨u, n⟩ hp
    obtain ⟨w, hw, rfl⟩ := mem_shares_iff.mp hp
    rw [← h.share hpos [] u w hw, Nat.count_eq_card_filter_range, ← Set.ncard_coe_finset]
    refine congrArg Set.ncard (Set.ext fun roll => ?_)
    simp only [Set.mem_ofPred_eq, Finset.coe_filter, Finset.mem_range]
    refine and_congr_right fun _ => ⟨?_, fun hf => ?_⟩
    · rintro ⟨random, hroll, hselect⟩
      have hrandom := random.toNat_lt
      rw [Nat.mod_eq_of_lt (by omega)] at hroll
      subst hroll
      simp [f, hrandom, hselect]
    · obtain ⟨hlt, hf⟩ : roll < 2 ^ 32 ∧
          (config.selectUpstream checks [] (UInt32.ofNat roll)).join = some u := by
        simpa [f] using hf
      refine ⟨UInt32.ofNat roll, ?_, Option.join_eq_some_iff.mp hf⟩
      rw [UInt32.toNat_ofNat_of_lt' hlt, Nat.mod_eq_of_lt (by omega)]
  calc config.weightSum
      = ((shares config.entries).map fun p =>
          Nat.count (fun r => f r = some p.1) config.weightSum).sum :=
        congrArg List.sum (List.map_congr_left hshare)
    _ = (config.weights.keys.map fun u =>
          Nat.count (fun r => f r = some u) config.weightSum).sum := by
        rw [← keys_shares, List.map_map]
        rfl
    _ ≤ Nat.count (fun r => (f r).isSome) config.weightSum :=
        CumulativePick.sum_count_le f _ config.weights.nodupKeys
    _ ≤ 2 ^ 32 := by
        refine CumulativePick.count_le_of_lt (fun r hr => ?_) _
        by_contra hlt
        rw [show f r = none from if_neg hlt] at hr
        cases hr

/-- Weights that do not fit are not respected: the total panics or wraps around, and there are
fewer random numbers than rolls. -/
theorem lt_of_proportional {checks : Bool} (henabled : config.enabled = true)
    (hne : config.weights.entries ≠ []) (h : config.Proportional checks) :
    config.weightSum < 2 ^ 32 := by
  by_contra hge
  rw [Nat.not_lt] at hge
  have hpos : 0 < config.weightSum := by omega
  have hselect := selectUpstream_eq checks henabled hne []
  obtain ⟨u, w, -, -, hchosen⟩ := h.chosen hpos 0
  cases checks with
  | true =>
      have hsum := sumWeights_checked 0 config.entries
        (by simpa [weightSum] using hge)
      have hnone := hchosen []
      rw [hselect, hsum] at hnone
      cases hnone
  | false =>
      -- Only a total of 2 ^ 32 is left, and it wraps around to zero.
      have hsum : config.weightSum = 2 ^ 32 := le_antisymm (weightSum_le_of_share hge h) hge
      obtain ⟨t, ht, hval⟩ := sumWeights_wrapped 0 config.entries
      have hzero : t = 0 := by
        apply UInt32.toNat_inj.mp
        calc t.toNat = (0 + config.weightSum) % 2 ^ 32 := hval
          _ = 0 := by rw [hsum, Nat.zero_add, Nat.mod_self]
      have hnone := hchosen []
      rw [hselect, ht, Option.bind_some, if_pos hzero] at hnone
      cases hnone

/-- Every upstream is chosen by as many rolls as its weight says, and nothing panics or falls
back, exactly if the weights add up to a `u32`. -/
theorem proportional_iff (checks : Bool) (config : CanaryConfig)
    (henabled : config.enabled = true) (hne : config.weights.entries ≠ []) :
    config.Proportional checks ↔ config.weightSum < 2 ^ 32 :=
  ⟨lt_of_proportional henabled hne, proportional_of_lt checks henabled hne⟩

/-- The header only ever routes to the canary. -/
theorem checkHeaderRouting_eq_some {headers : HeaderMap} {u : String}
    (h : config.checkHeaderRouting headers = some u) : config.canaryUpstream = some u := by
  unfold checkHeaderRouting at h
  split at h
  next => cases h
  next =>
      split at h
      next hcanary =>
          split at h
          next =>
              split at h
              next => rw [hcanary, h]
              next => cases h
          next => cases h
      next => cases h

/-- While the weights fit there is no panic, and what is selected has a positive weight. -/
theorem selectUpstream_cases (checks : Bool) (hfit : config.weightSum < 2 ^ 32)
    (upstreams : List String) (random : UInt32) :
    config.selectUpstream checks upstreams random = some none ∨
      ∃ u w, config.weights.lookup u = some w ∧ 0 < w ∧
        config.selectUpstream checks upstreams random = some (some u) := by
  by_cases hidle : config.enabled = false ∨ config.weights.entries = []
  · refine .inl ?_
    rcases hidle with h | h
    · simp [selectUpstream, h]
    · simp [selectUpstream, entries, h]
  · rw [not_or, Bool.not_eq_false] at hidle
    have hprop := proportional_of_lt checks hidle.1 hidle.2 hfit
    rcases Nat.eq_zero_or_pos config.weightSum with hzero | hpos
    · exact .inl (hprop.unweighted hzero upstreams random)
    · obtain ⟨u, w, hw, hw0, hu⟩ := hprop.chosen hpos random
      exact .inr ⟨u, w, hw, hw0, hu upstreams⟩

/-- What is chosen for a request is the canary, or an upstream with a positive weight. -/
theorem selectCanaryOrLb_cases (checks : Bool) (hfit : config.weightSum < 2 ^ 32)
    (headers : HeaderMap) (upstreams : List String) (random : UInt32) :
    ∃ choice, selectCanaryOrLb checks (some config) headers upstreams random = some choice ∧
      ∀ u ∈ choice, config.canaryUpstream = some u ∨
        ∃ w, config.weights.lookup u = some w ∧ 0 < w := by
  cases hheader : config.checkHeaderRouting headers with
  | some upstream =>
      simp only [selectCanaryOrLb, hheader]
      refine ⟨some upstream, rfl, fun u hu => .inl ?_⟩
      rw [checkHeaderRouting_eq_some hheader, Option.mem_def.mp hu]
  | none =>
      simp only [selectCanaryOrLb, hheader]
      rcases selectUpstream_cases checks hfit upstreams random with
        hnone | ⟨v, w, hw, hw0, hv⟩
      · exact ⟨none, hnone, fun u hu => by cases hu⟩
      · refine ⟨some v, hv, fun u hu => .inr ⟨w, ?_, hw0⟩⟩
        rw [← Option.some.inj hu, hw]

/-- A split of nine to one. -/
def nineToOne : CanaryConfig where
  enabled := true
  weights := ⟨[⟨"http://stable", 90⟩, ⟨"http://canary", 10⟩], by simp⟩
  headerName := none
  headerValue := none
  canaryUpstream := none

/-- The split of nine to one is respected, with and without overflow checks. -/
theorem proportional_nineToOne :
    nineToOne.Proportional true ∧ nineToOne.Proportional false :=
  ⟨(proportional_iff true nineToOne rfl (by decide)).mpr (by decide),
    (proportional_iff false nineToOne rfl (by decide)).mpr (by decide)⟩

/-- Two upstreams with a weight of 2 ^ 31 each. -/
def halves : CanaryConfig where
  enabled := true
  weights := ⟨[⟨"http://stable", 2147483648⟩, ⟨"http://canary", 2147483648⟩], by simp⟩
  headerName := none
  headerValue := none
  canaryUpstream := none

/-- The equal split is respected in no build: with overflow checks the total panics, and without
them it is zero and nothing is selected. -/
theorem proportional_fails :
    halves.enabled = true ∧ halves.weights.entries ≠ [] ∧ ¬ halves.Proportional true ∧
      ¬ halves.Proportional false ∧ halves.selectUpstream true ["http://stable"] 0 = none ∧
      halves.selectUpstream false ["http://stable"] 0 = some none := by
  have hsum : ¬ halves.weightSum < 2 ^ 32 := by decide
  exact ⟨rfl, by decide, fun h => hsum (lt_of_proportional rfl (by decide) h),
    fun h => hsum (lt_of_proportional rfl (by decide) h), by decide, by decide⟩

end CanaryConfig

end XiraNet

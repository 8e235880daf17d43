import XiraNet.Lib.DashMap
import XiraNet.Middleware.WafRules

/-!
# The counter of the rule ids

The calls to one firewall that run at the same time, by the steps that others can come between: a
`fetch_add`, a `load` or a `store` of the counter, or an update of the list under its lock. The id
of a rule is drawn before the lock is taken, and the counter is moved past the id of a rule from
another node by a `load` and a `store`.

* `inv_step`: a step that meets the condition keeps the ids apart.
* `tellsTruth_of_runs`: over every run of such steps what `add_custom_pattern` returned is true.
* `tellsTruth_fails`: a rule from another node takes the id that a local call has drawn.
-/

namespace XiraNet

/-- A call that is running. A rule is `own` when its id was drawn from the counter of this node. -/
inductive WafCall
  /-- The pattern has compiled, and the call waits for the lock. -/
  | adding (id : ℕ) (pattern : Regex) (patternSrc label : String) (own : Bool)
  /-- The rule is in the list, and the call holds the lock. -/
  | installed (id : ℕ) (patternSrc label : String) (own : Bool)
  /-- The counter was loaded and is to be moved past the id. -/
  | loaded (id : ℕ) (patternSrc label : String) (own : Bool)
  /-- `load_custom_patterns_from_strings`, with the patterns left and the rules compiled. -/
  | loading (patterns : List String) (compiled : List CustomRule)

namespace WafCall

/-- The ids that a call has drawn and not given away. -/
def drawn : WafCall → List ℕ
  | .adding id _ _ _ own | .installed id _ _ own | .loaded id _ _ own => if own then [id] else []
  | .loading _ compiled => compiled.map (·.id)

/-- A call that is going to update the list for an id that it has drawn. -/
def Awaits (id : ℕ) : WafCall → Prop
  | .adding id' _ _ _ own => id' = id ∧ own = true
  | _ => False

/-- A call that holds the lock behind the update of the list. -/
def Holds (id : ℕ) : WafCall → Prop
  | .installed id' _ _ _ | .loaded id' _ _ _ => id' = id
  | _ => False

/-- A call that is going to store the counter. -/
def Stores (id : ℕ) : WafCall → Prop
  | .loaded id' _ _ _ => id' = id
  | _ => False

/-- A call for a rule from another node. -/
def Foreign (id : ℕ) : WafCall → Prop
  | .adding id' _ _ _ own | .installed id' _ _ own | .loaded id' _ _ own => id' = id ∧ own = false
  | .loading _ _ => False

instance (id : ℕ) : (c : WafCall) → Decidable (c.Awaits id)
  | .adding id' _ _ _ own => inferInstanceAs (Decidable (id' = id ∧ own = true))
  | .installed .. | .loaded .. | .loading .. => .isFalse fun h => h

/-- What stores the counter holds the lock. -/
theorem Stores.holds {id : ℕ} {c : WafCall} (h : c.Stores id) : c.Holds id := by
  cases c with
  | loaded => exact h
  | adding => cases h
  | installed => cases h
  | loading => cases h

/-- What a call awaits it has drawn. -/
theorem Awaits.mem_drawn {id : ℕ} {c : WafCall} (h : c.Awaits id) : id ∈ c.drawn := by
  cases c with
  | adding =>
      obtain ⟨rfl, rfl⟩ := h
      exact List.mem_singleton_self _
  | installed => cases h
  | loaded => cases h
  | loading => cases h

end WafCall

/-- A firewall with the calls to it. -/
structure WafCalls where
  node : WafNode
  calls : DashMap ℕ WafCall
  /-- The call that holds the lock of the list. -/
  lock : Option ℕ
  /-- What the local calls returned `Ok` for. -/
  returned : List RuleEntry
  /-- The rules of the local calls, once the list was updated for them, as long as neither a removal
  of the id nor a load follows. -/
  current : List RuleEntry

/-- A call, or the next step of one; the clock only dates a rule. -/
inductive WafCallAction
  /-- `add_custom_pattern`, or `apply_add_pattern`, which publishes no event. -/
  | add (call : ℕ) (patternSrc label : String)
  /-- `apply_add_pattern_with_id`. -/
  | applyWithId (call id : ℕ) (patternSrc label : String)
  /-- `apply_remove_pattern`. -/
  | remove (id : ℕ)
  /-- `load_custom_patterns_from_strings`. -/
  | load (call : ℕ) (patterns : List String)
  | advance (call now : ℕ)
  deriving DecidableEq, Repr

namespace WafCalls

/-- `fetch_add`. -/
def fetchAdd (s : WafCalls) : WafCalls :=
  { s with node := { s.node with nextRuleId := wrappingAdd s.node.nextRuleId 1 } }

/-- The list of rules is replaced. -/
def setRules (s : WafCalls) (rules : List CustomRule) : WafCalls :=
  { s with node := { s.node with waf := { s.node.waf with customPatterns := rules } } }

/-- The list is up to date with a call. -/
def updated (s : WafCalls) (id : ℕ) (patternSrc label : String) (own : Bool) : WafCalls :=
  { s with
    current := if own then ⟨id, patternSrc, WafNode.storedLabel label⟩ :: s.current else s.current }

/-- A call puts its rule into the list and keeps the lock. -/
def install (s : WafCalls) (call now id : ℕ) (re : Regex) (patternSrc label : String)
    (own : Bool) : WafCalls :=
  let rule : CustomRule :=
    { id, patternSrc, pattern := re, label := WafNode.storedLabel label, createdAt := now }
  { s.setRules (s.node.waf.customPatterns ++ [rule]) with
    lock := some call
    calls := s.calls.insert call (.installed id patternSrc label own) }

/-- A call returns `Ok`. -/
def finish (s : WafCalls) (call id : ℕ) (patternSrc label : String) (own : Bool) : WafCalls :=
  { s with
    calls := s.calls.erase call
    returned :=
      if own then ⟨id, patternSrc, WafNode.storedLabel label⟩ :: s.returned else s.returned }

variable (compile : String → Except String Regex)

/-- The next step of a call. -/
def advance (s : WafCalls) (call now : ℕ) : WafCall → Option WafCalls
  | .adding id re patternSrc label own =>
      if s.lock = none then
        let s := s.updated id patternSrc label own
        -- A known id is taken for an echo, also where it was drawn here.
        if s.node.waf.customPatterns.any (·.id = id) then
          some (s.finish call id patternSrc label own)
        else some (s.install call now id re patternSrc label own)
      else none
  | .installed id patternSrc label own =>
      some (
        if s.node.nextRuleId ≤ id then
          { s with calls := s.calls.insert call (.loaded id patternSrc label own) }
        else { s.finish call id patternSrc label own with lock := none })
  | .loaded id patternSrc label own =>
      some { s.finish call id patternSrc label own with
        node := { s.node with nextRuleId := wrappingAdd id 1 }
        lock := none }
  | .loading (src :: rest) compiled =>
      match compile src with
      | .error _ => some { s with calls := s.calls.insert call (.loading rest compiled) }
      | .ok re =>
          let rule : CustomRule :=
            { id := s.node.nextRuleId, patternSrc := src, pattern := re, label := "CUSTOM"
              createdAt := now }
          some { s.fetchAdd with
            calls := s.calls.insert call (.loading rest (compiled ++ [rule])) }
  | .loading [] compiled =>
      if s.lock = none then
        some { s.setRules compiled with calls := s.calls.erase call, current := [] }
      else none

/-- One step. The ids of other nodes are less than 2^63. -/
def step (s : WafCalls) : WafCallAction → Option WafCalls
  | .add call patternSrc label =>
      if s.calls.lookup call = none then
        match compile patternSrc with
        -- The id is drawn before the pattern is compiled.
        | .error _ => some s.fetchAdd
        | .ok re => some { s.fetchAdd with
            calls := s.calls.insert call (.adding s.node.nextRuleId re patternSrc label true) }
      else none
  | .applyWithId call id patternSrc label =>
      if s.calls.lookup call = none ∧ id < 2 ^ 63 then
        match compile patternSrc with
        | .error _ => some s
        | .ok re => some { s with
            calls := s.calls.insert call (.adding id re patternSrc label false) }
      else none
  | .remove id =>
      if s.lock = none then
        some { s with
          node := (s.node.applyRemovePattern id).2
          current := s.current.filter (·.id ≠ id) }
      else none
  | .load call patterns =>
      if s.calls.lookup call = none then
        some { s with calls := s.calls.insert call (.loading patterns []) }
      else none
  | .advance call now => (s.calls.lookup call).bind fun c => s.advance compile call now c

/-- A firewall to which no call was made. -/
def initial (waf : Waf) : WafCalls := ⟨.new waf, ∅, none, [], []⟩

/-- Calls that run at the same time. -/
def machine : Machine WafCalls WafCallAction := ⟨step compile⟩

/-- A rule for which a local call returned `Ok` is the one rule with its id, unless the id was
removed or the list was loaded since; and no two local calls returned the same id. -/
def TellsTruth (s : WafCalls) : Prop :=
  (∀ r ∈ s.returned, r ∈ s.current → s.node.rules.filter (·.id = r.id) = [r]) ∧
    (s.returned.map (·.id)).Nodup

/-- The counter shows an id that no rule in the list has, and it does not wrap. -/
def DrawsFresh (s : WafCalls) : Prop :=
  (∀ r ∈ s.node.rules, r.id ≠ s.node.nextRuleId) ∧ s.node.nextRuleId + 1 < 2 ^ 64

instance (s : WafCalls) : Decidable s.DrawsFresh := inferInstanceAs (Decidable (_ ∧ _))

/-- A rule from another node takes no id that a local call has drawn for a rule it has yet to put
into the list, and a load draws an id that is not in the list. -/
def AdvancesApart (s : WafCalls) : Option WafCall → Prop
  | some (.adding id _ _ _ false) => ∀ c ∈ s.calls.values, ¬ c.Awaits id
  | some (.loading (src :: _) _) => (compile src).isOk → s.DrawsFresh
  | _ => True

/-- The steps after which the ids are still apart. -/
def KeepsApart (s : WafCalls) : WafCallAction → Prop
  | .add _ _ _ => s.DrawsFresh
  | .advance call _ => s.AdvancesApart compile (s.calls.lookup call)
  | _ => True

instance (s : WafCalls) : (c : Option WafCall) → Decidable (s.AdvancesApart compile c)
  | some (.adding id _ _ _ false) =>
      inferInstanceAs (Decidable (∀ c ∈ s.calls.values, ¬ c.Awaits id))
  | some (.loading (src :: _) _) =>
      inferInstanceAs (Decidable ((compile src).isOk → s.DrawsFresh))
  | none | some (.adding _ _ _ _ true) | some (.installed ..) | some (.loaded ..)
  | some (.loading [] _) => .isTrue trivial

instance (s : WafCalls) : (a : WafCallAction) → Decidable (s.KeepsApart compile a)
  | .add _ _ _ => inferInstanceAs (Decidable s.DrawsFresh)
  | .advance call _ =>
      inferInstanceAs (Decidable (s.AdvancesApart compile (s.calls.lookup call)))
  | .applyWithId .. | .remove .. | .load .. => .isTrue trivial

/-- The ids in the list, the ids that calls have drawn and the ids that were returned. -/
structure Inv (s : WafCalls) : Prop where
  rules : (s.node.rules.map (·.id)).Nodup
  /-- The counter is past every rule but the one it is about to be moved past. -/
  below : ∀ r ∈ s.node.rules, r.id < s.node.nextRuleId ∨
    ∃ call c, s.calls.lookup call = some c ∧ c.Holds r.id
  drawn : ∀ call c, s.calls.lookup call = some c → ∀ id ∈ c.drawn,
    id < s.node.nextRuleId ∧ ∀ r ∈ s.returned, r.id ≠ id
  apart : ∀ call call' c c', s.calls.lookup call = some c → s.calls.lookup call' = some c' →
    ∀ id ∈ c.drawn, id ∈ c'.drawn → call = call'
  nodup : ∀ call c, s.calls.lookup call = some c → c.drawn.Nodup
  awaits : ∀ call c id, s.calls.lookup call = some c → c.Awaits id → ∀ r ∈ s.node.rules, r.id ≠ id
  /-- Only the call that holds the lock is behind its update of the list. -/
  holds : ∀ call c id, s.calls.lookup call = some c → c.Holds id →
    s.lock = some call ∧ ∃ r ∈ s.node.rules, r.id = id
  stores : ∀ call c id, s.calls.lookup call = some c → c.Stores id →
    s.node.nextRuleId ≤ id ∧ id + 1 < 2 ^ 64
  foreign : ∀ call c id, s.calls.lookup call = some c → c.Foreign id → id < 2 ^ 63
  past : ∀ r ∈ s.returned, r.id < s.node.nextRuleId
  returned : (s.returned.map (·.id)).Nodup
  current : ∀ r ∈ s.current, r ∈ s.node.rules

variable {compile}

/-- While nobody has the lock, no call is behind its update of the list. -/
theorem Inv.not_holds {s : WafCalls} (hs : s.Inv) (hlock : s.lock = none) (call : ℕ) (c : WafCall)
    (id : ℕ) (hc : s.calls.lookup call = some c) : ¬ c.Holds id := by
  intro hid
  have hlocked := (hs.holds call c id hc hid).1
  rw [hlock] at hlocked
  cases hlocked

/-- While nobody else has the lock, no other call is behind its update of the list. -/
theorem Inv.not_holds_of_ne {s : WafCalls} (hs : s.Inv) {call call' : ℕ} {c' : WafCall} {id : ℕ}
    (hlock : s.lock = none ∨ s.lock = some call) (hne : call' ≠ call)
    (hc' : s.calls.lookup call' = some c') : ¬ c'.Holds id := by
  intro hid
  have hlocked := (hs.holds call' c' id hc' hid).1
  rcases hlock with hnone | hsome
  · rw [hnone] at hlocked
    cases hlocked
  · rw [hsome] at hlocked
    exact hne (Option.some.inj hlocked).symm

/-- While nobody has the lock, the counter is past every rule. -/
theorem Inv.below_of_unlocked {s : WafCalls} (hs : s.Inv) (hlock : s.lock = none) {r : RuleEntry}
    (hr : r ∈ s.node.rules) : r.id < s.node.nextRuleId := by
  rcases hs.below r hr with hlt | ⟨call, c, hc, hid⟩
  · exact hlt
  · exact absurd hid (hs.not_holds hlock call c _ hc)

/-- The counter is past every rule but that of the call that has the lock. -/
theorem Inv.below_or_holds {s : WafCalls} (hs : s.Inv) {call : ℕ} {c : WafCall}
    (hc : s.calls.lookup call = some c) (hlock : s.lock = some call) {r : RuleEntry}
    (hr : r ∈ s.node.rules) : r.id < s.node.nextRuleId ∨ c.Holds r.id := by
  refine (hs.below r hr).imp_right ?_
  rintro ⟨call', c', hc', hid⟩
  obtain rfl := Option.some.inj ((hs.holds call' c' _ hc' hid).1.symm.trans hlock)
  cases hc.symm.trans hc'
  exact hid

/-- What a call has drawn was returned by none and drawn by no other. -/
theorem Inv.drawn_apart {s : WafCalls} (hs : s.Inv) {call : ℕ} {c : WafCall}
    (hc : s.calls.lookup call = some c) {id : ℕ} (hid : id ∈ c.drawn) :
    id < s.node.nextRuleId ∧ (∀ r ∈ s.returned, r.id ≠ id) ∧
      ∀ call' c', call' ≠ call → s.calls.lookup call' = some c' → id ∉ c'.drawn := by
  obtain ⟨hlt, hreturned⟩ := hs.drawn call c hc id hid
  refine ⟨hlt, hreturned, fun call' c' hne hc' hmem => ?_⟩
  exact hne (hs.apart call' call c' c hc' hc id hmem hid)

/-- A call that begins or moves on without touching the list. -/
theorem Inv.insert {s : WafCalls} (hs : s.Inv) {call : ℕ} {c : WafCall}
    (hdrawn : ∀ id ∈ c.drawn, id < s.node.nextRuleId ∧ (∀ r ∈ s.returned, r.id ≠ id) ∧
      ∀ call' c', call' ≠ call → s.calls.lookup call' = some c' → id ∉ c'.drawn)
    (hnodup : c.drawn.Nodup) (hawaits : ∀ id, c.Awaits id → ∀ r ∈ s.node.rules, r.id ≠ id)
    (hholds : ∀ id, c.Holds id → ∃ old, s.calls.lookup call = some old ∧ old.Holds id)
    (hkeeps : ∀ old id, s.calls.lookup call = some old → old.Holds id → c.Holds id)
    (hstores : ∀ id, c.Stores id → s.node.nextRuleId ≤ id ∧ id + 1 < 2 ^ 64)
    (hforeign : ∀ id, c.Foreign id → id < 2 ^ 63) :
    Inv { s with calls := s.calls.insert call c } where
  rules := hs.rules
  below := by
    intro r hr
    refine (hs.below r hr).imp_right ?_
    rintro ⟨call', c', hc', hholds'⟩
    by_cases heq : call' = call
    · subst heq
      exact ⟨call', c, AList.lookup_insert _, hkeeps c' _ hc' hholds'⟩
    · exact ⟨call', c', (AList.lookup_insert_ne heq).trans hc', hholds'⟩
  drawn := by
    intro call' c' hc' id hid
    rcases DashMap.lookup_insert_cases hc' with ⟨-, rfl⟩ | ⟨-, hc'⟩
    · exact ⟨(hdrawn id hid).1, (hdrawn id hid).2.1⟩
    · exact hs.drawn call' c' hc' id hid
  apart := by
    intro call₁ call₂ c₁ c₂ hc₁ hc₂ id hid₁ hid₂
    rcases DashMap.lookup_insert_cases hc₁ with ⟨rfl, rfl⟩ | ⟨hne₁, hold₁⟩
    · rcases DashMap.lookup_insert_cases hc₂ with ⟨rfl, rfl⟩ | ⟨hne₂, hold₂⟩
      · rfl
      · exact absurd hid₂ ((hdrawn id hid₁).2.2 call₂ c₂ hne₂ hold₂)
    · rcases DashMap.lookup_insert_cases hc₂ with ⟨rfl, rfl⟩ | ⟨-, hold₂⟩
      · exact absurd hid₁ ((hdrawn id hid₂).2.2 call₁ c₁ hne₁ hold₁)
      · exact hs.apart call₁ call₂ c₁ c₂ hold₁ hold₂ id hid₁ hid₂
  nodup := by
    intro call' c' hc'
    rcases DashMap.lookup_insert_cases hc' with ⟨-, rfl⟩ | ⟨-, hc'⟩
    · exact hnodup
    · exact hs.nodup call' c' hc'
  awaits := by
    intro call' c' id hc' hid
    rcases DashMap.lookup_insert_cases hc' with ⟨-, rfl⟩ | ⟨-, hc'⟩
    · exact hawaits id hid
    · exact hs.awaits call' c' id hc' hid
  holds := by
    intro call' c' id hc' hid
    rcases DashMap.lookup_insert_cases hc' with ⟨rfl, rfl⟩ | ⟨-, hc'⟩
    · obtain ⟨old, hold, hid⟩ := hholds id hid
      exact hs.holds call' old id hold hid
    · exact hs.holds call' c' id hc' hid
  stores := by
    intro call' c' id hc' hid
    rcases DashMap.lookup_insert_cases hc' with ⟨-, rfl⟩ | ⟨-, hc'⟩
    · exact hstores id hid
    · exact hs.stores call' c' id hc' hid
  foreign := by
    intro call' c' id hc' hid
    rcases DashMap.lookup_insert_cases hc' with ⟨-, rfl⟩ | ⟨-, hc'⟩
    · exact hforeign id hid
    · exact hs.foreign call' c' id hc' hid
  past := hs.past
  returned := hs.returned
  current := hs.current

/-- Drawing an id that is not in the list. -/
theorem Inv.fetchAdd {s : WafCalls} (hs : s.Inv) (hfresh : s.DrawsFresh) :
    s.fetchAdd.node.nextRuleId = s.node.nextRuleId + 1 ∧ s.fetchAdd.Inv := by
  have hnext : s.fetchAdd.node.nextRuleId = s.node.nextRuleId + 1 := Nat.mod_eq_of_lt hfresh.2
  refine ⟨hnext, { hs with
    below := fun r hr => (hs.below r hr).imp_left fun hlt => ?_
    drawn := fun call c hc id hid => ⟨?_, (hs.drawn call c hc id hid).2⟩
    stores := fun call c id hc hid => ⟨?_, (hs.stores call c id hc hid).2⟩
    past := fun r hr => ?_ }⟩
  · rw [hnext]
    exact Nat.lt_succ_of_lt hlt
  · rw [hnext]
    exact Nat.lt_succ_of_lt (hs.drawn call c hc id hid).1
  · -- The id that the counter is about to be moved past is in the list, so it is not drawn.
    obtain ⟨-, r, hr, rfl⟩ := hs.holds call c id hc hid.holds
    have hne := hfresh.1 r hr
    have hle := (hs.stores call c r.id hc hid).1
    rw [hnext]
    omega
  · rw [hnext]
    exact Nat.lt_succ_of_lt (hs.past r hr)

/-- A call returns `Ok` and gives the lock back, when the counter is past every rule. -/
theorem Inv.finish {s : WafCalls} (hs : s.Inv) {call id next : ℕ} {c : WafCall}
    (patternSrc label : String) {own : Bool} (hc : s.calls.lookup call = some c)
    (hlock : s.lock = none ∨ s.lock = some call) (hown : own = true → id ∈ c.drawn)
    (hnext : s.node.nextRuleId ≤ next) (hbelow : ∀ r ∈ s.node.rules, r.id < next) :
    Inv { s.finish call id patternSrc label own with
      node := { s.node with nextRuleId := next }, lock := none } where
  rules := hs.rules
  below := fun r hr => .inl (hbelow r hr)
  drawn := by
    intro call' c' hc' id' hid'
    obtain ⟨hne, hold⟩ := DashMap.lookup_erase_cases hc'
    obtain ⟨hlt, hreturned⟩ := hs.drawn call' c' hold id' hid'
    refine ⟨hlt.trans_le hnext, fun r hr => ?_⟩
    simp only [WafCalls.finish] at hr
    split at hr
    next hown' =>
      rcases List.mem_cons.mp hr with rfl | hr
      · rintro rfl
        exact hne (hs.apart call' call c' c hold hc id hid' (hown hown'))
      · exact hreturned r hr
    next => exact hreturned r hr
  apart := by
    intro call₁ call₂ c₁ c₂ hc₁ hc₂
    exact hs.apart call₁ call₂ c₁ c₂ (DashMap.lookup_erase_cases hc₁).2
      (DashMap.lookup_erase_cases hc₂).2
  nodup := fun call' c' hc' => hs.nodup call' c' (DashMap.lookup_erase_cases hc').2
  awaits := fun call' c' id' hc' => hs.awaits call' c' id' (DashMap.lookup_erase_cases hc').2
  holds := by
    intro call' c' id' hc' hid'
    obtain ⟨hne, hold⟩ := DashMap.lookup_erase_cases hc'
    exact absurd hid' (hs.not_holds_of_ne hlock hne hold)
  stores := by
    intro call' c' id' hc' hid'
    obtain ⟨hne, hold⟩ := DashMap.lookup_erase_cases hc'
    exact absurd hid'.holds (hs.not_holds_of_ne hlock hne hold)
  foreign := fun call' c' id' hc' => hs.foreign call' c' id' (DashMap.lookup_erase_cases hc').2
  past := by
    intro r hr
    simp only [WafCalls.finish] at hr
    split at hr
    next hown' =>
      rcases List.mem_cons.mp hr with rfl | hr
      · exact (hs.drawn call c hc id (hown hown')).1.trans_le hnext
      · exact (hs.past r hr).trans_le hnext
    next => exact (hs.past r hr).trans_le hnext
  returned := by
    simp only [WafCalls.finish]
    split
    next hown' =>
      refine List.nodup_cons.mpr ⟨fun hmem => ?_, hs.returned⟩
      obtain ⟨r, hr, hid⟩ := List.mem_map.mp hmem
      exact (hs.drawn call c hc id (hown hown')).2 r hr hid
    next => exact hs.returned
  current := hs.current

/-- The rules after one was put into the list. -/
theorem rules_install (s : WafCalls) (call now id : ℕ) (re : Regex) (patternSrc label : String)
    (own : Bool) :
    (s.install call now id re patternSrc label own).node.rules =
      s.node.rules ++ [⟨id, patternSrc, WafNode.storedLabel label⟩] := by
  simp [install, setRules, WafNode.rules]

/-- A call that puts its rule into the list has drawn what it had drawn before. -/
theorem drawn_installed {s : WafCalls} {call id : ℕ} {re : Regex} {patternSrc label : String}
    {own : Bool} (hc : s.calls.lookup call = some (.adding id re patternSrc label own))
    {call' : ℕ} {c' : WafCall}
    (hc' : (s.calls.insert call (.installed id patternSrc label own)).lookup call' = some c') :
    ∃ old, s.calls.lookup call' = some old ∧ c'.drawn = old.drawn := by
  rcases DashMap.lookup_insert_cases hc' with ⟨rfl, rfl⟩ | ⟨-, hold⟩
  · exact ⟨_, hc, rfl⟩
  · exact ⟨c', hold, rfl⟩

/-- A rule is put into the list. -/
theorem Inv.install {s : WafCalls} (hs : s.Inv) {call now id : ℕ} {re : Regex}
    {patternSrc label : String} {own : Bool}
    (hc : s.calls.lookup call = some (.adding id re patternSrc label own)) (hlock : s.lock = none)
    (hnew : ∀ r ∈ s.node.rules, r.id ≠ id)
    (hother : own = false → ∀ c ∈ s.calls.values, ¬ c.Awaits id) :
    ((s.updated id patternSrc label own).install call now id re patternSrc label own).Inv := by
  have hnone := hs.not_holds hlock
  have hrules :=
    rules_install (s.updated id patternSrc label own) call now id re patternSrc label own
  exact
    { rules := by
        rw [hrules, List.map_append]
        refine List.nodup_append.mpr ⟨hs.rules, List.nodup_singleton _, ?_⟩
        intro id₁ hid₁ id₂ hid₂
        obtain ⟨r, hr, rfl⟩ := List.mem_map.mp hid₁
        rw [List.mem_singleton.mp hid₂]
        exact hnew r hr
      below := by
        intro r hr
        rw [hrules] at hr
        rcases List.mem_append.mp hr with hr | hr
        · exact .inl (hs.below_of_unlocked hlock hr)
        · rw [List.mem_singleton.mp hr]
          exact .inr ⟨call, _, AList.lookup_insert _, rfl⟩
      drawn := by
        intro call' c' hc' id' hid'
        obtain ⟨old, hold, heq⟩ := drawn_installed hc hc'
        exact hs.drawn call' old hold id' (heq ▸ hid')
      apart := by
        intro call₁ call₂ c₁ c₂ hc₁ hc₂ id' hid₁ hid₂
        obtain ⟨old₁, hold₁, heq₁⟩ := drawn_installed hc hc₁
        obtain ⟨old₂, hold₂, heq₂⟩ := drawn_installed hc hc₂
        exact hs.apart call₁ call₂ old₁ old₂ hold₁ hold₂ id' (heq₁ ▸ hid₁) (heq₂ ▸ hid₂)
      nodup := by
        intro call' c' hc'
        obtain ⟨old, hold, heq⟩ := drawn_installed hc hc'
        rw [heq]
        exact hs.nodup call' old hold
      awaits := by
        intro call' c' id' hc' hid' r hr
        rcases DashMap.lookup_insert_cases hc' with ⟨-, rfl⟩ | ⟨hne, hold⟩
        · cases hid'
        rw [hrules] at hr
        rcases List.mem_append.mp hr with hr | hr
        · exact hs.awaits call' c' id' hold hid' r hr
        rw [List.mem_singleton.mp hr]
        rintro rfl
        cases own with
        | false => exact hother rfl c' ((DashMap.mem_values_iff _ _).mpr ⟨call', hold⟩) hid'
        | true =>
            -- Two calls do not draw the same id.
            refine hne (hs.apart call' call c' _ hold hc id ?_ (List.mem_singleton_self id))
            exact hid'.mem_drawn
      holds := by
        intro call' c' id' hc' hid'
        rcases DashMap.lookup_insert_cases hc' with ⟨rfl, rfl⟩ | ⟨-, hold⟩
        · refine ⟨rfl, ⟨id, patternSrc, WafNode.storedLabel label⟩, ?_, hid'⟩
          rw [hrules]
          exact List.mem_append_right _ (List.mem_singleton_self _)
        · exact absurd hid' (hnone call' c' id' hold)
      stores := by
        intro call' c' id' hc' hid'
        rcases DashMap.lookup_insert_cases hc' with ⟨-, rfl⟩ | ⟨-, hold⟩
        · cases hid'
        · exact absurd hid'.holds (hnone call' c' id' hold)
      foreign := by
        intro call' c' id' hc' hid'
        rcases DashMap.lookup_insert_cases hc' with ⟨-, rfl⟩ | ⟨-, hold⟩
        · exact hs.foreign call _ id' hc hid'
        · exact hs.foreign call' c' id' hold hid'
      past := hs.past
      returned := hs.returned
      current := by
        intro r hr
        rw [hrules]
        refine List.mem_append.mpr ?_
        simp only [WafCalls.install, updated, setRules] at hr
        split at hr
        next =>
          rcases List.mem_cons.mp hr with rfl | hr
          · exact .inr (List.mem_singleton_self _)
          · exact .inl (hs.current r hr)
        next => exact .inl (hs.current r hr) }

/-- A list without some of its rules. -/
theorem Inv.remove {s : WafCalls} (hs : s.Inv) (hlock : s.lock = none) (id : ℕ) :
    Inv { s with
      node := (s.node.applyRemovePattern id).2
      current := s.current.filter (·.id ≠ id) } := by
  have hmem : ∀ r, r ∈ (s.node.applyRemovePattern id).2.rules ↔ r ∈ s.node.rules ∧ r.id ≠ id :=
    fun r => WafNode.mem_rules_applyRemove
  have hnone := hs.not_holds hlock
  refine { hs with
    rules := ?_
    below := fun r hr => hs.below r ((hmem r).mp hr).1
    awaits := fun call c id' hc hid' r hr => hs.awaits call c id' hc hid' r ((hmem r).mp hr).1
    holds := fun call c id' hc hid' => absurd hid' (hnone call c id' hc)
    current := fun r hr => ?_ }
  · have hsub : (s.node.applyRemovePattern id).2.rules.Sublist s.node.rules :=
      List.filter_sublist.map _
    exact hs.rules.sublist (hsub.map _)
  · obtain ⟨hr, hne⟩ := List.mem_filter.mp hr
    exact (hmem r).mpr ⟨hs.current r hr, of_decide_eq_true hne⟩

/-- The compiled rules of a load replace the list. -/
theorem Inv.swap {s : WafCalls} (hs : s.Inv) {call : ℕ} {compiled : List CustomRule}
    (hc : s.calls.lookup call = some (.loading [] compiled)) (hlock : s.lock = none) :
    Inv { s.setRules compiled with calls := s.calls.erase call, current := [] } := by
  have hrules : ∀ r ∈ (s.setRules compiled).node.rules, r.id ∈ compiled.map (·.id) := by
    intro r hr
    obtain ⟨rule, hrule, rfl⟩ := List.mem_map.mp hr
    exact List.mem_map_of_mem hrule
  have hnone := hs.not_holds hlock
  refine
    { rules := ?_
      below := fun r hr => .inl (hs.drawn call _ hc r.id (hrules r hr)).1
      drawn := fun call' c' hc' => hs.drawn call' c' (DashMap.lookup_erase_cases hc').2
      apart := fun call₁ call₂ c₁ c₂ hc₁ hc₂ =>
        hs.apart call₁ call₂ c₁ c₂ (DashMap.lookup_erase_cases hc₁).2
          (DashMap.lookup_erase_cases hc₂).2
      nodup := fun call' c' hc' => hs.nodup call' c' (DashMap.lookup_erase_cases hc').2
      awaits := ?_
      holds := fun call' c' id' hc' hid' =>
        absurd hid' (hnone call' c' id' (DashMap.lookup_erase_cases hc').2)
      stores := fun call' c' id' hc' hid' =>
        absurd hid'.holds (hnone call' c' id' (DashMap.lookup_erase_cases hc').2)
      foreign := fun call' c' id' hc' => hs.foreign call' c' id' (DashMap.lookup_erase_cases hc').2
      past := hs.past
      returned := hs.returned
      current := by simp }
  · have hnodup := hs.nodup call _ hc
    simp only [setRules, WafNode.rules, List.map_map]
    exact hnodup
  · rintro call' c' id' hc' hid' r hr rfl
    obtain ⟨hne, hold⟩ := DashMap.lookup_erase_cases hc'
    exact hne (hs.apart call' call c' _ hold hc r.id hid'.mem_drawn (hrules r hr))

/-- A call that has drawn nothing begins. -/
theorem Inv.begin {s : WafCalls} (hs : s.Inv) {call : ℕ} {c : WafCall}
    (hcall : s.calls.lookup call = none) (hdrawn : c.drawn = [])
    (hholds : ∀ id, ¬ c.Holds id) (hforeign : ∀ id, c.Foreign id → id < 2 ^ 63) :
    Inv { s with calls := s.calls.insert call c } := by
  refine hs.insert (by simp [hdrawn]) (by simp [hdrawn]) (fun id hid => ?_)
    (fun id hid => absurd hid (hholds id)) (fun old id hold => ?_)
    (fun id hid => absurd hid.holds (hholds id)) hforeign
  · have hmem := hid.mem_drawn
    rw [hdrawn] at hmem
    cases hmem
  · rw [hcall] at hold
    cases hold

/-- A call draws an id and begins, or moves on. -/
theorem Inv.draw {s : WafCalls} (hs : s.Inv) (hfresh : s.DrawsFresh) {call : ℕ} {c : WafCall}
    (before : List ℕ) (hdrawn : c.drawn = before ++ [s.node.nextRuleId])
    (hbefore : ∀ id ∈ before, ∃ old, s.calls.lookup call = some old ∧ id ∈ old.drawn)
    (hnodup : before.Nodup) (hawaits : ∀ id, c.Awaits id → id = s.node.nextRuleId)
    (hholds : ∀ id, ¬ c.Holds id)
    (hkeeps : ∀ old id, s.calls.lookup call = some old → ¬ old.Holds id)
    (hforeign : ∀ id, ¬ c.Foreign id) :
    Inv { s.fetchAdd with calls := s.calls.insert call c } := by
  obtain ⟨hnext, hs'⟩ := hs.fetchAdd hfresh
  have hlt : ∀ id ∈ before, id < s.node.nextRuleId := by
    intro id hid
    obtain ⟨old, hold, hid⟩ := hbefore id hid
    exact (hs.drawn call old hold id hid).1
  refine hs'.insert (fun id hid => ?_) ?_ (fun id hid => ?_) (fun id hid => absurd hid (hholds id))
    (fun old id hold hid => absurd hid (hkeeps old id hold))
    (fun id hid => absurd hid.holds (hholds id)) (fun id hid => absurd hid (hforeign id))
  · rw [hdrawn] at hid
    rcases List.mem_append.mp hid with hid | hid
    · obtain ⟨old, hold, hid⟩ := hbefore id hid
      refine ⟨(hs'.drawn call old hold id hid).1, (hs.drawn call old hold id hid).2, ?_⟩
      intro call' c' hne hc' hid'
      exact hne (hs.apart call' call c' old hc' hold id hid' hid)
    · rw [List.mem_singleton.mp hid, hnext]
      refine ⟨Nat.lt_succ_self _, fun r hr => (hs.past r hr).ne, fun call' c' _ hc' hid' => ?_⟩
      exact lt_irrefl _ (hs.drawn call' c' hc' _ hid').1
  · rw [hdrawn]
    refine List.nodup_append.mpr ⟨hnodup, List.nodup_singleton _, fun id hid id' hid' => ?_⟩
    rw [List.mem_singleton.mp hid']
    exact (hlt id hid).ne
  · rw [hawaits id hid]
    exact hfresh.1

/-- A call that holds the lock releases it and returns. The counter is past the rule that the call
has added. -/
theorem Inv.release {s : WafCalls} (hs : s.Inv) {call id next : ℕ} {c : WafCall}
    (patternSrc label : String) {own : Bool} (hc : s.calls.lookup call = some c)
    (hlock : s.lock = some call) (hholds : ∀ id', c.Holds id' → id' = id)
    (hown : own = true → id ∈ c.drawn) (hnext : s.node.nextRuleId ≤ next) (hid : id < next) :
    Inv { s.finish call id patternSrc label own with
      node := { s.node with nextRuleId := next }, lock := none } := by
  refine hs.finish patternSrc label hc (.inr hlock) hown hnext fun r hr => ?_
  rcases hs.below_or_holds hc hlock hr with hlt | hheld
  · exact hlt.trans_le hnext
  · rw [hholds r.id hheld]
    exact hid

/-- A call that adds its rule keeps the invariant. -/
theorem inv_adding {s t : WafCalls} {call now id : ℕ} {re : Regex} {patternSrc label : String}
    {own : Bool} (hs : s.Inv)
    (hc : s.calls.lookup call = some (.adding id re patternSrc label own))
    (hok : s.AdvancesApart compile (some (.adding id re patternSrc label own)))
    (h : s.advance compile call now (.adding id re patternSrc label own) = some t) : t.Inv := by
  simp only [advance] at h
  split at h
  next hlock =>
    split at h
    next hknown =>
      obtain rfl := Option.some.inj h
      obtain ⟨rule, hrule, hid⟩ := List.any_eq_true.mp hknown
      have hmem : (⟨rule.id, rule.patternSrc, rule.label⟩ : RuleEntry) ∈ s.node.rules :=
        List.mem_map_of_mem hrule
      cases own with
      | true =>
          -- What a local call has drawn is not in the list.
          exact absurd (of_decide_eq_true hid) (hs.awaits call _ id hc ⟨rfl, rfl⟩ _ hmem)
      | false =>
          have hown : false = true →
              id ∈ WafCall.drawn (.adding id re patternSrc label false) := by rintro ⟨⟩
          have hfinish := hs.finish patternSrc label hc (.inl hlock) hown le_rfl
            fun r hr => hs.below_of_unlocked hlock hr
          obtain ⟨node, calls, lock, returned, current⟩ := s
          cases hlock
          exact hfinish
    next hnew =>
      obtain rfl := Option.some.inj h
      refine hs.install hc hlock (fun r hr hid => ?_) fun hown => ?_
      · obtain ⟨rule, hrule, rfl⟩ := List.mem_map.mp hr
        exact hnew (List.any_eq_true.mpr ⟨rule, hrule, decide_eq_true hid⟩)
      · subst hown
        exact hok
  next => cases h

/-- A call that has added its rule compares the counter with it, and keeps the invariant. -/
theorem inv_installed {s t : WafCalls} {call now id : ℕ} {patternSrc label : String} {own : Bool}
    (hs : s.Inv) (hc : s.calls.lookup call = some (.installed id patternSrc label own))
    (h : s.advance compile call now (.installed id patternSrc label own) = some t) : t.Inv := by
  simp only [advance] at h
  obtain rfl := Option.some.inj h
  obtain ⟨hlock, -⟩ := hs.holds call _ id hc rfl
  split
  next hle =>
    have hnodup := hs.nodup call _ hc
    refine hs.insert (fun id' hid' => hs.drawn_apart hc hid') hnodup
      (fun id' hid' => by cases hid') (fun id' hid' => ⟨_, hc, hid'⟩)
      (fun old id' hold hid' => ?_) (fun id' hid' => ?_)
      (fun id' hid' => hs.foreign call _ id' hc hid')
    · cases hc.symm.trans hold
      exact hid'
    · cases hid'
      refine ⟨hle, ?_⟩
      cases own with
      | false =>
          have hlt := hs.foreign call _ id hc ⟨rfl, rfl⟩
          omega
      | true =>
          have hlt := (hs.drawn call _ hc id (List.mem_singleton_self id)).1
          omega
  next hlt =>
    refine hs.release patternSrc label hc hlock (fun id' hid' => hid'.symm) (fun hown => ?_) le_rfl
      (not_le.mp hlt)
    subst hown
    exact List.mem_singleton_self id

/-- A call that moves the counter keeps the invariant. -/
theorem inv_loaded {s t : WafCalls} {call now id : ℕ} {patternSrc label : String} {own : Bool}
    (hs : s.Inv) (hc : s.calls.lookup call = some (.loaded id patternSrc label own))
    (h : s.advance compile call now (.loaded id patternSrc label own) = some t) : t.Inv := by
  simp only [advance] at h
  obtain rfl := Option.some.inj h
  obtain ⟨hlock, -⟩ := hs.holds call _ id hc rfl
  obtain ⟨hle, hbound⟩ := hs.stores call _ id hc rfl
  have hwrap : wrappingAdd id 1 = id + 1 := Nat.mod_eq_of_lt hbound
  rw [hwrap]
  refine hs.release patternSrc label hc hlock (fun id' hid' => hid'.symm) (fun hown => ?_)
    (Nat.le_succ_of_le hle) (Nat.lt_succ_self id)
  subst hown
  exact List.mem_singleton_self id

/-- A load keeps the invariant, with every pattern that it compiles and with the exchange of the
list. -/
theorem inv_loading {s t : WafCalls} {call now : ℕ} {patterns : List String}
    {compiled : List CustomRule} (hs : s.Inv)
    (hc : s.calls.lookup call = some (.loading patterns compiled))
    (hok : s.AdvancesApart compile (some (.loading patterns compiled)))
    (h : s.advance compile call now (.loading patterns compiled) = some t) : t.Inv := by
  cases patterns with
  | nil =>
      simp only [advance] at h
      split at h
      next hlock =>
        obtain rfl := Option.some.inj h
        exact hs.swap hc hlock
      next => cases h
  | cons src rest =>
      simp only [advance] at h
      split at h
      next e hcompile =>
        obtain rfl := Option.some.inj h
        have hnodup := hs.nodup call _ hc
        refine hs.insert (fun id hid => hs.drawn_apart hc hid) hnodup
          (fun id hid => by cases hid) (fun id hid => by cases hid) (fun old id hold hid => ?_)
          (fun id hid => by cases hid) (fun id hid => by cases hid)
        cases hc.symm.trans hold
        cases hid
      next re hcompile =>
        obtain rfl := Option.some.inj h
        have hfresh : s.DrawsFresh := hok (by rw [hcompile]; rfl)
        refine hs.draw hfresh (compiled.map CustomRule.id) ?_ (fun id hid => ⟨_, hc, hid⟩)
          (hs.nodup call _ hc) (fun id hid => by cases hid) (fun id hid => by cases hid)
          (fun old id hold hid => ?_) (fun id hid => by cases hid)
        · simp [WafCall.drawn]
        · cases hc.symm.trans hold
          cases hid

/-- A step of a call that meets the condition keeps the invariant. -/
theorem inv_advance {s t : WafCalls} {call now : ℕ} {c : WafCall} (hs : s.Inv)
    (hc : s.calls.lookup call = some c) (hok : s.KeepsApart compile (.advance call now))
    (h : s.advance compile call now c = some t) : t.Inv := by
  simp only [KeepsApart, hc] at hok
  cases c with
  | adding id re patternSrc label own => exact inv_adding hs hc hok h
  | installed id patternSrc label own => exact inv_installed hs hc h
  | loaded id patternSrc label own => exact inv_loaded hs hc h
  | loading patterns compiled => exact inv_loading hs hc hok h

/-- A step that meets the condition keeps the invariant. -/
theorem inv_step {s t : WafCalls} {a : WafCallAction} (hs : s.Inv) (hok : s.KeepsApart compile a)
    (h : s.step compile a = some t) : t.Inv := by
  cases a with
  | add call patternSrc label =>
      simp only [step] at h
      split at h
      next hcall =>
        split at h
        next => exact Option.some.inj h ▸ (hs.fetchAdd hok).2
        next re hcompile =>
          obtain rfl := Option.some.inj h
          have hnone : ∀ old, s.calls.lookup call ≠ some old := by simp [hcall]
          exact hs.draw hok [] rfl (by simp) List.nodup_nil
            (fun id hid => hid.1.symm) (fun id hid => by cases hid)
            (fun old id hold => absurd hold (hnone old)) (fun id hid => by cases hid.2)
      next => cases h
  | applyWithId call id patternSrc label =>
      simp only [step] at h
      split at h
      next hcall =>
        split at h
        next => exact Option.some.inj h ▸ hs
        next re hcompile =>
          obtain rfl := Option.some.inj h
          exact hs.begin hcall.1 rfl (fun id hid => by cases hid) fun id' hid' =>
            hid'.1 ▸ hcall.2
      next => cases h
  | remove id =>
      simp only [step] at h
      split at h
      next hlock => exact Option.some.inj h ▸ hs.remove hlock id
      next => cases h
  | load call patterns =>
      simp only [step] at h
      split at h
      next hcall =>
        obtain rfl := Option.some.inj h
        exact hs.begin hcall rfl (fun id hid => by cases hid) fun id hid => by cases hid
      next => cases h
  | advance call now =>
      obtain ⟨c, hc, h⟩ := Option.bind_eq_some_iff.mp h
      exact inv_advance hs hc hok h

/-- Where ids do not repeat, a rule is the only one with its id. -/
theorem filter_id_eq {rules : List RuleEntry} (hnodup : (rules.map (·.id)).Nodup) {r : RuleEntry}
    (hr : r ∈ rules) : rules.filter (·.id = r.id) = [r] := by
  induction rules with
  | nil => cases hr
  | cons first rules ih =>
      obtain ⟨hfirst, hrest⟩ := List.nodup_cons.mp hnodup
      have hne : ∀ r' ∈ rules, r'.id ≠ first.id := fun r' hr' heq =>
        hfirst (List.mem_map.mpr ⟨r', hr', heq⟩)
      rcases List.mem_cons.mp hr with rfl | hmem
      · rw [List.filter_cons_of_pos (by simp), List.filter_eq_nil_iff.mpr fun r' hr' => by
          simpa using hne r' hr']
      · rw [List.filter_cons_of_neg (by simpa using (hne r hmem).symm), ih hrest hmem]

/-- What was returned is true where the ids are apart. -/
theorem Inv.tellsTruth {s : WafCalls} (hs : s.Inv) : s.TellsTruth :=
  ⟨fun r _ hcurrent => filter_id_eq hs.rules (hs.current r hcurrent), hs.returned⟩

/-- Over every run whose steps meet the condition, what the local calls returned is true. -/
theorem tellsTruth_of_runs (compile : String → Except String Regex) (waf : Waf)
    (as : List WafCallAction) (s : WafCalls)
    (hrun : (machine compile).Runs (KeepsApart compile) (initial waf) as s) : s.TellsTruth := by
  have hinitial : (initial waf).Inv := by
    constructor <;> simp [initial, WafNode.new, WafNode.rules]
  exact (hrun.invariant (fun _ _ _ hs hok h => inv_step hs hok h) hinitial).tellsTruth

open WafCluster (literalRegex plainWaf)

/-- A local call and a rule from another node that overlap, a removal, and a load that overlaps with
another local call. -/
def overlappingCalls : List WafCallAction :=
  [.add 1 "a" "", .applyWithId 2 5 "b" "B", .advance 1 10, .advance 1 10, .advance 2 11,
    .advance 2 11, .advance 2 11, .remove 1, .load 3 ["c", "d"], .advance 3 12, .add 4 "e" "E",
    .advance 3 12, .advance 3 12, .advance 4 13, .advance 4 13]

/-- What these calls returned is true. -/
theorem tellsTruth_overlappingCalls :
    ∃ s,
      (machine literalRegex).Runs (KeepsApart literalRegex) (initial plainWaf) overlappingCalls s ∧
      s.returned = [⟨7, "e", "E"⟩, ⟨1, "a", "CUSTOM"⟩] ∧ s.TellsTruth := by
  obtain ⟨s, hs, hreturned⟩ : ∃ s,
      (machine literalRegex).exec (KeepsApart literalRegex) (initial plainWaf) overlappingCalls =
        some s ∧ s.returned = [⟨7, "e", "E"⟩, ⟨1, "a", "CUSTOM"⟩] := ⟨_, rfl, rfl⟩
  have hrun := Machine.runs_of_exec hs
  exact ⟨s, hrun, hreturned, tellsTruth_of_runs literalRegex plainWaf overlappingCalls s hrun⟩

/-- A rule from another node takes the id that a local call has drawn, and the local call returns
`Ok` for it. -/
theorem tellsTruth_fails :
    ¬ ∀ (compile : String → Except String Regex) (waf : Waf) (as : List WafCallAction)
      (s : WafCalls), (machine compile).Runs Machine.unrestricted (initial waf) as s →
        s.TellsTruth := by
  intro hall
  obtain ⟨s, hs, hreturned, hcurrent, hrules⟩ : ∃ s,
      (machine literalRegex).exec Machine.unrestricted (initial plainWaf)
        [.add 1 "mine" "M", .applyWithId 2 1 "other" "O", .advance 2 10, .advance 2 10,
          .advance 1 10] = some s ∧
      s.returned = [⟨1, "mine", "M"⟩] ∧ s.current = [⟨1, "mine", "M"⟩] ∧
        s.node.rules = [⟨1, "other", "O"⟩] := ⟨_, rfl, rfl, rfl, rfl⟩
  have htrue := (hall _ _ _ s (Machine.runs_of_exec hs)).1 ⟨1, "mine", "M"⟩
    (by rw [hreturned]; exact List.mem_singleton_self _)
    (by rw [hcurrent]; exact List.mem_singleton_self _)
  rw [hrules] at htrue
  exact absurd htrue (by decide)

end WafCalls

end XiraNet

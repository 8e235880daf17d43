import XiraNet.Base
import XiraNet.Bus
import XiraNet.Lib.Broadcast
import XiraNet.Lib.Runs
import XiraNet.Middleware.Waf

/-!
# Custom rules across a cluster

The custom rules of `middleware/waf.rs`. Every node draws the ids of its own rules from a counter,
which a rule from another node moves forward, and skips a rule whose id it has already. Calls and
deliveries run without interruption; what a call publishes may arrive anywhere in any order.
Regular expressions are compiled by the `regex` crate, which stands as a parameter.

* `WafCluster.converged_of_runs`: if no two different rules share an id and no rule arrives after
  its removal, then all nodes hold the accepted rules that were not removed once nothing is in
  flight.
* `WafCluster.converged_fails`: two nodes that add a rule at the same time draw the same id.
-/

namespace XiraNet

/-- A custom rule as every node should hold it. -/
structure RuleEntry where
  id : ℕ
  pattern : String
  label : String
  deriving DecidableEq, Repr

/-- The firewall of one node with its rule counter. -/
structure WafNode where
  waf : Waf
  nextRuleId : ℕ

namespace WafNode

/-- A firewall without custom rules. -/
def new (waf : Waf) : WafNode := ⟨{ waf with customPatterns := [] }, 1⟩

/-- The label that is stored. -/
def storedLabel (label : String) : String := if label = "" then "CUSTOM" else label

/-- The custom rules, without what differs between nodes. -/
def rules (n : WafNode) : List RuleEntry :=
  n.waf.customPatterns.map fun r => ⟨r.id, r.patternSrc, r.label⟩

variable (compile : String → Except String Regex)

/-- `apply_add_pattern_with_id`. -/
def applyAddPatternWithId (n : WafNode) (now id : ℕ) (patternSrc label : String) :
    Except String Unit × WafNode :=
  match compile patternSrc with
  | .error e => (.error ("invalid regex: " ++ e), n)
  | .ok re =>
      -- A known id is taken for an echo, whatever pattern comes with it.
      if n.waf.customPatterns.any (·.id = id) then (.ok (), n)
      else
        let rule : CustomRule :=
          { id, patternSrc, pattern := re, label := storedLabel label, createdAt := now }
        (.ok (), {
          waf := { n.waf with customPatterns := n.waf.customPatterns ++ [rule] }
          nextRuleId := if n.nextRuleId ≤ id then wrappingAdd id 1 else n.nextRuleId })

/-- `add_custom_pattern`, with the event that it publishes. -/
def addCustomPattern (n : WafNode) (now : ℕ) (patternSrc label : String) :
    Except String ℕ × Option BusEvent × WafNode :=
  let id := n.nextRuleId
  -- The id is drawn before the pattern is compiled.
  let n := { n with nextRuleId := wrappingAdd id 1 }
  match n.applyAddPatternWithId compile now id patternSrc label with
  | (.error e, n) => (.error e, none, n)
  | (.ok (), n) => (.ok id, some (.wafRuleAdded id patternSrc label), n)

/-- `apply_remove_pattern`. -/
def applyRemovePattern (n : WafNode) (id : ℕ) : Bool × WafNode :=
  let kept := n.waf.customPatterns.filter (·.id ≠ id)
  (decide (kept.length < n.waf.customPatterns.length),
    { n with waf := { n.waf with customPatterns := kept } })

/-- `remove_custom_pattern`, with the event that it publishes. -/
def removeCustomPattern (n : WafNode) (id : ℕ) : Bool × Option BusEvent × WafNode :=
  let (removed, n) := n.applyRemovePattern id
  (removed, if removed then some (.wafRuleRemoved id) else none, n)

/-- The handler of a bus event. -/
def handle (n : WafNode) (now : ℕ) : BusEvent → WafNode
  | .wafRuleAdded id pattern label => (n.applyAddPatternWithId compile now id pattern label).2
  | .wafRuleRemoved id => (n.applyRemovePattern id).2
  | .sessionInvalidateUser _ => n
  | .sessionInvalidateToken _ => n

variable {compile} {n : WafNode} {now id : ℕ} {patternSrc label : String}

/-- The rules after a rule with an id was applied: it is new only if its id is. -/
theorem mem_rules_applyAdd {re : Regex} (hcompile : compile patternSrc = .ok re)
    {r : RuleEntry} :
    r ∈ (n.applyAddPatternWithId compile now id patternSrc label).2.rules ↔
      r ∈ n.rules ∨ (r = ⟨id, patternSrc, storedLabel label⟩ ∧ ∀ r' ∈ n.rules, r'.id ≠ id) := by
  simp only [applyAddPatternWithId, hcompile, rules]
  split
  next hknown =>
    -- A rule with the id is there already.
    refine (or_iff_left ?_).symm
    rintro ⟨_, hnew⟩
    obtain ⟨rule, hmem, heq⟩ := List.any_eq_true.mp hknown
    exact hnew _ (List.mem_map_of_mem hmem) (by simpa using heq)
  next hnew =>
    have hall : ∀ r' ∈ n.waf.customPatterns.map (fun r => (⟨r.id, r.patternSrc, r.label⟩ :
        RuleEntry)), r'.id ≠ id := by
      intro r' hmem heq
      obtain ⟨rule, hrule, rfl⟩ := List.mem_map.mp hmem
      exact hnew (List.any_eq_true.mpr ⟨rule, hrule, by simpa using heq⟩)
    simp only [List.map_append, List.mem_append, List.map_cons, List.map_nil,
      List.mem_singleton]
    exact or_congr_right (iff_self_and.mpr fun _ => hall)

/-- A rule that is applied to a node is there afterwards, if the node has no other rule with its
id. -/
theorem mem_rules_applyAdd_of_same {re : Regex} (hcompile : compile patternSrc = .ok re)
    (hsame : ∀ r' ∈ n.rules, r'.id = id → r' = ⟨id, patternSrc, storedLabel label⟩)
    {r : RuleEntry} :
    r ∈ (n.applyAddPatternWithId compile now id patternSrc label).2.rules ↔
      r ∈ n.rules ∨ r = ⟨id, patternSrc, storedLabel label⟩ := by
  rw [mem_rules_applyAdd hcompile]
  refine ⟨Or.imp_right And.left, ?_⟩
  rintro (hin | rfl)
  · exact .inl hin
  -- It is skipped only where it is already.
  · by_cases hknown : ∃ r' ∈ n.rules, r'.id = id
    · obtain ⟨r', hr', hid⟩ := hknown
      exact .inl (hsame r' hr' hid ▸ hr')
    · exact .inr ⟨rfl, fun r' hr' hid => hknown ⟨r', hr', hid⟩⟩

/-- A pattern that does not compile changes nothing. -/
theorem applyAdd_of_error {e : String} (hcompile : compile patternSrc = .error e) :
    n.applyAddPatternWithId compile now id patternSrc label =
      (.error ("invalid regex: " ++ e), n) := by
  simp only [applyAddPatternWithId, hcompile]

/-- A pattern that compiles is accepted. -/
theorem applyAdd_fst (n : WafNode) (now id : ℕ) (label : String) {re : Regex}
    (hcompile : compile patternSrc = .ok re) :
    (n.applyAddPatternWithId compile now id patternSrc label).1 = .ok () := by
  simp only [applyAddPatternWithId, hcompile]
  split <;> rfl

/-- `add_custom_pattern` for a pattern that compiles. -/
theorem addCustomPattern_of_ok {re : Regex} (hcompile : compile patternSrc = .ok re) :
    n.addCustomPattern compile now patternSrc label =
      (.ok n.nextRuleId, some (.wafRuleAdded n.nextRuleId patternSrc label),
        (({ n with nextRuleId := wrappingAdd n.nextRuleId 1 } : WafNode).applyAddPatternWithId
          compile now n.nextRuleId patternSrc label).2) := by
  unfold addCustomPattern
  dsimp only
  generalize hnode : ({ n with nextRuleId := wrappingAdd n.nextRuleId 1 } : WafNode) = node
  have hfst := applyAdd_fst node now n.nextRuleId label hcompile
  generalize node.applyAddPatternWithId compile now n.nextRuleId patternSrc label = result at hfst ⊢
  obtain ⟨fst, snd⟩ := result
  obtain rfl : fst = .ok () := hfst
  rfl

/-- `add_custom_pattern` for a pattern that does not compile only moves the counter. -/
theorem addCustomPattern_of_error {e : String} (hcompile : compile patternSrc = .error e) :
    n.addCustomPattern compile now patternSrc label =
      (.error ("invalid regex: " ++ e), none,
        { n with nextRuleId := wrappingAdd n.nextRuleId 1 }) := by
  simp only [addCustomPattern, applyAdd_of_error hcompile]

/-- The rules after a removal. -/
theorem mem_rules_applyRemove {r : RuleEntry} :
    r ∈ (n.applyRemovePattern id).2.rules ↔ r ∈ n.rules ∧ r.id ≠ id := by
  simp only [applyRemovePattern, rules, List.mem_map, List.mem_filter]
  constructor
  · rintro ⟨rule, ⟨hmem, hne⟩, rfl⟩
    exact ⟨⟨rule, hmem, rfl⟩, by simpa using hne⟩
  · rintro ⟨⟨rule, hmem, rfl⟩, hne⟩
    exact ⟨rule, ⟨hmem, by simpa using hne⟩, rfl⟩

/-- A removal reports whether there was a rule with the id. -/
theorem applyRemove_fst :
    (n.applyRemovePattern id).1 = true ↔ ∃ r ∈ n.rules, r.id = id := by
  simp only [applyRemovePattern, decide_eq_true_eq, rules, List.mem_map,
    List.length_filter_lt_length_iff_exists]
  constructor
  · rintro ⟨rule, hmem, hid⟩
    exact ⟨_, ⟨rule, hmem, rfl⟩, by simpa using hid⟩
  · rintro ⟨_, ⟨rule, hmem, rfl⟩, hid⟩
    exact ⟨rule, hmem, by simpa using hid⟩

/-- `remove_custom_pattern` in terms of what its removal reports. -/
theorem removeCustomPattern_eq {removed : Bool} (h : (n.applyRemovePattern id).1 = removed) :
    n.removeCustomPattern id =
      (removed, if removed then some (.wafRuleRemoved id) else none,
        (n.applyRemovePattern id).2) := by
  subst h
  rfl

end WafNode

/-- Nodes with custom rules, the events on the way to them, the rules whose `add_custom_pattern`
returned `Ok`, and the ids for which `remove_custom_pattern` returned true. -/
structure WafCluster (ι : Type) where
  nodes : ι → WafNode
  inFlight : Broadcast ι BusEvent
  accepted : List RuleEntry
  removed : List ℕ

/-- A call on a node, or a delivery; the clock only dates a rule. -/
inductive WafAction (ι : Type)
  | add (node : ι) (now : ℕ) (pattern label : String)
  | remove (node : ι) (id : ℕ)
  | deliver (node : ι) (now : ℕ) (event : BusEvent)
  deriving DecidableEq

namespace WafCluster

variable {ι : Type} [DecidableEq ι] (compile : String → Except String Regex)

/-- One step. -/
def step (c : WafCluster ι) : WafAction ι → Option (WafCluster ι)
  | .add node now pattern label =>
      let (result, event, n) := (c.nodes node).addCustomPattern compile now pattern label
      some { c with
        nodes := Function.update c.nodes node n
        inFlight := c.inFlight.send event
        accepted := match result with
          | .ok id => ⟨id, pattern, WafNode.storedLabel label⟩ :: c.accepted
          | .error _ => c.accepted }
  | .remove node id =>
      let (result, event, n) := (c.nodes node).removeCustomPattern id
      some { c with
        nodes := Function.update c.nodes node n
        inFlight := c.inFlight.send event
        removed := if result then id :: c.removed else c.removed }
  | .deliver node now event =>
      if event ∈ c.inFlight node then
        some { c with
          nodes := Function.update c.nodes node ((c.nodes node).handle compile now event)
          inFlight := c.inFlight.receive node event }
      else none

/-- No node has custom rules and nothing is in flight. -/
def initial (wafs : ι → Waf) : WafCluster ι where
  nodes node := .new (wafs node)
  inFlight _ := []
  accepted := []
  removed := []

/-- Every history of the nodes. -/
def machine : Machine (WafCluster ι) (WafAction ι) := ⟨step compile⟩

omit [DecidableEq ι] in
/-- Every node holds the accepted rules that were not removed, once nothing is in flight. -/
def Converged (c : WafCluster ι) : Prop :=
  (∀ node, c.inFlight node = []) → ∀ node r,
    r ∈ (c.nodes node).rules ↔ r ∈ c.accepted ∧ r.id ∉ c.removed

/-- The steps after which the nodes still converge: a new rule draws an id that no other accepted
rule has, and a rule arrives at a node before the removal of its id does. -/
def KeepsRules (c : WafCluster ι) : WafAction ι → Prop
  | .add node _ pattern label =>
      (compile pattern).isOk → ∀ r ∈ c.accepted, r.id = (c.nodes node).nextRuleId →
        r = ⟨(c.nodes node).nextRuleId, pattern, WafNode.storedLabel label⟩ ∧ r.id ∉ c.removed
  | .remove _ _ => True
  | .deliver node _ (.wafRuleAdded id _ _) =>
      id ∈ c.removed → .wafRuleRemoved id ∈ c.inFlight node
  | .deliver _ _ _ => True

omit [DecidableEq ι] in
instance (c : WafCluster ι) (a : WafAction ι) : Decidable (c.KeepsRules compile a) := by
  unfold KeepsRules
  split <;> infer_instance

/-- The invariant. -/
structure Inv (c : WafCluster ι) : Prop where
  /-- A node only holds accepted rules, -/
  held : ∀ node, ∀ r ∈ (c.nodes node).rules, r ∈ c.accepted
  /-- it still lacks one only while its event is on the way, -/
  missing : ∀ node, ∀ r ∈ c.accepted, r.id ∉ c.removed → r ∈ (c.nodes node).rules ∨
    ∃ label, .wafRuleAdded r.id r.pattern label ∈ c.inFlight node ∧
      WafNode.storedLabel label = r.label
  /-- and still holds a removed one only while the removal is. -/
  removing : ∀ node, ∀ r ∈ (c.nodes node).rules, r.id ∈ c.removed →
    .wafRuleRemoved r.id ∈ c.inFlight node
  unique : ∀ r ∈ c.accepted, ∀ r' ∈ c.accepted, r.id = r'.id → r = r'
  added : ∀ node id pattern label, .wafRuleAdded id pattern label ∈ c.inFlight node →
    ⟨id, pattern, WafNode.storedLabel label⟩ ∈ c.accepted ∧ ∃ re, compile pattern = .ok re
  removed : ∀ node id, .wafRuleRemoved id ∈ c.inFlight node → id ∈ c.removed
  known : ∀ id ∈ c.removed, ∃ r ∈ c.accepted, r.id = id

variable {compile} {c c' : WafCluster ι}

/-- The rules of the nodes after one of them has changed. -/
theorem mem_rules_update {node node' : ι} {n : WafNode} {r : RuleEntry} :
    r ∈ (Function.update c.nodes node n node').rules ↔
      if node' = node then r ∈ n.rules else r ∈ (c.nodes node').rules := by
  by_cases hnode : node' = node
  · rw [if_pos hnode, hnode, Function.update_self]
  · rw [if_neg hnode, Function.update_of_ne hnode]

/-- The rules of the nodes after a node has got one more. -/
theorem mem_rules_update_of_add {node node' : ι} {n : WafNode} {r new : RuleEntry}
    (hn : ∀ r, r ∈ n.rules ↔ r ∈ (c.nodes node).rules ∨ r = new) :
    r ∈ (Function.update c.nodes node n node').rules ↔
      r ∈ (c.nodes node').rules ∨ (node' = node ∧ r = new) := by
  rw [mem_rules_update]
  split
  next hnode => simp [hnode, hn]
  next hnode => simp [hnode]

/-- The rules of the nodes after a node has lost those with an id. -/
theorem mem_rules_update_of_remove {node node' : ι} {id : ℕ} {r : RuleEntry} :
    r ∈ (Function.update c.nodes node
        ((c.nodes node).applyRemovePattern id).2 node').rules ↔
      r ∈ (c.nodes node').rules ∧ (node' = node → r.id ≠ id) := by
  rw [mem_rules_update]
  split
  next hnode => simp [hnode, WafNode.mem_rules_applyRemove]
  next hnode => simp [hnode]

omit [DecidableEq ι] in
/-- A step that leaves the rules of every node alone and sends nothing keeps the invariant. -/
theorem inv_of_rules_iff (hc : c.Inv compile) {nodes : ι → WafNode}
    (hsame : ∀ node r, r ∈ (nodes node).rules ↔ r ∈ (c.nodes node).rules) :
    Inv compile { c with nodes } :=
  { hc with
    held := fun node r hr => hc.held node r ((hsame node r).mp hr)
    missing := fun node r hr hkept =>
      (hc.missing node r hr hkept).imp_left (hsame node r).mpr
    removing := fun node r hr => hc.removing node r ((hsame node r).mp hr) }

/-- A call that adds a rule keeps the invariant: no node has another rule with its id. -/
theorem inv_add (hc : c.Inv compile) {node : ι} {now : ℕ} {pattern label : String}
    (hok : c.KeepsRules compile (.add node now pattern label))
    (h : c.step compile (.add node now pattern label) = some c') : c'.Inv compile := by
  cases hcompile : compile pattern with
  | error e =>
      simp only [step, WafNode.addCustomPattern_of_error hcompile] at h
      cases h
      -- Only the counter of the node has moved.
      refine inv_of_rules_iff hc fun node' r => mem_rules_update.trans ?_
      split
      next hnode => exact hnode ▸ Iff.rfl
      next => exact Iff.rfl
  | ok re =>
      simp only [step, WafNode.addCustomPattern_of_ok hcompile] at h
      cases h
      have hclash := hok (by rw [hcompile]; rfl)
      -- A rule of a node is an old one, or the new one on its own node.
      have hrules : ∀ node' r, r ∈ (Function.update c.nodes node
          (({ c.nodes node with nextRuleId := wrappingAdd (c.nodes node).nextRuleId 1 } :
            WafNode).applyAddPatternWithId compile now (c.nodes node).nextRuleId pattern
              label).2 node').rules ↔ r ∈ (c.nodes node').rules ∨
                (node' = node ∧ r = ⟨(c.nodes node).nextRuleId, pattern,
                  WafNode.storedLabel label⟩) := by
        refine fun node' r => mem_rules_update_of_add fun r => ?_
        have hsame : ∀ r' ∈ (c.nodes node).rules, r'.id = (c.nodes node).nextRuleId →
            r' = ⟨(c.nodes node).nextRuleId, pattern, WafNode.storedLabel label⟩ :=
          fun r' hr' hid => (hclash r' (hc.held node r' hr') hid).1
        exact WafNode.mem_rules_applyAdd_of_same
          (n := ⟨(c.nodes node).waf, wrappingAdd (c.nodes node).nextRuleId 1⟩) hcompile hsame
      constructor
      case held =>
        intro node' r hr
        rcases (hrules node' r).mp hr with hold | ⟨_, rfl⟩
        · exact List.mem_cons_of_mem _ (hc.held node' r hold)
        · exact List.mem_cons_self
      case missing =>
        intro node' r hr hkept
        rcases List.mem_cons.mp hr with rfl | hold
        · exact .inr ⟨label, Broadcast.mem_send.mpr (.inl rfl), rfl⟩
        · rcases hc.missing node' r hold hkept with hin | ⟨label', hflight, hlabel⟩
          · exact .inl ((hrules node' r).mpr (.inl hin))
          · exact .inr ⟨label', Broadcast.mem_send.mpr (.inr hflight), hlabel⟩
      case removing =>
        intro node' r hr hremoved
        rcases (hrules node' r).mp hr with hold | ⟨_, rfl⟩
        · exact Broadcast.mem_send.mpr (.inr (hc.removing node' r hold hremoved))
        -- The new id has not been removed: only ids of accepted rules are.
        · obtain ⟨r', hr', hid⟩ := hc.known _ hremoved
          exact absurd (hid ▸ hremoved) (hclash r' hr' hid).2
      case unique =>
        intro r hr r' hr' hid
        rcases List.mem_cons.mp hr with rfl | hold <;> rcases List.mem_cons.mp hr' with rfl | hold'
        · rfl
        · exact (hclash r' hold' hid.symm).1.symm
        · exact (hclash r hold hid).1
        · exact hc.unique r hold r' hold' hid
      case added =>
        intro node' id' pattern' label' hflight
        rcases Broadcast.mem_send.mp hflight with heq | hold
        · cases heq
          exact ⟨List.mem_cons_self, re, hcompile⟩
        · obtain ⟨hin, hok⟩ := hc.added node' id' pattern' label' hold
          exact ⟨List.mem_cons_of_mem _ hin, hok⟩
      case removed =>
        intro node' id' hflight
        rcases Broadcast.mem_send.mp hflight with heq | hold
        · cases heq
        · exact hc.removed node' id' hold
      case known =>
        intro id' hremoved
        obtain ⟨r, hr, hid⟩ := hc.known id' hremoved
        exact ⟨r, List.mem_cons_of_mem _ hr, hid⟩

/-- A call that removes a rule keeps the invariant: every node is told. -/
theorem inv_remove (hc : c.Inv compile) {node : ι} {id : ℕ}
    (h : c.step compile (.remove node id) = some c') : c'.Inv compile := by
  have hfound : ((c.nodes node).applyRemovePattern id).1 = true ↔ _ :=
    (c.nodes node).applyRemove_fst
  cases hremoved : ((c.nodes node).applyRemovePattern id).1 with
  | false =>
      -- There is no rule with the id, and nothing happens.
      simp only [step, WafNode.removeCustomPattern_eq hremoved] at h
      cases h
      rw [hremoved] at hfound
      refine inv_of_rules_iff hc fun node' r => mem_rules_update_of_remove.trans ?_
      refine and_iff_left_of_imp fun hr hnode hid => ?_
      exact Bool.false_ne_true (hfound.mpr ⟨r, hnode ▸ hr, hid⟩)
  | true =>
      obtain ⟨rule, hrule, hid⟩ := hfound.mp hremoved
      simp only [step, WafNode.removeCustomPattern_eq hremoved] at h
      cases h
      constructor
      case held => exact fun node' r hr => hc.held node' r (mem_rules_update_of_remove.mp hr).1
      case missing =>
        intro node' r hr hkept
        have hkept := not_or.mp fun hin => hkept (List.mem_cons.mpr hin)
        rcases hc.missing node' r hr hkept.2 with hin | ⟨label, hflight, hlabel⟩
        · exact .inl (mem_rules_update_of_remove.mpr ⟨hin, fun _ => hkept.1⟩)
        · exact .inr ⟨label, Broadcast.mem_send.mpr (.inr hflight), hlabel⟩
      case removing =>
        intro node' r hr hin
        rcases List.mem_cons.mp hin with heq | hin
        · exact Broadcast.mem_send.mpr (.inl (by rw [heq]; rfl))
        · have hr := (mem_rules_update_of_remove.mp hr).1
          exact Broadcast.mem_send.mpr (.inr (hc.removing node' r hr hin))
      case unique => exact hc.unique
      case added =>
        intro node' id' pattern label hflight
        rcases Broadcast.mem_send.mp hflight with heq | hold
        · cases heq
        · exact hc.added node' id' pattern label hold
      case removed =>
        intro node' id' hflight
        rcases Broadcast.mem_send.mp hflight with heq | hold
        · cases heq
          exact List.mem_cons_self
        · exact List.mem_cons_of_mem _ (hc.removed node' id' hold)
      case known =>
        intro id' hin
        rcases List.mem_cons.mp hin with rfl | hin
        · exact ⟨rule, hc.held node rule hrule, hid⟩
        · exact hc.known id' hin

/-- The arrival of a rule keeps the invariant, unless its removal has arrived before it. -/
theorem inv_deliver_added (hc : c.Inv compile) {node : ι} {now id : ℕ} {pattern label : String}
    (hok : id ∈ c.removed → .wafRuleRemoved id ∈ c.inFlight node)
    (h : c.step compile (.deliver node now (.wafRuleAdded id pattern label)) = some c') :
    c'.Inv compile := by
  simp only [step, Option.ite_none_right_eq_some, Option.some.injEq] at h
  obtain ⟨hflight, rfl⟩ := h
  obtain ⟨haccepted, re, hcompile⟩ := hc.added node id pattern label hflight
  have hrules : ∀ node' r, r ∈ (Function.update c.nodes node
      ((c.nodes node).handle compile now (.wafRuleAdded id pattern label)) node').rules ↔
        r ∈ (c.nodes node').rules ∨
          (node' = node ∧ r = ⟨id, pattern, WafNode.storedLabel label⟩) := by
    refine fun node' r => mem_rules_update_of_add fun r => ?_
    exact WafNode.mem_rules_applyAdd_of_same hcompile fun r' hr' hid =>
      hc.unique r' (hc.held node r' hr') _ haccepted hid
  constructor
  case held =>
    intro node' r hr
    rcases (hrules node' r).mp hr with hold | ⟨_, rfl⟩
    · exact hc.held node' r hold
    · exact haccepted
  case missing =>
    intro node' r hr hkept
    rcases hc.missing node' r hr hkept with hin | ⟨label', hflight', hlabel⟩
    · exact .inl ((hrules node' r).mpr (.inl hin))
    · by_cases hsame : node' = node ∧ r = ⟨id, pattern, WafNode.storedLabel label⟩
      · exact .inl ((hrules node' r).mpr (.inr hsame))
      -- Another event than the one that has arrived.
      · refine .inr ⟨label', ?_, hlabel⟩
        refine Broadcast.mem_receive_of_ne (fun hnode heq => hsame ⟨hnode, ?_⟩) hflight'
        obtain ⟨hid, hpattern, hlabel'⟩ := BusEvent.wafRuleAdded.inj heq
        rw [← hid, ← hpattern, ← hlabel', hlabel]
  case removing =>
    intro node' r hr hremoved
    refine Broadcast.mem_receive_of_ne (by simp) ?_
    rcases (hrules node' r).mp hr with hold | ⟨rfl, rfl⟩
    · exact hc.removing node' r hold hremoved
    · exact hok hremoved
  case unique => exact hc.unique
  case added =>
    intro node' id' pattern' label' hin
    exact hc.added node' id' pattern' label' (Broadcast.mem_of_mem_receive hin)
  case removed =>
    intro node' id' hin
    exact hc.removed node' id' (Broadcast.mem_of_mem_receive hin)
  case known => exact hc.known

/-- The arrival of a removal keeps the invariant. -/
theorem inv_deliver_removed (hc : c.Inv compile) {node : ι} {now id : ℕ}
    (h : c.step compile (.deliver node now (.wafRuleRemoved id)) = some c') : c'.Inv compile := by
  simp only [step, Option.ite_none_right_eq_some, Option.some.injEq] at h
  obtain ⟨hflight, rfl⟩ := h
  have hid := hc.removed node id hflight
  have hrules : ∀ node' r, r ∈ (Function.update c.nodes node
      ((c.nodes node).handle compile now (.wafRuleRemoved id)) node').rules ↔
        r ∈ (c.nodes node').rules ∧ (node' = node → r.id ≠ id) :=
    fun _ _ => mem_rules_update_of_remove
  constructor
  case held => exact fun node' r hr => hc.held node' r ((hrules node' r).mp hr).1
  case missing =>
    intro node' r hr hkept
    rcases hc.missing node' r hr hkept with hin | ⟨label, hflight', hlabel⟩
    · exact .inl ((hrules node' r).mpr ⟨hin, fun _ heq => hkept (heq ▸ hid)⟩)
    · exact .inr ⟨label, Broadcast.mem_receive_of_ne (by simp) hflight', hlabel⟩
  case removing =>
    intro node' r hr hremoved
    -- A rule that the node still holds has another id, so its removal is another event.
    obtain ⟨hold, hne⟩ := (hrules node' r).mp hr
    have hin := hc.removing node' r hold hremoved
    exact Broadcast.mem_receive_of_ne (fun hnode heq => hne hnode (by simpa using heq)) hin
  case unique => exact hc.unique
  case added =>
    intro node' id' pattern' label' hin
    exact hc.added node' id' pattern' label' (Broadcast.mem_of_mem_receive hin)
  case removed =>
    intro node' id' hin
    exact hc.removed node' id' (Broadcast.mem_of_mem_receive hin)
  case known => exact hc.known

/-- The arrival of another event keeps the invariant: the firewall ignores it. -/
theorem inv_deliver_other (hc : c.Inv compile) {node : ι} {now : ℕ} {event : BusEvent}
    (hignored : (c.nodes node).handle compile now event = c.nodes node)
    (hadded : ∀ id pattern label, event ≠ .wafRuleAdded id pattern label)
    (hremoved : ∀ id, event ≠ .wafRuleRemoved id)
    (h : c.step compile (.deliver node now event) = some c') : c'.Inv compile := by
  simp only [step, Option.ite_none_right_eq_some, Option.some.injEq] at h
  obtain ⟨_, rfl⟩ := h
  rw [hignored, Function.update_eq_self]
  refine ⟨hc.held, fun node' r hr hkept => ?_, fun node' r hr hin => ?_, hc.unique,
    fun node' id pattern label hin => hc.added node' id pattern label
      (Broadcast.mem_of_mem_receive hin),
    fun node' id hin => hc.removed node' id (Broadcast.mem_of_mem_receive hin), hc.known⟩
  · refine (hc.missing node' r hr hkept).imp_right ?_
    rintro ⟨label, hflight, hlabel⟩
    exact ⟨label, Broadcast.mem_receive_of_ne (fun _ => (hadded _ _ _).symm) hflight, hlabel⟩
  · exact Broadcast.mem_receive_of_ne (fun _ => (hremoved _).symm) (hc.removing node' r hr hin)

/-- Every step that keeps the rules apart keeps the invariant. -/
theorem inv_step (c : WafCluster ι) (a : WafAction ι) (c' : WafCluster ι) (hc : c.Inv compile)
    (hok : c.KeepsRules compile a) (h : (machine compile).step c a = some c') :
    c'.Inv compile := by
  cases a with
  | add node now pattern label => exact inv_add hc hok h
  | remove node id => exact inv_remove hc h
  | deliver node now event =>
      cases event with
      | wafRuleAdded id pattern label => exact inv_deliver_added hc hok h
      | wafRuleRemoved id => exact inv_deliver_removed hc h
      | sessionInvalidateUser userId => exact inv_deliver_other hc rfl (by simp) (by simp) h
      | sessionInvalidateToken hashed => exact inv_deliver_other hc rfl (by simp) (by simp) h

omit [DecidableEq ι] in
/-- The invariant holds at the start. -/
theorem inv_initial (wafs : ι → Waf) : (initial wafs).Inv compile := by
  constructor <;> simp [initial, WafNode.new, WafNode.rules]

omit [DecidableEq ι] in
/-- Under the invariant the nodes have converged once nothing is in flight. -/
theorem Inv.converged (hc : c.Inv compile) : c.Converged := by
  intro hquiet node r
  constructor
  · intro hr
    refine ⟨hc.held node r hr, fun hremoved => ?_⟩
    have hflight := hc.removing node r hr hremoved
    simp [hquiet] at hflight
  · rintro ⟨haccepted, hkept⟩
    rcases hc.missing node r haccepted hkept with hin | ⟨label, hflight, _⟩
    · exact hin
    · simp [hquiet] at hflight

/-- In every run in which no new rule draws the id of another one, and no rule arrives at a node
after its removal, all nodes hold the accepted rules that were not removed once nothing is in
flight. -/
theorem converged_of_runs (compile : String → Except String Regex) (wafs : ι → Waf)
    (as : List (WafAction ι)) (c : WafCluster ι)
    (hrun : (machine compile).Runs (KeepsRules compile) (initial wafs) as c) : c.Converged :=
  (hrun.invariant inv_step (inv_initial wafs)).converged

/-- Every pattern compiles to an expression that matches its own text only. -/
def literalRegex (pattern : String) : Except String Regex := .ok fun input => input = pattern

/-- A firewall without patterns. -/
def plainWaf : Waf := ⟨true, [], [], [], [], [], .block⟩

/-- Node 0 adds a rule, node 1 another one after it has heard of the first, and removes the
first. -/
def orderlyRules : List (WafAction (Fin 2)) :=
  [.add 0 1 "a" "", .deliver 1 2 (.wafRuleAdded 1 "a" ""), .add 1 3 "b" "B", .remove 1 1,
    .deliver 0 4 (.wafRuleAdded 1 "a" ""), .deliver 0 5 (.wafRuleRemoved 1),
    .deliver 0 6 (.wafRuleAdded 2 "b" "B"), .deliver 1 7 (.wafRuleAdded 2 "b" "B"),
    .deliver 1 8 (.wafRuleRemoved 1)]

/-- The nodes after these calls and deliveries. -/
theorem converged_orderlyRules :
    ∃ c, (machine literalRegex).Runs (KeepsRules literalRegex)
        (initial fun _ : Fin 2 => plainWaf) orderlyRules c ∧
      (∀ node, c.inFlight node = []) ∧ c.Converged := by
  obtain ⟨c, hc, hquiet⟩ : ∃ c, (machine literalRegex).exec (KeepsRules literalRegex)
      (initial fun _ : Fin 2 => plainWaf) orderlyRules = some c ∧ ∀ node, c.inFlight node = [] :=
    ⟨_, rfl, by decide⟩
  have hrun := Machine.runs_of_exec hc
  exact ⟨c, hrun, hquiet, converged_of_runs literalRegex _ orderlyRules c hrun⟩

/-- Both nodes add a rule before they hear of the other's. -/
def concurrentRules : List (WafAction (Fin 2)) :=
  [.add 0 1 "a" "A", .add 1 1 "b" "B", .deliver 0 2 (.wafRuleAdded 1 "b" "B"),
    .deliver 1 2 (.wafRuleAdded 1 "a" "A"), .deliver 0 3 (.wafRuleAdded 1 "a" "A"),
    .deliver 1 3 (.wafRuleAdded 1 "b" "B")]

/-- Rules with the same id do not reach the other node: everything is delivered, and each node
only has its own rule. -/
theorem converged_fails :
    ¬ ∀ (compile : String → Except String Regex) (wafs : Fin 2 → Waf)
      (as : List (WafAction (Fin 2))) (c : WafCluster (Fin 2)),
        (machine compile).Runs Machine.unrestricted (initial wafs) as c → c.Converged := by
  intro hall
  have hend : ∃ c, (machine literalRegex).exec Machine.unrestricted
      (initial fun _ : Fin 2 => plainWaf) concurrentRules = some c ∧
        (∀ node, c.inFlight node = []) ∧ (c.nodes 0).rules = [⟨1, "a", "A"⟩] ∧
          c.accepted = [⟨1, "b", "B"⟩, ⟨1, "a", "A"⟩] ∧ c.removed = [] :=
    ⟨_, rfl, by decide, by decide, by decide, by decide⟩
  obtain ⟨c, hc, hquiet, hrules, haccepted, hremoved⟩ := hend
  have hconverged := hall literalRegex _ _ c (Machine.runs_of_exec hc) hquiet 0 ⟨1, "b", "B"⟩
  rw [hrules, haccepted, hremoved] at hconverged
  exact absurd (hconverged.mpr ⟨by decide, by decide⟩) (by decide)

end WafCluster

end XiraNet

import XiraNet.Middleware.WafRules
import XiraNet.Middleware.WafVerdicts

/-!
# Custom rules and the configuration

The patterns of the configuration are loaded into the firewall when it starts and whenever
`spawn_config_sync` of `bootstrap/state.rs` finds that their hash has changed. A load replaces
every custom rule, also those that came from the admin interface or another node. Calls run one
after the other here. The hash of the standard library is a parameter.

* `ConfiguredWaf.enforced_of_runs`: after a tick every request that a pattern of the configuration
  matches is blocked.
* `ConfiguredWaf.lifetime_iff`: how long a custom rule stays.
-/

namespace XiraNet

namespace WafNode

variable (compile : String → Except String Regex)

/-- The loop of `load_custom_patterns_from_strings`, with the counter behind it. A pattern that does
not compile is skipped and draws no id. -/
def compileRules (now : ℕ) : ℕ → List String → List CustomRule × ℕ
  | next, [] => ([], next)
  | next, src :: patterns =>
      match compile src with
      | .ok re =>
          let (rules, next') := compileRules now (wrappingAdd next 1) patterns
          let rule : CustomRule :=
            { id := next, patternSrc := src, pattern := re, label := "CUSTOM", createdAt := now }
          (rule :: rules, next')
      | .error _ => compileRules now next patterns

/-- `load_custom_patterns_from_strings`. -/
def loadCustomPatternsFromStrings (n : WafNode) (now : ℕ) (patterns : List String) : WafNode :=
  let (compiled, next) := compileRules compile now n.nextRuleId patterns
  { waf := { n.waf with customPatterns := compiled }, nextRuleId := next }

/-- Every custom rule has what its text compiles to. -/
def Compiled (n : WafNode) : Prop :=
  ∀ rule ∈ n.waf.customPatterns, compile rule.patternSrc = .ok rule.pattern

/-- The counter is past the ids of the rules. -/
def Below (n : WafNode) : Prop := ∀ r ∈ n.rules, r.id < n.nextRuleId

variable {compile} {n : WafNode} {now id : ℕ} {patterns : List String} {src label : String}

/-- A compiled rule is one of the patterns. -/
theorem compileRules_sound {next : ℕ} {rule : CustomRule}
    (h : rule ∈ (compileRules compile now next patterns).1) :
    rule.patternSrc ∈ patterns ∧ compile rule.patternSrc = .ok rule.pattern := by
  induction patterns generalizing next with
  | nil => exact absurd h List.not_mem_nil
  | cons src patterns ih =>
      rw [compileRules] at h
      cases hcompile : compile src with
      | error e =>
          rw [hcompile] at h
          exact (ih h).imp_left (List.mem_cons_of_mem _)
      | ok re =>
          rw [hcompile] at h
          rcases List.mem_cons.mp h with rfl | hrest
          · exact ⟨List.mem_cons_self, hcompile⟩
          · exact (ih hrest).imp_left (List.mem_cons_of_mem _)

variable (now) in
/-- A pattern that compiles has a rule. -/
theorem compileRules_complete (next : ℕ) {re : Regex} (hsrc : src ∈ patterns)
    (hcompile : compile src = .ok re) :
    ∃ rule ∈ (compileRules compile now next patterns).1, rule.patternSrc = src := by
  induction patterns generalizing next with
  | nil => exact absurd hsrc List.not_mem_nil
  | cons src' patterns ih =>
      rw [compileRules]
      rcases List.mem_cons.mp hsrc with rfl | hrest
      · rw [hcompile]
        exact ⟨_, List.mem_cons_self, rfl⟩
      · cases compile src' with
        | error e => exact ih next hrest
        | ok re' =>
            obtain ⟨rule, hrule, heq⟩ := ih (wrappingAdd next 1) hrest
            exact ⟨rule, List.mem_cons_of_mem _ hrule, heq⟩

variable (compile now) in
/-- The ids of the compiled rules lie between the counter before and behind the loop. -/
theorem compileRules_ids (next : ℕ) (hroom : next + patterns.length < 2 ^ 64) :
    next ≤ (compileRules compile now next patterns).2 ∧
      ∀ rule ∈ (compileRules compile now next patterns).1,
        next ≤ rule.id ∧ rule.id < (compileRules compile now next patterns).2 := by
  induction patterns generalizing next with
  | nil => exact ⟨le_rfl, fun _ h => absurd h List.not_mem_nil⟩
  | cons src patterns ih =>
      rw [List.length_cons] at hroom
      rw [compileRules]
      cases compile src with
      | error e => exact ih next (by omega)
      | ok re =>
          have hnext : wrappingAdd next 1 = next + 1 := Nat.mod_eq_of_lt (by omega)
          obtain ⟨hle, hids⟩ := ih (next + 1) (by omega)
          rw [hnext]
          refine ⟨by dsimp only; omega, fun rule hrule => ?_⟩
          rcases List.mem_cons.mp hrule with rfl | hrest
          · exact ⟨le_rfl, by dsimp only; omega⟩
          · have := hids rule hrest
            exact ⟨by omega, this.2⟩

/-- The rules after a load. -/
theorem mem_rules_load {r : RuleEntry} :
    r ∈ (n.loadCustomPatternsFromStrings compile now patterns).rules ↔
      ∃ rule ∈ (compileRules compile now n.nextRuleId patterns).1,
        (⟨rule.id, rule.patternSrc, rule.label⟩ : RuleEntry) = r :=
  List.mem_map

/-- After a load every pattern that compiles has a rule. -/
theorem exists_rule_load (hsrc : src ∈ patterns) (hok : (compile src).isOk) :
    ∃ r ∈ (n.loadCustomPatternsFromStrings compile now patterns).rules, r.pattern = src := by
  cases hcompile : compile src with
  | error e =>
      rw [hcompile] at hok
      cases hok
  | ok re =>
      obtain ⟨rule, hrule, rfl⟩ := compileRules_complete now n.nextRuleId hsrc hcompile
      exact ⟨_, mem_rules_load.mpr ⟨rule, hrule, rfl⟩, rfl⟩

/-- A load leaves rules with what their texts compile to. -/
theorem compiled_load : (n.loadCustomPatternsFromStrings compile now patterns).Compiled compile :=
  fun _ hrule => (compileRules_sound hrule).2

/-- A load keeps the counter past the ids, and gives no id away again. -/
theorem below_load (hroom : n.nextRuleId + patterns.length < 2 ^ 64) :
    (n.loadCustomPatternsFromStrings compile now patterns).Below ∧
      ∀ r ∈ (n.loadCustomPatternsFromStrings compile now patterns).rules, n.nextRuleId ≤ r.id := by
  have hids := (compileRules_ids compile now n.nextRuleId hroom).2
  constructor
  · intro r hr
    obtain ⟨rule, hrule, rfl⟩ := mem_rules_load.mp hr
    exact (hids rule hrule).2
  · intro r hr
    obtain ⟨rule, hrule, rfl⟩ := mem_rules_load.mp hr
    exact (hids rule hrule).1

/-- The node after `add_custom_pattern`, whether the pattern compiles or not. -/
theorem addCustomPattern_node :
    (n.addCustomPattern compile now src label).2.2 =
      (({ n with nextRuleId := wrappingAdd n.nextRuleId 1 } : WafNode).applyAddPatternWithId
        compile now n.nextRuleId src label).2 := by
  cases hcompile : compile src with
  | error e => rw [addCustomPattern_of_error hcompile, applyAdd_of_error hcompile]
  | ok re => rw [addCustomPattern_of_ok hcompile]

/-- The node after `remove_custom_pattern`. -/
theorem removeCustomPattern_node :
    (n.removeCustomPattern id).2.2 = (n.applyRemovePattern id).2 := by
  rw [removeCustomPattern_eq rfl]

variable (compile n now id src label) in
/-- A rule that arrives changes nothing or comes behind the others, with what its text compiles
to. -/
theorem applyAdd_cases :
    (n.applyAddPatternWithId compile now id src label).2 = n ∨
      ∃ re, compile src = .ok re ∧ (∀ r ∈ n.rules, r.id ≠ id) ∧
        (n.applyAddPatternWithId compile now id src label).2 =
          { waf := { n.waf with
              customPatterns := n.waf.customPatterns ++ [⟨id, src, re, storedLabel label, now⟩] }
            nextRuleId := if n.nextRuleId ≤ id then wrappingAdd id 1 else n.nextRuleId } := by
  cases hcompile : compile src with
  | error e =>
      left
      rw [applyAdd_of_error hcompile]
  | ok re =>
      simp only [applyAddPatternWithId, hcompile]
      split
      next => exact .inl rfl
      next hnew =>
        refine .inr ⟨re, rfl, ?_, rfl⟩
        intro r hr heq
        obtain ⟨rule, hrule, rfl⟩ := List.mem_map.mp hr
        exact hnew (List.any_eq_true.mpr ⟨rule, hrule, by simpa using heq⟩)

/-- A rule that arrives leaves rules with what their texts compile to. -/
theorem Compiled.applyAdd (hn : n.Compiled compile) :
    (n.applyAddPatternWithId compile now id src label).2.Compiled compile := by
  rcases applyAdd_cases compile n now id src label with heq | ⟨re, hcompile, -, heq⟩
  · rw [heq]
    exact hn
  · rw [heq]
    intro rule hrule
    rcases List.mem_append.mp hrule with hold | hnew
    · exact hn rule hold
    · obtain rfl := List.mem_singleton.mp hnew
      exact hcompile

/-- A removal leaves rules with what their texts compile to. -/
theorem Compiled.applyRemove (hn : n.Compiled compile) :
    (n.applyRemovePattern id).2.Compiled compile :=
  fun rule hrule => hn rule (List.mem_of_mem_filter hrule)

/-- A rule that arrives leaves the counter past the ids. -/
theorem Below.applyAdd (hn : n.Below) (hroom : id + 1 < 2 ^ 64) :
    (n.applyAddPatternWithId compile now id src label).2.Below := by
  rcases applyAdd_cases compile n now id src label with heq | ⟨re, hcompile, -, heq⟩
  · rw [heq]
    exact hn
  · rw [heq]
    have hnext : wrappingAdd id 1 = id + 1 := Nat.mod_eq_of_lt hroom
    intro r hr
    rw [hnext]
    obtain ⟨rule, hrule, rfl⟩ := List.mem_map.mp hr
    rcases List.mem_append.mp hrule with hold | hnew
    · have hlt : rule.id < n.nextRuleId := hn _ (List.mem_map_of_mem hold)
      dsimp only
      split <;> omega
    · obtain rfl := List.mem_singleton.mp hnew
      dsimp only
      split <;> omega

/-- A removal leaves the counter past the ids. -/
theorem Below.applyRemove (hn : n.Below) : (n.applyRemovePattern id).2.Below :=
  fun r hr => hn r (mem_rules_applyRemove.mp hr).1

/-- A rule that arrives takes none away. -/
theorem mem_applyAdd_of_mem {r : RuleEntry} (hr : r ∈ n.rules) :
    r ∈ (n.applyAddPatternWithId compile now id src label).2.rules := by
  cases hcompile : compile src with
  | error e =>
      rw [applyAdd_of_error hcompile]
      exact hr
  | ok re => exact (mem_rules_applyAdd hcompile).mpr (.inl hr)

end WafNode

/-- The firewall of a node and its configuration: the patterns that the configuration has now,
`last_waf_patterns_hash`, and the patterns of the last load. -/
structure ConfiguredWaf where
  node : WafNode
  patterns : List String
  lastHash : ℕ
  source : List String

/-- A change of the configuration, a tick of the clock or a call; the clock dates the rules. -/
inductive ConfiguredWafAction
  /-- The file was read again. -/
  | configure (patterns : List String)
  | tick (now : ℕ)
  | add (now : ℕ) (pattern label : String)
  | remove (id : ℕ)
  /-- An event of another node. -/
  | deliver (now : ℕ) (event : BusEvent)
  deriving DecidableEq

namespace ConfiguredWaf

variable (compile : String → Except String Regex) (hash : List String → ℕ)

/-- The firewall when the node has started. -/
def initial (waf : Waf) (now : ℕ) (patterns : List String) : ConfiguredWaf where
  node := (WafNode.new waf).loadCustomPatternsFromStrings compile now patterns
  patterns
  -- The task starts with no hash, so it loads the patterns once more.
  lastHash := 0
  source := patterns

/-- What a tick of `spawn_config_sync` does to the firewall. -/
def tick (s : ConfiguredWaf) (now : ℕ) : ConfiguredWaf :=
  if hash s.patterns ≠ s.lastHash then
    { s with
      node := s.node.loadCustomPatternsFromStrings compile now s.patterns
      lastHash := hash s.patterns
      source := s.patterns }
  else s

/-- One step. -/
def step (s : ConfiguredWaf) : ConfiguredWafAction → Option ConfiguredWaf
  | .configure patterns => some { s with patterns }
  | .tick now => some (s.tick compile hash now)
  | .add now pattern label =>
      some { s with node := (s.node.addCustomPattern compile now pattern label).2.2 }
  | .remove id => some { s with node := (s.node.removeCustomPattern id).2.2 }
  | .deliver now event => some { s with node := s.node.handle compile now event }

/-- Every history of the node. -/
def machine : Machine ConfiguredWaf ConfiguredWafAction := ⟨step compile hash⟩

/-- A request is blocked if a pattern of the configuration matches something that is inspected of
it. -/
def Enforced (s : ConfiguredWaf) : Prop :=
  ∀ src ∈ s.patterns, ∀ re, compile src = .ok re →
    ∀ path query body headers ip, (∃ input ∈ Waf.inputs path query body headers, re input = true) →
      ∃ reason label, s.node.waf.inspect path query body headers ip = .block reason label

/-- The removal of an id leaves every pattern of the last load with a rule that had one. -/
def Spares (s : ConfiguredWaf) (id : ℕ) : Prop :=
  ∀ src ∈ s.source, (∃ r ∈ s.node.rules, r.pattern = src) →
    ∃ r ∈ s.node.rules, r.pattern = src ∧ r.id ≠ id

instance (s : ConfiguredWaf) (id : ℕ) : Decidable (s.Spares id) :=
  inferInstanceAs (Decidable (∀ src ∈ s.source, _ → _))

/-- The steps after which the firewall still follows the configuration: no rule of it is removed,
and a tick sees that the patterns have changed. -/
def Follows (s : ConfiguredWaf) : ConfiguredWafAction → Prop
  | .tick _ => hash s.patterns = s.lastHash → s.patterns = s.source
  | .remove id | .deliver _ (.wafRuleRemoved id) => s.Spares id
  | _ => True

instance (s : ConfiguredWaf) : (a : ConfiguredWafAction) → Decidable (s.Follows hash a)
  | .tick _ => inferInstanceAs (Decidable (_ → _))
  | .remove id | .deliver _ (.wafRuleRemoved id) => inferInstanceAs (Decidable (s.Spares id))
  | .configure _ | .add .. | .deliver _ (.wafRuleAdded ..)
  | .deliver _ (.sessionInvalidateUser _) | .deliver _ (.sessionInvalidateToken _) =>
      .isTrue trivial

/-- The steps in which the counter does not wrap. -/
def HasRoom (s : ConfiguredWaf) : ConfiguredWafAction → Prop
  | .tick _ => s.node.nextRuleId + s.patterns.length < 2 ^ 64
  | .add .. => s.node.nextRuleId + 1 < 2 ^ 64
  | .deliver _ (.wafRuleAdded id _ _) => id + 1 < 2 ^ 64
  | _ => True

instance (s : ConfiguredWaf) : (a : ConfiguredWafAction) → Decidable (s.HasRoom a)
  | .tick _ | .add .. | .deliver _ (.wafRuleAdded ..) => inferInstanceAs (Decidable (_ < _))
  | .configure _ | .remove _ | .deliver _ (.wafRuleRemoved _)
  | .deliver _ (.sessionInvalidateUser _) | .deliver _ (.sessionInvalidateToken _) =>
      .isTrue trivial

/-- The steps that leave a rule where it is: no call or event removes its id, and a tick finds the
hash it has seen. -/
def Leaves (id : ℕ) (s : ConfiguredWaf) : ConfiguredWafAction → Prop
  | .tick _ => hash s.patterns = s.lastHash
  | .remove id' | .deliver _ (.wafRuleRemoved id') => id' ≠ id
  | _ => True

instance (id : ℕ) (s : ConfiguredWaf) : (a : ConfiguredWafAction) → Decidable (s.Leaves hash id a)
  | .tick _ => inferInstanceAs (Decidable (_ = _))
  | .remove _ | .deliver _ (.wafRuleRemoved _) => inferInstanceAs (Decidable (_ ≠ _))
  | .configure _ | .add .. | .deliver _ (.wafRuleAdded ..)
  | .deliver _ (.sessionInvalidateUser _) | .deliver _ (.sessionInvalidateToken _) =>
      .isTrue trivial

/-- The invariant of a node that follows its configuration. -/
structure Inv (s : ConfiguredWaf) : Prop where
  compiled : s.node.Compiled compile
  enabled : s.node.waf.enabled = true
  mode : s.node.waf.mode = .block
  loaded : ∀ src ∈ s.source, (compile src).isOk → ∃ r ∈ s.node.rules, r.pattern = src

variable {compile} {hash} {s t : ConfiguredWaf} {now id : ℕ}

/-- A load of the patterns of the configuration. -/
theorem Inv.load (hs : s.Inv compile) {lastHash : ℕ} :
    Inv compile { s with
      node := s.node.loadCustomPatternsFromStrings compile now s.patterns
      lastHash, source := s.patterns } where
  compiled := WafNode.compiled_load
  enabled := hs.enabled
  mode := hs.mode
  loaded _ hsrc hok := WafNode.exists_rule_load hsrc hok

/-- A rule that arrives. -/
theorem Inv.applyAdd (hs : s.Inv compile) {next : ℕ} {src label : String} :
    Inv compile { s with
      node := (({ s.node with nextRuleId := next } : WafNode).applyAddPatternWithId compile now id
        src label).2 } := by
  have hcompiled : ({ s.node with nextRuleId := next } : WafNode).Compiled compile := hs.compiled
  -- Only the custom rules of the firewall can differ.
  have hwaf : ∀ P : Waf → Prop, P s.node.waf → (∀ rules, P { s.node.waf with
      customPatterns := rules }) → P (({ s.node with nextRuleId := next } :
        WafNode).applyAddPatternWithId compile now id src label).2.waf := by
    intro P hold hnew
    rcases WafNode.applyAdd_cases compile { s.node with nextRuleId := next } now id src label
      with heq | ⟨re, -, -, heq⟩
    · rw [heq]
      exact hold
    · rw [heq]
      exact hnew _
  exact {
    compiled := hcompiled.applyAdd
    enabled := hwaf (·.enabled = true) hs.enabled fun _ => hs.enabled
    mode := hwaf (·.mode = .block) hs.mode fun _ => hs.mode
    loaded := fun src' hsrc hok => by
      obtain ⟨r, hr, hpattern⟩ := hs.loaded src' hsrc hok
      exact ⟨r, WafNode.mem_applyAdd_of_mem (n := { s.node with nextRuleId := next }) hr,
        hpattern⟩ }

/-- The removal of an id that spares the patterns of the configuration. -/
theorem Inv.applyRemove (hs : s.Inv compile) (hspares : s.Spares id) :
    Inv compile { s with node := (s.node.applyRemovePattern id).2 } where
  compiled := hs.compiled.applyRemove
  enabled := hs.enabled
  mode := hs.mode
  loaded src hsrc hok := by
    obtain ⟨r, hr, hpattern, hid⟩ := hspares src hsrc (hs.loaded src hsrc hok)
    exact ⟨r, WafNode.mem_rules_applyRemove.mpr ⟨hr, hid⟩, hpattern⟩

/-- The invariant holds when the node has started. -/
theorem inv_initial {waf : Waf} {patterns : List String} (henabled : waf.enabled = true)
    (hmode : waf.mode = .block) : (initial compile waf now patterns).Inv compile where
  compiled := WafNode.compiled_load
  enabled := henabled
  mode := hmode
  loaded _ hsrc hok := WafNode.exists_rule_load hsrc hok

/-- A tick keeps the invariant. -/
theorem Inv.tick (hs : s.Inv compile) : (s.tick compile hash now).Inv compile := by
  unfold ConfiguredWaf.tick
  split
  · exact hs.load
  · exact hs

/-- Every step of a node that follows its configuration keeps the invariant. -/
theorem inv_step {a : ConfiguredWafAction} (hs : s.Inv compile) (hok : s.Follows hash a)
    (h : s.step compile hash a = some t) : t.Inv compile := by
  cases a with
  | configure patterns =>
      cases h
      exact { hs with }
  | tick now =>
      cases h
      exact hs.tick
  | add now pattern label =>
      cases h
      rw [WafNode.addCustomPattern_node]
      exact hs.applyAdd
  | remove id =>
      cases h
      rw [WafNode.removeCustomPattern_node]
      exact hs.applyRemove hok
  | deliver now event =>
      cases h
      cases event with
      | wafRuleAdded id pattern label => exact hs.applyAdd
      | wafRuleRemoved id => exact hs.applyRemove hok
      | sessionInvalidateUser _ => exact { hs with }
      | sessionInvalidateToken _ => exact { hs with }

/-- After a tick that sees the changes, the last load was that of the present patterns. -/
theorem source_tick (hok : s.Follows hash (.tick now)) :
    (s.tick compile hash now).source = (s.tick compile hash now).patterns := by
  unfold ConfiguredWaf.tick
  split
  next => rfl
  next hsame => exact (hok (not_not.mp hsame)).symm

/-- A node that holds what was loaded enforces it. -/
theorem Inv.enforced (hs : s.Inv compile) (hsource : s.source = s.patterns) :
    s.Enforced compile := by
  intro src hsrc re hcompile path query body headers ip hmatch
  obtain ⟨r, hr, hpattern⟩ := hs.loaded src (hsource ▸ hsrc) (by rw [hcompile]; rfl)
  obtain ⟨rule, hrule, rfl⟩ := List.mem_map.mp hr
  -- The rule has the pattern that the text compiles to.
  have hre : rule.pattern = re :=
    Except.ok.inj ((hs.compiled rule hrule).symm.trans ((congrArg compile hpattern).trans hcompile))
  obtain ⟨input, hinput, htrue⟩ := hmatch
  apply (Waf.exists_block_iff hs.enabled hs.mode).mpr
  exact .inr ⟨rule.pattern, List.mem_append_right _ (List.mem_map_of_mem hrule), input, hinput,
    hre ▸ htrue⟩

/-- On a node that follows its configuration, every tick leaves the configured patterns in force:
a request that one of them matches is blocked. -/
theorem enforced_of_runs {waf : Waf} {boot : ℕ} {patterns : List String}
    {as : List ConfiguredWafAction} (henabled : waf.enabled = true) (hmode : waf.mode = .block)
    (hrun : (machine compile hash).Runs (Follows hash) (initial compile waf boot patterns) as s)
    (htick : s.Follows hash (.tick now)) : (s.tick compile hash now).Enforced compile := by
  have hinv : s.Inv compile :=
    hrun.invariant (fun _ _ _ hs hok h => inv_step hs hok h) (inv_initial henabled hmode)
  exact hinv.tick.enforced (source_tick htick)

/-- A pattern that is searched for as it is; brackets do not compile. -/
def compileLiteral (src : String) : Except String Regex :=
  if src = "(" then .error "unclosed group" else .ok fun input => Text.contains input src

/-- A hash that tells apart lists of different length. -/
def hashLength (patterns : List String) : ℕ := patterns.length + 1

/-- A firewall without patterns. -/
def bareWaf : Waf := ⟨true, [], [], [], [], [], .block⟩

/-- The patterns change while another rule comes and goes. -/
theorem enforced_changedPatterns : ∃ s,
    (machine compileLiteral hashLength).Runs (Follows hashLength)
      (initial compileLiteral bareWaf 5 ["union"])
      [.tick 6, .add 7 "evil" "", .configure ["union", "(", "drop"], .remove 3] s ∧
    s.patterns = ["union", "(", "drop"] ∧
    (s.tick compileLiteral hashLength 8).Enforced compileLiteral := by
  obtain ⟨s, hs, hpatterns, htick⟩ : ∃ s, (machine compileLiteral hashLength).exec
      (Follows hashLength) (initial compileLiteral bareWaf 5 ["union"])
      [.tick 6, .add 7 "evil" "", .configure ["union", "(", "drop"], .remove 3] = some s ∧
      s.patterns = ["union", "(", "drop"] ∧ s.Follows hashLength (.tick 8) :=
    ⟨_, rfl, by decide⟩
  have hrun := Machine.runs_of_exec hs
  exact ⟨s, hrun, hpatterns, enforced_of_runs rfl rfl hrun htick⟩

/-- Every step keeps the counter past the ids. -/
theorem below_step {a : ConfiguredWafAction} (hs : s.node.Below) (hroom : s.HasRoom a)
    (h : s.step compile hash a = some t) : t.node.Below := by
  cases a with
  | configure patterns =>
      cases h
      exact hs
  | tick now =>
      cases h
      unfold ConfiguredWaf.tick
      split
      · exact (WafNode.below_load hroom).1
      · exact hs
  | add now pattern label =>
      cases h
      rw [WafNode.addCustomPattern_node]
      have hnext : wrappingAdd s.node.nextRuleId 1 = s.node.nextRuleId + 1 :=
        Nat.mod_eq_of_lt hroom
      have hbelow : WafNode.Below { s.node with nextRuleId := wrappingAdd s.node.nextRuleId 1 } :=
        fun r hr => hnext ▸ Nat.lt_succ_of_lt (hs r hr)
      exact hbelow.applyAdd hroom
  | remove id =>
      cases h
      rw [WafNode.removeCustomPattern_node]
      exact hs.applyRemove
  | deliver now event =>
      cases h
      cases event with
      | wafRuleAdded id pattern label => exact hs.applyAdd hroom
      | wafRuleRemoved id => exact hs.applyRemove
      | sessionInvalidateUser _ => exact hs
      | sessionInvalidateToken _ => exact hs

/-- The step keeps a rule if it leaves its id alone, and takes it away otherwise: a load draws new
ids for every rule. -/
theorem mem_rules_step_iff {a : ConfiguredWafAction} {r : RuleEntry} (hs : s.node.Below)
    (hroom : s.HasRoom a) (hr : r ∈ s.node.rules) (h : s.step compile hash a = some t) :
    r ∈ t.node.rules ↔ s.Leaves hash r.id a := by
  cases a with
  | configure patterns =>
      cases h
      exact iff_of_true hr trivial
  | tick now =>
      cases h
      unfold ConfiguredWaf.tick
      split
      next hchanged =>
        refine iff_of_false (fun hin => ?_) hchanged
        -- A load draws new ids, even where a pattern is still configured.
        have hle := (WafNode.below_load hroom).2 r hin
        exact absurd (hs r hr) (Nat.not_lt.mpr hle)
      next hsame => exact iff_of_true hr (not_not.mp hsame)
  | add now pattern label =>
      cases h
      rw [WafNode.addCustomPattern_node]
      exact iff_of_true (WafNode.mem_applyAdd_of_mem
        (n := { s.node with nextRuleId := wrappingAdd s.node.nextRuleId 1 }) hr) trivial
  | remove id =>
      cases h
      rw [WafNode.removeCustomPattern_node, WafNode.mem_rules_applyRemove]
      exact (and_iff_right hr).trans ne_comm
  | deliver now event =>
      cases h
      cases event with
      | wafRuleAdded id pattern label => exact iff_of_true (WafNode.mem_applyAdd_of_mem hr) trivial
      | wafRuleRemoved id =>
          exact WafNode.mem_rules_applyRemove.trans ((and_iff_right hr).trans ne_comm)
      | sessionInvalidateUser _ => exact iff_of_true hr trivial
      | sessionInvalidateToken _ => exact iff_of_true hr trivial

-- A change of the patterns takes it away.
example : ((machine compileLiteral hashLength).exec HasRoom
    (initial compileLiteral bareWaf 5 ["union"])
    [.tick 6, .add 7 "evil" "", .configure [], .tick 8]).map (·.node.rules) = some [] := by
  decide

end ConfiguredWaf

end XiraNet

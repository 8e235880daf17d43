import Mathlib.Data.String.Basic
import XiraNet.Base
import XiraNet.Lib.Bytes
import XiraNet.Lib.DashMap
import XiraNet.Lib.Runs
import XiraNet.Lib.Text

/-!
# Feature flags

`deployment/feature_flags.rs`. Each call holds the lock of its flag, so each is one step. The hash
is any function of the bytes that are hashed.

* `FlagState.rollout`: the rollout of a flag is steady and monotone, and its counters are right for
  `2 ^ 64 - 1` evaluations.
* `FlagState.counters_fail`: after `2 ^ 64` evaluations more of them count as true than there were.
-/

namespace XiraNet

/-- `Operator`. -/
inductive FlagOperator
  | equals
  | notEquals
  | contains
  | startsWith
  | inList
  deriving DecidableEq, Repr

/-- `TargetRule`. -/
structure TargetRule where
  attributeName : String
  operator : FlagOperator
  value : String
  deriving DecidableEq, Repr

/-- `FeatureFlag`. -/
structure FeatureFlag where
  name : String
  enabled : Bool
  description : String
  percentage : ℕ
  rules : List TargetRule
  createdAt : ℕ
  updatedAt : ℕ
  evalCount : ℕ
  trueCount : ℕ
  deriving DecidableEq, Repr

/-- The attributes of a request, a `HashMap`. -/
abbrev FlagContext := DashMap String String

/-- Whether a rule matches. A missing attribute is empty. -/
def TargetRule.matchesContext (rule : TargetRule) (context : FlagContext) : Bool :=
  let attrValue := (context.lookup rule.attributeName).getD ""
  match rule.operator with
  | .equals => attrValue = rule.value
  | .notEquals => attrValue ≠ rule.value
  | .contains => Text.contains attrValue rule.value
  | .startsWith => Text.startsWith attrValue rule.value
  | .inList => (Text.split rule.value ',').any fun v => Text.trim v = attrValue

/-- The order of the context does not matter to a rule. -/
theorem TargetRule.matchesContext_of_perm (rule : TargetRule)
    {context context' : FlagContext} (h : context'.entries.Perm context.entries) :
    rule.matchesContext context' = rule.matchesContext context := by
  simp only [TargetRule.matchesContext, AList.perm_lookup h]

/-- The bytes that `Hash` for `str` writes. -/
def strHashBytes (s : String) : List UInt8 := Utf8.encode s ++ [0xff]

/-- The bytes that are hashed for a flag and a context. -/
def rolloutBytes (name : String) (context : FlagContext) : List UInt8 :=
  context.sorted.flatMap (fun e => strHashBytes e.1 ++ strHashBytes e.2) ++ strHashBytes name

namespace FeatureFlag

variable (hash : List UInt8 → ℕ)

/-- What `evaluate` does to a flag, with the answer. -/
def evaluate (flag : FeatureFlag) (name : String) (context : FlagContext) : FeatureFlag × Bool :=
  let flag := { flag with evalCount := wrappingAdd flag.evalCount 1 }
  if !flag.enabled then (flag, false)
  else if flag.rules.any fun rule => !rule.matchesContext context then (flag, false)
  else if flag.percentage < 100 ∧ flag.percentage ≤ hash (rolloutBytes name context) % 100 then
    (flag, false)
  else ({ flag with trueCount := wrappingAdd flag.trueCount 1 }, true)

/-- The answer of `evaluate`. -/
def answer (flag : FeatureFlag) (name : String) (context : FlagContext) : Bool :=
  flag.enabled && flag.rules.all (·.matchesContext context) &&
    (100 ≤ flag.percentage || hash (rolloutBytes name context) % 100 < flag.percentage)

/-- What `evaluate` does, in terms of its answer. -/
theorem evaluate_eq (flag : FeatureFlag) (name : String) (context : FlagContext) :
    flag.evaluate hash name context =
      ({ flag with
        evalCount := wrappingAdd flag.evalCount 1
        trueCount := if flag.answer hash name context then wrappingAdd flag.trueCount 1
          else flag.trueCount }, flag.answer hash name context) := by
  have hrules : (flag.rules.any fun rule => !rule.matchesContext context) =
      !flag.rules.all (·.matchesContext context) := by
    rw [List.any_eq_not_all_not]
    simp only [Bool.not_not]
  cases henabled : flag.enabled with
  | false => simp [evaluate, answer, henabled]
  | true =>
      cases hall : flag.rules.all (·.matchesContext context) with
      | false => simp [evaluate, answer, henabled, hrules, hall]
      | true =>
          by_cases hfull : 100 ≤ flag.percentage
          · simp [evaluate, answer, henabled, hrules, hall, hfull, Nat.not_lt.mpr hfull]
          · by_cases hbucket : hash (rolloutBytes name context) % 100 < flag.percentage
            · simp [evaluate, answer, henabled, hrules, hall, hbucket, Nat.not_le.mpr hbucket]
            · simp [evaluate, answer, henabled, hrules, hall, hfull, hbucket, Nat.not_le.mp hfull,
                Nat.not_lt.mp hbucket]

/-- The switch, the rules and the percentage of a flag. -/
def settings (flag : FeatureFlag) : Bool × List TargetRule × ℕ :=
  (flag.enabled, flag.rules, flag.percentage)

/-- The answer depends on the settings only. -/
theorem answer_congr {flag flag' : FeatureFlag} (h : flag'.settings = flag.settings)
    (name : String) (context : FlagContext) :
    flag'.answer hash name context = flag.answer hash name context := by
  simp only [settings, Prod.mk.injEq] at h
  obtain ⟨henabled, hrules, hpercentage⟩ := h
  simp only [answer, henabled, hrules, hpercentage]

/-- An evaluation keeps the settings. -/
theorem settings_evaluate (flag : FeatureFlag) (name : String) (context : FlagContext) :
    (flag.evaluate hash name context).1.settings = flag.settings := by
  rw [evaluate_eq]
  rfl

/-- The order of the context does not matter to the answer. -/
theorem answer_of_perm (flag : FeatureFlag) (name : String) {context context' : FlagContext}
    (h : context'.entries.Perm context.entries) :
    flag.answer hash name context' = flag.answer hash name context := by
  have hbytes : rolloutBytes name context' = rolloutBytes name context := by
    rw [rolloutBytes, DashMap.sorted_of_perm h, rolloutBytes]
  simp only [answer, hbytes, TargetRule.matchesContext_of_perm _ h]

/-- A flag that is on for a context is on at every higher percentage. -/
theorem answer_mono {flag : FeatureFlag} {name : String} {context : FlagContext} {percentage : ℕ}
    (hle : flag.percentage ≤ percentage) (h : flag.answer hash name context = true) :
    ({ flag with percentage } : FeatureFlag).answer hash name context = true := by
  simp only [answer, Bool.and_eq_true, Bool.or_eq_true, decide_eq_true_iff] at h ⊢
  exact ⟨h.1, h.2.imp hle.trans' fun hbucket => hbucket.trans_le hle⟩

/-- A flag that is on with one more rule is on without it. -/
theorem answer_of_addRule {flag : FeatureFlag} {rule : TargetRule} {name : String}
    {context : FlagContext}
    (h : ({ flag with rules := flag.rules ++ [rule] } : FeatureFlag).answer hash name context =
      true) : flag.answer hash name context = true := by
  simp only [answer, List.all_append, Bool.and_eq_true] at h ⊢
  exact ⟨⟨h.1.1, h.1.2.1⟩, h.2⟩

end FeatureFlag

/-- `FeatureFlagManager`. -/
structure FeatureFlagManager where
  flags : DashMap String FeatureFlag

namespace FeatureFlagManager

/-- `create`. -/
def create (m : FeatureFlagManager) (name description : String) (enabled : Bool)
    (percentage now : ℕ) : FeatureFlagManager :=
  ⟨m.flags.insert name ⟨name, enabled, description, percentage, [], now, now, 0, 0⟩⟩

/-- `evaluate`. An unknown flag is off. -/
def evaluate (hash : List UInt8 → ℕ) (m : FeatureFlagManager) (name : String)
    (context : FlagContext) : FeatureFlagManager × Bool :=
  (⟨m.flags.modify name fun flag => (flag.evaluate hash name context).1⟩,
    ((m.flags.lookup name).map fun flag => (flag.evaluate hash name context).2).getD false)

/-- `add_rule`. -/
def addRule (m : FeatureFlagManager) (flagName : String) (rule : TargetRule) :
    FeatureFlagManager × Bool :=
  (⟨m.flags.modify flagName fun flag => { flag with rules := flag.rules ++ [rule] }⟩,
    (m.flags.lookup flagName).isSome)

/-- `toggle`. -/
def toggle (m : FeatureFlagManager) (name : String) : FeatureFlagManager × Option Bool :=
  (⟨m.flags.modify name fun flag => { flag with enabled := !flag.enabled }⟩,
    (m.flags.lookup name).map fun flag => !flag.enabled)

/-- The answer of `evaluate`. -/
theorem evaluate_snd (hash : List UInt8 → ℕ) (m : FeatureFlagManager) (name : String)
    (context : FlagContext) : (m.evaluate hash name context).2 =
      ((m.flags.lookup name).map fun flag => flag.answer hash name context).getD false := by
  simp only [evaluate, FeatureFlag.evaluate_eq]

end FeatureFlagManager

/-- The calls that reach a flag. -/
inductive FlagAction
  | create (name description : String) (enabled : Bool) (percentage now : ℕ)
  | evaluate (name : String) (context : FlagContext)
  | addRule (name : String) (rule : TargetRule)
  | toggle (name : String)

/-- The manager, with the number of evaluations of each flag since it was created and of those that
were true. -/
structure FlagState where
  manager : FeatureFlagManager
  evaluations : String → ℕ
  truths : String → ℕ

namespace FlagState

/-- A new manager. -/
def initial : FlagState := ⟨⟨∅⟩, fun _ => 0, fun _ => 0⟩

/-- One call. -/
def step (hash : List UInt8 → ℕ) (s : FlagState) : FlagAction → FlagState
  | .create name description enabled percentage now =>
      ⟨s.manager.create name description enabled percentage now,
        Function.update s.evaluations name 0, Function.update s.truths name 0⟩
  | .evaluate name context =>
      let (manager, answer) := s.manager.evaluate hash name context
      ⟨manager, Function.update s.evaluations name (s.evaluations name + 1),
        if answer then Function.update s.truths name (s.truths name + 1) else s.truths⟩
  | .addRule name rule => { s with manager := (s.manager.addRule name rule).1 }
  | .toggle name => { s with manager := (s.manager.toggle name).1 }

/-- The calls on a manager, one after the other. -/
def machine (hash : List UInt8 → ℕ) : Machine FlagState FlagAction :=
  ⟨fun s a => some (s.step hash a)⟩

/-- A call that leaves the flag `name` unchanged, but for its counters. -/
def KeepsFlag (name : String) (_ : FlagState) : FlagAction → Prop
  | .create name' _ _ _ _ | .addRule name' _ | .toggle name' => name' ≠ name
  | .evaluate _ _ => True

/-- What the rollout of a flag has to satisfy. -/
structure Rollout (hash : List UInt8 → ℕ) : Prop where
  /-- The answer depends neither on the order of the context nor on what happens while the flag is
  unchanged. -/
  steady : ∀ {s t : FlagState} {as : List FlagAction} {name : String}
    {context context' : FlagContext},
    (machine hash).Runs (KeepsFlag name) s as t → context'.entries.Perm context.entries →
      (t.manager.evaluate hash name context').2 = (s.manager.evaluate hash name context).2
  monotone : ∀ {m : FeatureFlagManager} {name : String} {flag : FeatureFlag} {percentage : ℕ}
    {context : FlagContext}, m.flags.lookup name = some flag → flag.percentage ≤ percentage →
      (m.evaluate hash name context).2 = true →
        ((FeatureFlagManager.mk (m.flags.insert name { flag with percentage })).evaluate hash name
          context).2 = true
  addRule : ∀ {m : FeatureFlagManager} {name name' : String} {rule : TargetRule}
    {context : FlagContext}, ((m.addRule name rule).1.evaluate hash name' context).2 = true →
      (m.evaluate hash name' context).2 = true
  full : ∀ {m : FeatureFlagManager} {name : String} {flag : FeatureFlag} {context : FlagContext},
    m.flags.lookup name = some flag → 100 ≤ flag.percentage →
      (m.evaluate hash name context).2 =
        (flag.enabled && flag.rules.all (·.matchesContext context))
  empty : ∀ {m : FeatureFlagManager} {name : String} {flag : FeatureFlag} {context : FlagContext},
    m.flags.lookup name = some flag → flag.percentage = 0 →
      (m.evaluate hash name context).2 = false
  counters : ∀ {as : List FlagAction} {s : FlagState},
    (machine hash).Runs Machine.unrestricted initial as s →
      ∀ {name : String} {flag : FeatureFlag}, s.manager.flags.lookup name = some flag →
        s.evaluations name < 2 ^ 64 →
          flag.trueCount ≤ flag.evalCount ∧ flag.evalCount = s.evaluations name

/-- The counters of every flag are the numbers of its evaluations, modulo `2 ^ 64`. -/
def Counted (s : FlagState) : Prop :=
  ∀ name flag, s.manager.flags.lookup name = some flag →
    flag.evalCount = s.evaluations name % 2 ^ 64 ∧ flag.trueCount = s.truths name % 2 ^ 64 ∧
      s.truths name ≤ s.evaluations name

variable {hash : List UInt8 → ℕ} {s t : FlagState} {a : FlagAction}

/-- A call that leaves a flag unchanged keeps its settings. -/
theorem settings_step {name : String} (h : s.KeepsFlag name a) :
    ((s.step hash a).manager.flags.lookup name).map FeatureFlag.settings =
      (s.manager.flags.lookup name).map FeatureFlag.settings := by
  cases a with
  | create name' description enabled percentage now =>
      rw [step, FeatureFlagManager.create, DashMap.lookup_insert, if_neg (Ne.symm h)]
  | evaluate name' context =>
      rw [step, FeatureFlagManager.evaluate, DashMap.lookup_modify]
      split
      next heq =>
        subst heq
        rw [Option.map_map]
        exact Option.map_congr fun flag _ => flag.settings_evaluate hash name context
      next => rfl
  | addRule name' rule =>
      rw [step, FeatureFlagManager.addRule, DashMap.lookup_modify, if_neg (Ne.symm h)]
  | toggle name' =>
      rw [step, FeatureFlagManager.toggle, DashMap.lookup_modify, if_neg (Ne.symm h)]

/-- Flags with the same settings have the same answers. -/
theorem evaluate_snd_congr {m m' : FeatureFlagManager} {name : String}
    (h : (m'.flags.lookup name).map FeatureFlag.settings =
      (m.flags.lookup name).map FeatureFlag.settings) (context : FlagContext) :
    (m'.evaluate hash name context).2 = (m.evaluate hash name context).2 := by
  rw [FeatureFlagManager.evaluate_snd, FeatureFlagManager.evaluate_snd]
  cases hold : m.flags.lookup name with
  | none =>
      rw [hold, Option.map_none, Option.map_eq_none_iff] at h
      rw [h]
  | some flag =>
      rw [hold, Option.map_some, Option.map_eq_some_iff] at h
      obtain ⟨flag', hnew, hsame⟩ := h
      rw [hnew, Option.map_some, Option.map_some, FeatureFlag.answer_congr hash hsame]

/-- A change of a flag that keeps its counters. -/
theorem Counted.modify (hs : s.Counted) {f : FeatureFlag → FeatureFlag} (name : String)
    (hf : ∀ flag, (f flag).evalCount = flag.evalCount ∧ (f flag).trueCount = flag.trueCount) :
    Counted { s with manager := ⟨s.manager.flags.modify name f⟩ } := by
  intro name' flag hflag
  rw [DashMap.lookup_modify] at hflag
  split at hflag
  next heq =>
    subst heq
    obtain ⟨old, hold, rfl⟩ := Option.map_eq_some_iff.mp hflag
    rw [(hf old).1, (hf old).2]
    exact hs name' old hold
  next => exact hs name' flag hflag

/-- Every call counts what it evaluates. -/
theorem counted_step (hs : s.Counted) (a : FlagAction) : (s.step hash a).Counted := by
  intro name flag hflag
  cases a with
  | create name' description enabled percentage now =>
      simp only [step, FeatureFlagManager.create] at hflag ⊢
      rcases DashMap.lookup_insert_cases hflag with ⟨rfl, rfl⟩ | ⟨hne, hold⟩
      · -- The new flag counts from 0, and so does the state.
        simp only [Function.update_self, Nat.zero_mod, le_refl, and_self]
      · rw [Function.update_of_ne hne, Function.update_of_ne hne]
        exact hs name flag hold
  | evaluate name' context =>
      simp only [step, FeatureFlagManager.evaluate_snd] at hflag ⊢
      rw [FeatureFlagManager.evaluate, DashMap.lookup_modify] at hflag
      by_cases hname : name = name'
      · -- Both counters wrap around, each on its own.
        subst hname
        rw [if_pos rfl, Option.map_eq_some_iff] at hflag
        obtain ⟨old, hold, rfl⟩ := hflag
        obtain ⟨heval, htrue, hle⟩ := hs name old hold
        rw [hold, Option.map_some, Option.getD_some, FeatureFlag.evaluate_eq, Function.update_self]
        cases old.answer hash name context with
        | true =>
            simp only [if_true, Function.update_self, heval, htrue, wrappingAdd, Nat.mod_add_mod,
              true_and]
            omega
        | false =>
            simp only [Bool.false_eq_true, if_false, heval, htrue, wrappingAdd, Nat.mod_add_mod,
              true_and]
            omega
      · rw [if_neg hname] at hflag
        have hcounted := hs name flag hflag
        rw [Function.update_of_ne hname]
        split
        · rwa [Function.update_of_ne hname]
        · exact hcounted
  | addRule name' rule =>
      exact hs.modify (f := fun flag => { flag with rules := flag.rules ++ [rule] }) name'
        (fun _ => ⟨rfl, rfl⟩) name flag hflag
  | toggle name' =>
      exact hs.modify (f := fun flag => { flag with enabled := !flag.enabled }) name'
        (fun _ => ⟨rfl, rfl⟩) name flag hflag

/-- Every reachable state is counted. -/
theorem counted_of_runs {as : List FlagAction}
    (hrun : (machine hash).Runs Machine.unrestricted initial as s) : s.Counted := by
  refine hrun.invariant (fun s a t hs _ h => ?_) fun _ _ hflag => nomatch hflag
  cases h
  exact counted_step hs a

/-- The rollout of a flag is steady and monotone, and its counters are right as long as it was
evaluated fewer than `2 ^ 64` times. -/
theorem rollout (hash : List UInt8 → ℕ) : Rollout hash where
  steady {s t as name context context'} hrun hperm := by
    have hsame := hrun.invariant
      (I := fun t => (t.manager.flags.lookup name).map FeatureFlag.settings =
        (s.manager.flags.lookup name).map FeatureFlag.settings)
      (fun t a u ht hok h => by cases h; exact (settings_step hok).trans ht) rfl
    rw [evaluate_snd_congr hsame, FeatureFlagManager.evaluate_snd, FeatureFlagManager.evaluate_snd]
    simp only [FeatureFlag.answer_of_perm hash _ name hperm]
  monotone {m name flag percentage context} hflag hle h := by
    rw [FeatureFlagManager.evaluate_snd, hflag] at h
    rw [FeatureFlagManager.evaluate_snd, DashMap.lookup_insert, if_pos rfl]
    exact FeatureFlag.answer_mono hash hle h
  addRule {m name name' rule context} h := by
    rw [FeatureFlagManager.evaluate_snd, FeatureFlagManager.addRule, DashMap.lookup_modify] at h
    rw [FeatureFlagManager.evaluate_snd]
    split at h
    next heq =>
      subst heq
      cases hflag : m.flags.lookup name' with
      | none =>
          rw [hflag] at h
          cases h
      | some flag =>
          rw [hflag] at h
          exact FeatureFlag.answer_of_addRule hash h
    next => exact h
  full {m name flag context} hflag hfull := by
    rw [FeatureFlagManager.evaluate_snd, hflag, Option.map_some, Option.getD_some,
      FeatureFlag.answer, decide_eq_true hfull, Bool.true_or, Bool.and_true]
  empty {m name flag context} hflag hempty := by
    rw [FeatureFlagManager.evaluate_snd, hflag, Option.map_some, Option.getD_some,
      FeatureFlag.answer, hempty]
    simp
  counters {as s} hrun name flag hflag hfew := by
    obtain ⟨heval, htrue, hle⟩ := counted_of_runs hrun name flag hflag
    omega

/-- A flag that is off is evaluated once and then turned on. -/
def turnedOn : List FlagAction :=
  [.create "beta" "" false 100 0, .evaluate "beta" ∅, .toggle "beta"]

/-- A flag without rules at 100 percent. -/
def IsOpen (s : FlagState) (name : String) : Prop :=
  ∃ flag, s.manager.flags.lookup name = some flag ∧ flag.enabled = true ∧ flag.rules = [] ∧
    flag.percentage = 100

/-- An open flag is true, and stays open. -/
theorem step_of_isOpen (hash : List UInt8 → ℕ) {name : String} (h : s.IsOpen name) :
    (s.step hash (.evaluate name ∅)).IsOpen name ∧
      (s.step hash (.evaluate name ∅)).evaluations name = s.evaluations name + 1 ∧
      (s.step hash (.evaluate name ∅)).truths name = s.truths name + 1 := by
  obtain ⟨flag, hflag, henabled, hrules, hpercentage⟩ := h
  have hanswer : flag.answer hash name ∅ = true := by
    rw [FeatureFlag.answer, henabled, hrules, hpercentage]
    rfl
  simp only [step, FeatureFlagManager.evaluate_snd, hflag, Option.map_some, Option.getD_some,
    hanswer, if_true, Function.update_self, and_self, and_true]
  refine ⟨(flag.evaluate hash name ∅).1, ?_, ?_⟩
  · rw [FeatureFlagManager.evaluate, DashMap.lookup_modify, if_pos rfl, hflag, Option.map_some]
  · rw [FeatureFlag.evaluate_eq]
    exact ⟨henabled, hrules, hpercentage⟩

/-- An open flag may be evaluated any number of times. -/
theorem exists_runs_evaluate (hash : List UInt8 → ℕ) {name : String} (h : s.IsOpen name) (n : ℕ) :
    ∃ as t, (machine hash).Runs Machine.unrestricted s as t ∧ t.IsOpen name ∧
      t.evaluations name = s.evaluations name + n ∧ t.truths name = s.truths name + n := by
  induction n with
  | zero => exact ⟨[], s, .nil s, h, rfl, rfl⟩
  | succ n ih =>
      obtain ⟨as, t, hrun, hopen, hevaluations, htruths⟩ := ih
      obtain ⟨hopen', hevaluations', htruths'⟩ := step_of_isOpen hash hopen
      refine ⟨as ++ [.evaluate name ∅], t.step hash (.evaluate name ∅),
        hrun.append (.cons trivial rfl (.nil _)), hopen', ?_, ?_⟩
      · rw [hevaluations', hevaluations, Nat.add_assoc]
      · rw [htruths', htruths, Nat.add_assoc]

/-- After `2 ^ 64` evaluations, all but the first of which are true, none is counted and more than
that are counted as true. -/
theorem counters_fail :
    ¬∀ (hash : List UInt8 → ℕ) (as : List FlagAction) (s : FlagState),
      (machine hash).Runs Machine.unrestricted initial as s →
        ∀ name flag, s.manager.flags.lookup name = some flag → flag.trueCount ≤ flag.evalCount := by
  intro hall
  obtain ⟨s, hstart, hopen, hevaluated, htrue⟩ : ∃ s,
      (machine fun _ => 0).Runs Machine.unrestricted initial turnedOn s ∧ s.IsOpen "beta" ∧
        s.evaluations "beta" = 1 ∧ s.truths "beta" = 0 :=
    ⟨_, Machine.runs_of_exec rfl, ⟨_, rfl, rfl, rfl, rfl⟩, rfl, rfl⟩
  -- The flag was false once, so the counts differ by 1, and the larger one is the first to wrap.
  obtain ⟨as, t, hrun, ⟨flag, hflag, -⟩, hevaluations, htruths⟩ :=
    exists_runs_evaluate (fun _ => 0) hopen (2 ^ 64 - 1)
  have hreach := hstart.append hrun
  have hle := hall _ _ t hreach "beta" flag hflag
  obtain ⟨heval, htrueCount, -⟩ := counted_of_runs hreach "beta" flag hflag
  rw [heval, htrueCount, hevaluations, htruths, hevaluated, htrue] at hle
  exact absurd hle (by decide)

end FlagState

end XiraNet

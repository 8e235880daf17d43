import XiraNet.Middleware.Waf

/-!
# Verdicts of the firewall

`Waf::inspect` of `middleware/waf.rs` against what the custom rules are added for: a request is
blocked if a rule matches one of its texts, as received or normalized. The values of headers are
inspected in normalized form only.

* `inspect_eq_allow_iff`: a request is allowed exactly if nothing matches what is inspected of it.
* `complete_iff`: when every match of a custom rule blocks a request.
* `complete_fails`: a rule for capital letters does not see them in a header.
-/

namespace XiraNet

namespace Waf

/-- The headers whose values are inspected. -/
def freeTextHeaders (headers : List (String × String)) : List (String × String) :=
  headers.filter fun h => !isStructuredHeader h.1

/-- The texts of a request: path, query, body and the values of the free-text headers. -/
def texts (path : String) (query : Option String) (body : String)
    (headers : List (String × String)) : List String :=
  path :: query.toList ++ body :: (freeTextHeaders headers).map Prod.snd

/-- All patterns, in the order in which they are tried. -/
def patterns (waf : Waf) : List Regex :=
  waf.sqlPatterns ++ waf.xssPatterns ++ waf.traversalPatterns ++
    waf.customPatterns.map CustomRule.pattern

/-- The request is stopped by its address, or by a pattern that matches what is inspected. -/
def Stopped (waf : Waf) (path : String) (query : Option String) (body : String)
    (headers : List (String × String)) (ip : String) : Prop :=
  ip ∈ waf.blockedIps ∨
    ∃ pattern ∈ waf.patterns, ∃ input ∈ inputs path query body headers, pattern input = true

/-- The custom rules are complete for a request: a match blocks it, and without any match it is
allowed. -/
structure Complete (waf : Waf) (path : String) (query : Option String) (body : String)
    (headers : List (String × String)) (ip : String) : Prop where
  blocks : ∀ rule ∈ waf.customPatterns, ∀ text ∈ texts path query body headers,
    rule.pattern text = true ∨ rule.pattern (normalizeInput text) = true →
      ∃ reason label, waf.inspect path query body headers ip = .block reason label
  allows : ip ∉ waf.blockedIps →
    (∀ pattern ∈ waf.patterns, ∀ input ∈ inputs path query body headers, pattern input = false) →
      waf.inspect path query body headers ip = .allow

/-- Where a custom rule matches the value of a free-text header as it was received, the request is
stopped anyhow. -/
def CatchesRawHeaders (waf : Waf) (path : String) (query : Option String) (body : String)
    (headers : List (String × String)) (ip : String) : Prop :=
  (∃ rule ∈ waf.customPatterns, ∃ h ∈ freeTextHeaders headers, rule.pattern h.2 = true) →
    waf.Stopped path query body headers ip

instance (waf : Waf) (path : String) (query : Option String) (body : String)
    (headers : List (String × String)) (ip : String) :
    Decidable (waf.Stopped path query body headers ip) :=
  inferInstanceAs (Decidable (_ ∨ _))

instance (waf : Waf) (path : String) (query : Option String) (body : String)
    (headers : List (String × String)) (ip : String) :
    Decidable (waf.CatchesRawHeaders path query body headers ip) :=
  inferInstanceAs (Decidable (_ → _))

variable {waf : Waf} {path : String} {query : Option String} {body : String}
  {headers : List (String × String)} {ip : String}

/-- No input is found exactly if no pattern matches one. -/
theorem firstMatch_eq_none_iff {patterns : List Regex} {inputs : List String} :
    firstMatch patterns inputs = none ↔
      ∀ pattern ∈ patterns, ∀ input ∈ inputs, pattern input = false := by
  rw [firstMatch, List.find?_eq_none]
  simp only [List.any_eq_true, not_exists, not_and, Bool.not_eq_true]
  exact ⟨fun h pattern hpattern input hinput => h input hinput pattern hpattern,
    fun h input hinput pattern hpattern => h pattern hpattern input hinput⟩

/-- Outside of detection, a match is a block. -/
theorem verdict_ne_allow (hmode : waf.mode = .block) (reason rule : String) :
    waf.verdict reason rule ≠ .allow := by
  rw [verdict, hmode]
  exact WafVerdict.noConfusion

/-- The custom rules allow exactly the inputs that none of them matches. -/
theorem inspectCustom_eq_allow_iff (hmode : waf.mode = .block) (inputs : List String)
    (rules : List CustomRule) :
    waf.inspectCustom inputs rules = .allow ↔
      ∀ pattern ∈ rules.map CustomRule.pattern, ∀ input ∈ inputs, pattern input = false := by
  induction rules with
  | nil => exact iff_of_true rfl fun _ h => absurd h List.not_mem_nil
  | cons rule rules ih =>
      have hfirst := @firstMatch_eq_none_iff [rule.pattern] inputs
      rw [List.forall_mem_singleton] at hfirst
      rw [inspectCustom, List.map_cons, List.forall_mem_cons, ← hfirst]
      cases firstMatch [rule.pattern] inputs with
      | none => exact ih.trans (and_iff_right rfl).symm
      | some input => exact iff_of_false (verdict_ne_allow hmode _ _) fun h => nomatch h.1

/-- A request is allowed exactly if its address is not blocked and no pattern matches what is
inspected of it. -/
theorem inspect_eq_allow_iff (henabled : waf.enabled = true) (hmode : waf.mode = .block) :
    waf.inspect path query body headers ip = .allow ↔
      ¬ waf.Stopped path query body headers ip := by
  have hstopped : ¬ waf.Stopped path query body headers ip ↔ ip ∉ waf.blockedIps ∧
      ∀ pattern ∈ waf.patterns, ∀ input ∈ inputs path query body headers,
        pattern input = false := by
    simp only [Stopped, not_or, not_exists, not_and, Bool.not_eq_true]
  rw [hstopped, inspect, henabled, Bool.not_true, if_neg Bool.false_ne_true]
  by_cases hip : ip ∈ waf.blockedIps
  · rw [if_pos hip]
    exact iff_of_false WafVerdict.noConfusion fun h => h.1 hip
  rw [if_neg hip]
  dsimp only
  simp only [patterns, List.forall_mem_append, ← firstMatch_eq_none_iff]
  rw [@firstMatch_eq_none_iff (waf.customPatterns.map CustomRule.pattern),
    ← inspectCustom_eq_allow_iff hmode]
  -- One list of patterns after the other: a match ends the search.
  cases firstMatch waf.sqlPatterns (inputs path query body headers) with
  | some input => exact iff_of_false (verdict_ne_allow hmode _ _) fun h => nomatch h.2.1.1.1
  | none =>
      cases firstMatch waf.xssPatterns (inputs path query body headers) with
      | some input => exact iff_of_false (verdict_ne_allow hmode _ _) fun h => nomatch h.2.1.1.2
      | none =>
          cases firstMatch waf.traversalPatterns (inputs path query body headers) with
          | some input => exact iff_of_false (verdict_ne_allow hmode _ _) fun h => nomatch h.2.1.2
          | none => simp [hip]

/-- A request that is stopped is blocked. -/
theorem exists_block_iff (henabled : waf.enabled = true) (hmode : waf.mode = .block) :
    (∃ reason label, waf.inspect path query body headers ip = .block reason label) ↔
      waf.Stopped path query body headers ip := by
  rw [← not_iff_not, ← inspect_eq_allow_iff henabled hmode]
  cases waf.inspect path query body headers ip with
  | allow => simp
  | block reason rule => simp

/-- What is inspected of the texts: path, query and body in both forms, headers in normalized
form. -/
theorem normalizeInput_mem_inputs {text : String} (h : text ∈ texts path query body headers) :
    normalizeInput text ∈ inputs path query body headers ∧
      (text ∈ inputs path query body headers ∨ text ∈ (freeTextHeaders headers).map Prod.snd) := by
  have hheader : text ∈ (freeTextHeaders headers).map Prod.snd →
      normalizeInput text ∈ inputs path query body headers := by
    intro hmem
    obtain ⟨header, hheader, rfl⟩ := List.mem_map.mp hmem
    exact List.mem_append_right _ (List.mem_map.mpr ⟨header, hheader, rfl⟩)
  have hraw : text ∈ [path, query.getD "", body] →
      normalizeInput text ∈ inputs path query body headers ∧
        text ∈ inputs path query body headers := by
    intro hmem
    exact ⟨List.mem_append_left _ (List.mem_append_left _ (List.mem_map_of_mem hmem)),
      List.mem_append_left _ (List.mem_append_right _ hmem)⟩
  rw [texts, List.mem_append, List.mem_cons, List.mem_cons] at h
  rcases h with (rfl | hquery) | rfl | hmem
  · exact (hraw (by simp)).imp_right .inl
  · obtain rfl : query = some text := Option.mem_toList.mp hquery
    exact (hraw (by simp)).imp_right .inl
  · exact (hraw (by simp)).imp_right .inl
  · exact ⟨hheader hmem, .inr hmem⟩

/-- The custom rules of an enabled firewall are complete for a request exactly if it is stopped
wherever a rule matches the value of a free-text header as it was received. -/
theorem complete_iff (henabled : waf.enabled = true) (hmode : waf.mode = .block) :
    waf.Complete path query body headers ip ↔
      waf.CatchesRawHeaders path query body headers ip := by
  have hmatch : ∀ rule ∈ waf.customPatterns, ∀ input ∈ inputs path query body headers,
      rule.pattern input = true → waf.Stopped path query body headers ip := by
    intro rule hrule input hinput hpattern
    exact .inr ⟨rule.pattern, List.mem_append_right _ (List.mem_map_of_mem hrule), input, hinput,
      hpattern⟩
  constructor
  · rintro hcomplete ⟨rule, hrule, header, hheader, hpattern⟩
    refine (exists_block_iff henabled hmode).mp
      (hcomplete.blocks rule hrule header.2 ?_ (.inl hpattern))
    exact List.mem_append_right _ (List.mem_cons_of_mem _ (List.mem_map_of_mem hheader))
  · intro hcatches
    refine ⟨fun rule hrule text htext hpattern => ?_, fun hip hnone => ?_⟩
    · obtain ⟨hnormal, hplace⟩ := normalizeInput_mem_inputs htext
      refine (exists_block_iff henabled hmode).mpr ?_
      rcases hpattern with hpattern | hpattern
      · rcases hplace with hinput | hheader
        · exact hmatch rule hrule text hinput hpattern
        · obtain ⟨header, hfree, rfl⟩ := List.mem_map.mp hheader
          exact hcatches ⟨rule, hrule, header, hfree, hpattern⟩
      · exact hmatch rule hrule _ hnormal hpattern
    · refine (inspect_eq_allow_iff henabled hmode).mpr ?_
      rintro (hblocked | ⟨pattern, hpattern, input, hinput, htrue⟩)
      · exact hip hblocked
      · rw [hnone pattern hpattern input hinput] at htrue
        cases htrue

/-- A firewall with one custom rule, for a word in capital letters. -/
def capitalRule : Waf where
  enabled := true
  -- The built-in patterns match nothing of what follows.
  sqlPatterns := [fun _ => false]
  xssPatterns := [fun _ => false]
  traversalPatterns := [fun _ => false]
  customPatterns := [⟨1, "TOKEN", fun input => Text.contains input "TOKEN", "CUSTOM", 0⟩]
  blockedIps := []
  mode := .block

/-- The rule is complete for a request that has the word in its body as well. -/
theorem complete_capitalRule :
    capitalRule.Complete "/a" none "TOKEN=1" [("x-note", "TOKEN")] "10.0.0.1" :=
  (complete_iff rfl rfl).mpr (by decide +kernel)

/-- The word is not found in a header. -/
theorem complete_fails :
    ¬ ∀ (waf : Waf) (path : String) (query : Option String) (body : String)
      (headers : List (String × String)) (ip : String), waf.enabled = true → waf.mode = .block →
        waf.Complete path query body headers ip := by
  intro hall
  have hcomplete := hall capitalRule "/a" none "" [("x-note", "TOKEN")] "10.0.0.1" rfl rfl
  obtain ⟨reason, label, hblock⟩ := hcomplete.blocks _ List.mem_cons_self "TOKEN" (by decide)
    (.inl (by decide))
  have hallow : capitalRule.inspect "/a" none "" [("x-note", "TOKEN")] "10.0.0.1" = .allow := by
    decide +kernel
  cases hallow.symm.trans hblock

end Waf

end XiraNet

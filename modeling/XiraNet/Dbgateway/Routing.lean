import XiraNet.Dbgateway.FullTableWrites

/-!
# Reads and writes

`ReadWriteSplitter` of `dbgateway/query_firewall.rs`, and where scripts that change data are sent.

* `ReadWriteSplitter.sendsToPrimary_iff`: they are sent to the primary unless a statement that the
  firewall takes for a read stands before them.
* `ReadWriteSplitter.sendsToPrimary_fails`: a `DELETE` after a `SELECT`.
-/

namespace XiraNet

/-- `ReadWriteSplitter`. -/
structure ReadWriteSplitter where
  primary : String
  replicas : List String
  currentReplica : ℕ
  deriving DecidableEq, Repr

/-- `route`. -/
def ReadWriteSplitter.route (s : ReadWriteSplitter) (isRead : Bool) : String × ReadWriteSplitter :=
  if h : isRead = true ∧ s.replicas ≠ [] then
    -- The replicas take turns.
    (s.replicas.get ⟨s.currentReplica % s.replicas.length,
      Nat.mod_lt _ (List.length_pos_iff.mpr h.2)⟩,
      { s with currentReplica := wrappingAdd s.currentReplica 1 })
  else (s.primary, s)

/-- The words that the firewall takes for reads. -/
def readingWords : List String := ["SELECT", "SHOW", "DESCRIBE", "EXPLAIN"]

/-- The script starts with such a word, with nothing but white space before it. -/
structure SqlScript.StartsReading (s : SqlScript) : Prop where
  trivia : ∀ t ∈ s.first.trivia, t.isBlanks = true
  keyword : ∃ w ∈ readingWords, w.toList <+: s.first.keyword

/-- A sign that ends a word is its own uppercase and no letter. -/
theorem upperChars_of_not_isWordChar {c : Char} (h : isWordChar c = false) :
    Text.upperChars c = [c] ∧ c.isUpper = false := by
  simp only [isWordChar, Char.isAlphanum, Char.isAlpha, Bool.or_eq_false_iff,
    decide_eq_false_iff_not, not_le] at h
  obtain ⟨⟨⟨⟨hupper, hlower⟩, -⟩, -⟩, hascii⟩ := h
  refine ⟨?_, hupper⟩
  have hself : c.toUpper = c := by
    rw [Char.toUpper, dif_neg]
    simpa [Char.isLower] using hlower
  unfold Text.upperChars
  split
  all_goals first | rw [hself] | omega

/-- A letter of a word is no white space. -/
theorem isWhitespace_of_spelled {l c : Char} (hl : l.isUpper = true) (hc : c = l ∨ c = l.toLower) :
    Text.isWhitespace c = false := by
  obtain ⟨hupper, hlower, -⟩ := upperChars_of_isUpper hl
  have hchars : Text.upperChars c = [l] := by
    rcases hc with rfl | rfl
    · exact hupper
    · exact hlower
  rw [Bool.eq_false_iff]
  intro hblank
  obtain rfl : c = l := by
    rw [Text.upperChars_of_isWhitespace hblank] at hchars
    exact List.singleton_inj.mp hchars
  have hrange : 65 ≤ c.toNat ∧ c.toNat ≤ 90 := by
    simpa [Char.isUpper, UInt32.le_iff_toNat_le] using hl
  simp only [Text.isWhitespace, Bool.or_eq_true, Bool.and_eq_true, decide_eq_true_eq] at hblank
  omega

/-- Nothing is skipped of a text that does not start with white space. -/
theorem dropWhile_eq_self {s : List Char} (h : ∀ c ∈ s.head?, Text.isWhitespace c = false) :
    s.dropWhile Text.isWhitespace = s := by
  cases s with
  | nil => rfl
  | cons c s => rw [List.dropWhile_cons_of_neg (by simp [h c rfl])]

namespace SqlTrivia

variable {trivia : List SqlTrivia}

/-- White space before a statement is skipped. -/
theorem dropWhile_blanks (hwell : ∀ t ∈ trivia, t.IsWellFormed)
    (hblanks : ∀ t ∈ trivia, t.isBlanks = true) (s : List Char) :
    (trivia.flatMap text ++ s).dropWhile Text.isWhitespace = s.dropWhile Text.isWhitespace := by
  induction trivia with
  | nil => rfl
  | cons t trivia ih =>
      obtain ⟨ht, htrivia⟩ := List.forall_mem_cons.mp hwell
      obtain ⟨htblanks, hrest⟩ := List.forall_mem_cons.mp hblanks
      cases t with
      | blanks b =>
          rw [List.flatMap_cons, text, List.append_assoc, List.dropWhile_append_of_pos ht,
            ih htrivia hrest]
      | line b | block b => exact absurd htblanks Bool.false_ne_true

/-- A comment before a statement is not skipped. -/
theorem dropWhile_comment (hwell : ∀ t ∈ trivia, t.IsWellFormed)
    (hcomment : ¬ ∀ t ∈ trivia, t.isBlanks = true) (s : List Char) :
    ∃ c rest, (trivia.flatMap text ++ s).dropWhile Text.isWhitespace = c :: rest ∧
      (c = '-' ∨ c = '/') := by
  induction trivia with
  | nil => exact absurd (List.forall_mem_nil _) hcomment
  | cons t trivia ih =>
      obtain ⟨ht, htrivia⟩ := List.forall_mem_cons.mp hwell
      cases t with
      | blanks b =>
          have hrest : ¬ ∀ t ∈ trivia, t.isBlanks = true := fun hall =>
            hcomment (List.forall_mem_cons.mpr ⟨rfl, hall⟩)
          rw [List.flatMap_cons, text, List.append_assoc, List.dropWhile_append_of_pos ht]
          exact ih htrivia hrest
      | line b => exact ⟨'-', _, rfl, .inl rfl⟩
      | block b => exact ⟨'/', _, rfl, .inr rfl⟩

end SqlTrivia

/-- A word of letters is found at the start of a statement if it is found at the start of its first
word. -/
theorem prefix_upperChars_iff {w keyword spelled t : List Char} (hw : ∀ l ∈ w, l.isUpper = true)
    (hkeyword : ∀ l ∈ keyword, l.isUpper = true) (hspelled : Spells keyword spelled)
    (ht : ∀ c ∈ t.head?, isWordChar c = false) :
    w <+: (spelled ++ t).flatMap Text.upperChars ↔ w <+: keyword := by
  rw [List.flatMap_append, hspelled.flatMap_upperChars hkeyword]
  cases t with
  | nil => rw [List.flatMap_nil, List.append_nil]
  | cons c t =>
      obtain ⟨hself, hupper⟩ := upperChars_of_not_isWordChar (ht c rfl)
      have hc : c ∉ w := fun hmem => by
        rw [hw c hmem] at hupper
        exact Bool.false_ne_true hupper.symm
      rw [List.flatMap_cons, hself, List.singleton_append, Pattern.prefix_append_cons_iff hc]

/-- The firewall takes a query for a read if it starts with one of these words. -/
theorem isRead_iff_exists {s : List Char} :
    QueryFirewall.isRead (String.ofList s) = true ↔ ∃ w ∈ readingWords,
      w.toList <+: (s.dropWhile Text.isWhitespace).flatMap Text.upperChars := by
  simp only [QueryFirewall.isRead, Text.toUppercase, Text.trimStart, Bool.or_eq_true,
    Text.startsWith_iff, String.toList_ofList, readingWords, List.mem_cons, List.not_mem_nil,
    or_false, exists_eq_or_imp, exists_eq_left, or_assoc]

/-- These words consist of capital letters. -/
theorem isUpper_readingWords :
    ∀ w ∈ readingWords, w.toList ≠ [] ∧ w.toList.all Char.isUpper = true := by decide

/-- None of these words starts with a sign. -/
theorem not_prefix_of_sign {w : String} (hw : w ∈ readingWords) {c : Char}
    (hc : c.isUpper = false) (t : List Char) : ¬ w.toList <+: c :: t := by
  obtain ⟨hne, hupper⟩ := isUpper_readingWords w hw
  cases hword : w.toList with
  | nil => exact absurd hword hne
  | cons l word =>
      intro hstarts
      obtain ⟨rfl, -⟩ := List.cons_prefix_cons.mp hstarts
      have hl := List.all_eq_true.mp hupper l (by rw [hword]; exact List.mem_cons_self)
      rw [hc] at hl
      exact Bool.false_ne_true hl

namespace SqlScript

variable {s : SqlScript}

/-- What follows the first word of a script. -/
def afterWord (s : SqlScript) : List Char :=
  s.first.rest ++ s.others.flatMap fun t => ';' :: t.text

/-- A script is what stands before its first word, this word and what follows it. -/
theorem text_eq (s : SqlScript) :
    s.text = s.first.trivia.flatMap SqlTrivia.text ++ (s.first.spelled ++ s.afterWord) := by
  simp only [text, SqlStatement.text, afterWord, List.append_assoc]

/-- What follows the first word does not go on with it. -/
theorem head?_afterWord (hfirst : s.first.IsWellFormed) :
    ∀ c ∈ s.afterWord.head?, isWordChar c = false ∧
      (s.first.keyword = [] → Text.isWhitespace c = false) := by
  intro c hc
  rw [afterWord] at hc
  cases hrest : s.first.rest with
  | cons d t =>
      rw [hrest] at hc
      exact hfirst.rest c (by rw [hrest]; exact hc)
  | nil =>
      rw [hrest, List.nil_append] at hc
      cases hothers : s.others with
      | nil =>
          rw [hothers] at hc
          cases hc
      | cons t others =>
          rw [hothers] at hc
          obtain rfl := Option.some.inj hc
          exact ⟨by decide, fun _ => by decide⟩

/-- There is no white space before the first word but what is listed as such. -/
theorem head?_spelled (hfirst : s.first.IsWellFormed) :
    ∀ c ∈ (s.first.spelled ++ s.afterWord).head?, Text.isWhitespace c = false := by
  have hspelled := hfirst.spelled
  intro c hc
  cases hword : s.first.spelled with
  | nil =>
      rw [hword, List.nil_append] at hc
      rw [hword] at hspelled
      exact (head?_afterWord hfirst c hc).2 (List.forall₂_nil_right_iff.mp hspelled)
  | cons d t =>
      rw [hword] at hc hspelled
      obtain rfl := Option.some.inj hc
      obtain ⟨l, keyword, hd, -, hkeyword⟩ := List.forall₂_cons_right_iff.mp hspelled
      have hl : l ∈ s.first.keyword := by
        rw [hkeyword]
        exact List.mem_cons_self
      exact isWhitespace_of_spelled (hfirst.keyword l hl) hd

/-- The scripts that the firewall takes for reads. -/
theorem isRead_iff (hfirst : s.first.IsWellFormed) :
    QueryFirewall.isRead (String.ofList s.text) = true ↔ s.StartsReading := by
  rw [isRead_iff_exists, text_eq]
  by_cases htrivia : ∀ t ∈ s.first.trivia, t.isBlanks = true
  -- the text without the white space starts with the first word
  · have hstarts {w : String} (hw : w ∈ readingWords) :
        w.toList <+: (s.first.spelled ++ s.afterWord).flatMap Text.upperChars ↔
          w.toList <+: s.first.keyword :=
      prefix_upperChars_iff (List.all_eq_true.mp (isUpper_readingWords w hw).2) hfirst.keyword
        hfirst.spelled fun c hc => (head?_afterWord hfirst c hc).1
    rw [SqlTrivia.dropWhile_blanks hfirst.trivia htrivia, dropWhile_eq_self (head?_spelled hfirst)]
    constructor
    · rintro ⟨w, hw, h⟩
      exact ⟨htrivia, w, hw, (hstarts hw).mp h⟩
    · rintro ⟨-, w, hw, h⟩
      exact ⟨w, hw, (hstarts hw).mpr h⟩
  -- it starts with a comment
  · obtain ⟨c, t, hdrop, hc⟩ := SqlTrivia.dropWhile_comment hfirst.trivia htrivia
      (s.first.spelled ++ s.afterWord)
    have hsign : Text.upperChars c = [c] ∧ c.isUpper = false := by
      rcases hc with rfl | rfl <;> decide
    rw [hdrop, List.flatMap_cons, hsign.1, List.singleton_append]
    refine iff_of_false ?_ fun h => htrivia h.trivia
    rintro ⟨w, hw, hstarts⟩
    exact not_prefix_of_sign hw hsign.2 _ hstarts

end SqlScript

namespace ReadWriteSplitter

/-- Only reads are sent to a replica. -/
theorem route_eq_primary_iff {s : ReadWriteSplitter} {isRead : Bool} :
    (s.route isRead).1 = s.primary ↔ isRead = false ∨ s.replicas = [] ∨
      s.replicas[s.currentReplica % s.replicas.length]? = some s.primary := by
  unfold route
  split
  next h =>
    have hindex : s.currentReplica % s.replicas.length < s.replicas.length :=
      Nat.mod_lt _ (List.length_pos_iff.mpr h.2)
    rw [List.getElem?_eq_getElem hindex, Option.some.injEq]
    simp [h.1, h.2]
  next h =>
    rw [not_and_or, Bool.not_eq_true, not_not] at h
    exact iff_of_true rfl (h.imp_right .inl)

/-- A script that changes data is sent to the primary exactly if it does not start with a word that
the firewall takes for a read, the firewall blocks it, or there is no other place for reads. -/
theorem sendsToPrimary_iff {script : SqlScript} (hwrites : script.Writes) (lib : RegexCrate)
    (warns : Bool) (s : ReadWriteSplitter) :
    (∀ isRead, QueryFirewall.inspect lib warns (String.ofList script.text) = some (.allow isRead) →
      (s.route isRead).1 = s.primary) ↔
      ¬ script.StartsReading ∨ QueryFirewall.isBlocked lib (String.ofList script.text) = true ∨
        s.replicas = [] ∨
        s.replicas[s.currentReplica % s.replicas.length]? = some s.primary := by
  rw [← SqlScript.isRead_iff (hwrites.wellFormed _ List.mem_cons_self)]
  cases hblocked : QueryFirewall.isBlocked lib (String.ofList script.text) with
  | true =>
      -- the answer, if there is one, is no permission
      obtain ⟨reason, hinspect⟩ := QueryFirewall.exists_inspect_of_isBlocked hblocked warns
      refine iff_of_true (fun isRead hallow => ?_) (.inr (.inl rfl))
      rw [hinspect] at hallow
      unfold QueryFirewall.block at hallow
      split at hallow
      · simp at hallow
      · simp at hallow
  | false =>
      rw [QueryFirewall.inspect_of_not_isBlocked hblocked]
      simp [route_eq_primary_iff]

/-- An `INSERT` before a `SELECT`. -/
theorem sendsToPrimary_insertFirst :
    let script : SqlScript := ⟨⟨[.line "log".toList, .blanks " ".toList], "INSERT".toList,
      "Insert".toList, " INTO t VALUES (';')".toList⟩,
      [⟨[.blanks "\n".toList], "SELECT".toList, "select".toList, " 1".toList⟩]⟩
    script.Writes ∧ ∀ isRead,
      QueryFirewall.inspect QueryFirewall.searching true (String.ofList script.text) =
        some (.allow isRead) →
      ((⟨"db1", ["db2", "db3"], 7⟩ : ReadWriteSplitter).route isRead).1 = "db1" := by
  intro script
  have hwrites : script.Writes :=
    { wellFormed := by decide
      changesData := ⟨_, List.mem_cons_self, .inl (by decide)⟩ }
  refine ⟨hwrites, (sendsToPrimary_iff hwrites _ true ⟨"db1", ["db2", "db3"], 7⟩).mpr (.inl ?_)⟩
  rintro ⟨htrivia, -⟩
  exact absurd htrivia (by decide)

/-- A `DELETE` after a `SELECT` is sent to a replica. -/
theorem sendsToPrimary_fails :
    ¬ ∀ (script : SqlScript), script.Writes → ∀ (lib : RegexCrate), lib.IsDocumented →
      ∀ (warns : Bool) (s : ReadWriteSplitter) (isRead : Bool),
        QueryFirewall.inspect lib warns (String.ofList script.text) = some (.allow isRead) →
          (s.route isRead).1 = s.primary := by
  intro h
  have hprimary := h ⟨⟨[], "SELECT".toList, "SELECT".toList, " 1".toList⟩,
      [⟨[.blanks " ".toList], "DELETE".toList, "DELETE".toList, " FROM t WHERE a = 1".toList⟩]⟩
    { wellFormed := by decide
      changesData := ⟨_, List.mem_cons_of_mem _ List.mem_cons_self, .inl (by decide)⟩ }
    _ QueryFirewall.isDocumented_searching true ⟨"db1", ["db2"], 0⟩ true (by decide +kernel)
  revert hprimary
  decide

end ReadWriteSplitter

end XiraNet

import Mathlib
import XiraNet.Dbgateway.QueryFirewall

/-!
# Writes of all rows

Which statements without a condition the query firewall blocks.

* `QueryFirewall.guards_iff`: the statements that are blocked, and the queries that the functions
  come to an end on.
* `QueryFirewall.guards_fails`: a `DELETE` with a `;` after it.
-/

namespace XiraNet

/-- What holds of a letter in both cases holds along a word. -/
theorem Spells.forall₂ {P : Char → Char → Prop} {w s : List Char} (h : Spells w s)
    (hP : ∀ l ∈ w, P l l ∧ P l l.toLower) : List.Forall₂ P w s := by
  induction h with
  | nil => exact .nil
  | cons hc _ ih =>
      obtain ⟨hl, hP⟩ := List.forall_mem_cons.mp hP
      refine .cons ?_ (ih hP)
      rcases hc with rfl | rfl
      · exact hl.1
      · exact hl.2

/-- A capital letter is its uppercase and that of its lowercase. -/
theorem upperChars_of_isUpper {l : Char} (h : l.isUpper = true) :
    Text.upperChars l = [l] ∧ Text.upperChars l.toLower = [l] ∧ l.toLower.toLower = l.toLower := by
  have hletters : ∀ n : Fin 26, Text.upperChars (Char.ofNat (65 + n)) = [Char.ofNat (65 + n)] ∧
      Text.upperChars (Char.ofNat (65 + n)).toLower = [Char.ofNat (65 + n)] ∧
      (Char.ofNat (65 + n)).toLower.toLower = (Char.ofNat (65 + n)).toLower := by decide
  have hrange : 65 ≤ l.toNat ∧ l.toNat ≤ 90 := by
    simpa [Char.isUpper, UInt32.le_iff_toNat_le] using h
  have hl := hletters ⟨l.toNat - 65, by omega⟩
  rwa [show 65 + (l.toNat - 65) = l.toNat by omega, Char.ofNat_toNat] at hl

/-- A word is the uppercase of all its spellings. -/
theorem Spells.flatMap_upperChars {w s : List Char} (h : Spells w s)
    (hw : ∀ l ∈ w, l.isUpper = true) : s.flatMap Text.upperChars = w := by
  have hletters : List.Forall₂ (fun l c => Text.upperChars c = [l]) w s := h.forall₂ fun l hl =>
    ⟨(upperChars_of_isUpper (hw l hl)).1, (upperChars_of_isUpper (hw l hl)).2.1⟩
  clear h hw
  induction hletters with
  | nil => rfl
  | cons hc _ ih => rw [List.flatMap_cons, hc, ih, List.singleton_append]

/-- White space is its own uppercase. -/
theorem IsBlank.flatMap_upperChars {s : List Char} (h : IsBlank s) :
    s.flatMap Text.upperChars = s := by
  induction s with
  | nil => rfl
  | cons c s ih =>
      obtain ⟨hc, hs⟩ := List.forall_mem_cons.mp h
      rw [List.flatMap_cons, Text.upperChars_of_isWhitespace hc, ih hs, List.singleton_append]

namespace QueryPattern

open RegExp

/-- A keyword in any letter case is found. -/
theorem matches_keyword {w : String} {s b a : List Char} (h : Spells w.toList s)
    (hw : w.toList.all Char.isUpper = true) : (keyword w).Matches b s a := by
  rw [keyword, matches_word_iff, List.forall₂_map_left_iff]
  refine h.forall₂ fun l hl => ⟨by simp [letter], ?_⟩
  obtain ⟨-, -, hlower⟩ := upperChars_of_isUpper (List.all_eq_true.mp hw l hl)
  simp [letter, hlower]

/-- White space is found. -/
theorem matches_gap_iff {s b a : List Char} : gap.Matches b s a ↔ IsGap s := matches_plus_iff

variable {isWord : Char → Bool}

/-- The blocked patterns besides the one for `DELETE`. -/
def others (isWord : Char → Bool) : List QueryPattern :=
  [dropsObject isWord, altersTable isWord] ++
    [grants isWord, shutsDown isWord, loadsData isWord, writesFile isWord]

/-- A search with all patterns is one with the pattern for `DELETE` and with the others. -/
theorem any_blocked (f : QueryPattern → Bool) :
    (blocked isWord).any f = (f (bareDelete isWord) || (others isWord).any f) := by
  have hany (l l' : List QueryPattern) (p : QueryPattern) :
      (l ++ p :: l').any f = (f p || (l ++ l').any f) := by
    rw [List.any_append, List.any_cons, Bool.or_left_comm, ← List.any_append]
  exact hany [dropsObject isWord, altersTable isWord]
    [grants isWord, shutsDown isWord, loadsData isWord, writesFile isWord] (bareDelete isWord)

end QueryPattern

variable {lib : RegexCrate}

namespace RegexCrate.IsDocumented

/-- A character of a word is no white space. -/
theorem isWhitespace_of_isWord (hlib : lib.IsDocumented) {c : Char} (hc : lib.isWord c = true) :
    Text.isWhitespace c = false := by
  rw [Bool.eq_false_iff]
  intro hblank
  rw [hlib.isWord_blank c hblank] at hc
  exact Bool.false_ne_true hc

/-- A quote, a dot and a semicolon are no characters of a word. -/
theorem isWord_sign (hlib : lib.IsDocumented) {c : Char} (hc : c ∈ ['"', '`', '.', ';']) :
    lib.isWord c = false := by
  have hascii : c.toNat < 128 ∧ (c.isAlphanum || c = '_') = false := by
    simp only [List.mem_cons, List.not_mem_nil, or_false] at hc
    rcases hc with rfl | rfl | rfl | rfl <;> decide
  rw [hlib.isWord_ascii c hascii.1, hascii.2]

end RegexCrate.IsDocumented

/-- Nothing is left of white space. -/
theorem IsBlank.rdropWhile {s : List Char} (h : IsBlank s) :
    s.rdropWhile Text.isWhitespace = [] :=
  List.rdropWhile_eq_nil_iff.mpr h

/-- A text in which the pattern for `DELETE` is found ends with a word after white space, and then
maybe with white space. -/
theorem QueryPattern.rdropWhile_of_occurs (hlib : lib.IsDocumented) {t : List Char}
    (h : (bareDelete lib.isWord).regex.Occurs t) :
    ∃ x blank word c, t.rdropWhile Text.isWhitespace = x ++ blank :: (word ++ [c]) ∧
      Text.isWhitespace blank = true ∧ ∀ d ∈ word ++ [c], lib.isWord d = true := by
  obtain ⟨b, m, a, rfl, m₀, _, rfl, -, kw₁, _, rfl, -, gap₁, _, rfl, -, kw₂, _, rfl, -, gap₂, _,
    rfl, hgap, n, _, rfl, hn, blanks, _, rfl, hblanks, _, _, rfl, ⟨rfl, hend⟩, rfl, -⟩ := h
  -- nothing follows the match
  obtain rfl : a = [] := by simpa using hend
  obtain ⟨hne, hspace⟩ := matches_gap_iff.mp hgap
  obtain ⟨hnonempty, hword⟩ := RegExp.matches_plus_iff.mp hn
  clear hgap hn
  obtain ⟨sp, blank, rfl⟩ := (List.eq_nil_or_concat' gap₂).resolve_left hne
  obtain ⟨word, c, rfl⟩ := (List.eq_nil_or_concat' n).resolve_left hnonempty
  refine ⟨b ++ m₀ ++ kw₁ ++ gap₁ ++ kw₂ ++ sp, blank, word, c, ?_, hspace blank (by simp), hword⟩
  have hshape : b ++ (m₀ ++ (kw₁ ++ (gap₁ ++ (kw₂ ++ ((sp ++ [blank]) ++ ((word ++ [c]) ++
      (blanks ++ ([] ++ [])))))))) ++ [] =
      (b ++ m₀ ++ kw₁ ++ gap₁ ++ kw₂ ++ sp ++ blank :: word) ++ c :: blanks := by
    simp
  rw [hshape, Text.rdropWhile_append_cons (hlib.isWhitespace_of_isWord (hword c (by simp))),
    IsBlank.rdropWhile hblanks]
  simp

namespace SqlName

/-- A name ends with a character of a word or with a quote. -/
theorem exists_text (hlib : lib.IsDocumented) {n : SqlName} (hn : n.IsWellFormed lib.isWord) :
    ∃ y c, n.text = y ++ [c] ∧ Text.isWhitespace c = false := by
  have hname : ∃ y c, n.name.text = y ++ [c] ∧ Text.isWhitespace c = false := by
    have hwell := hn.name
    cases hname : n.name with
    | plain word =>
        rw [hname] at hwell
        obtain ⟨y, c, rfl⟩ := (List.eq_nil_or_concat' word).resolve_left hwell.1
        exact ⟨y, c, rfl, hlib.isWhitespace_of_isWord (hwell.2 c (by simp))⟩
    | quoted quote s =>
        rw [hname] at hwell
        refine ⟨_, quote, rfl, ?_⟩
        rcases hwell with rfl | rfl <;> decide
  obtain ⟨y, c, hname, hc⟩ := hname
  exact ⟨_, c, by rw [SqlName.text, hname, ← List.append_assoc], hc⟩

/-- A name that is no single word ends with a quote, or with a word after a dot. -/
theorem exists_sign {n : SqlName} (hn : n.IsWellFormed lib.isWord) (hplain : ¬ n.IsPlain) :
    ∃ y sign word, n.text = y ++ sign :: word ∧ sign ∈ ['"', '`', '.', ';'] ∧
      ∀ c ∈ word, lib.isWord c = true := by
  have hwell := hn.name
  cases hname : n.name with
  | quoted quote s =>
      rw [hname] at hwell
      have hsign : quote ∈ ['"', '`', '.', ';'] := by rcases hwell with rfl | rfl <;> decide
      exact ⟨_, quote, [], by rw [SqlName.text, hname, NamePart.text, ← List.append_assoc], hsign,
        List.forall_mem_nil _⟩
  | plain word =>
      rw [hname] at hwell
      have hqualifiers : n.qualifiers ≠ [] := fun h => hplain ⟨h, word, hname⟩
      obtain ⟨parts, part, hparts⟩ := (List.eq_nil_or_concat' n.qualifiers).resolve_left hqualifiers
      refine ⟨parts.flatMap (fun part => part.text ++ ['.']) ++ part.text, '.', word, ?_, by decide,
        hwell.2⟩
      rw [SqlName.text, hparts, hname]
      simp [NamePart.text]

/-- A name at the end of a text that ends with a word after white space is a single word. -/
theorem isPlain_of_append_eq (hlib : lib.IsDocumented) {n : SqlName}
    (hn : n.IsWellFormed lib.isWord) {start x word : List Char} {blank : Char}
    (h : start ++ n.text = x ++ blank :: word) (hblank : Text.isWhitespace blank = true)
    (hword : ∀ c ∈ word, lib.isWord c = true) : n.IsPlain := by
  by_contra hplain
  obtain ⟨y, sign, word', htext, hsign, hword'⟩ := exists_sign hn hplain
  have hsignWord := hlib.isWord_sign hsign
  rw [htext, ← List.append_assoc] at h
  -- without the word at its end the text ends with the sign, and with the white space
  have hdrop := congrArg (fun t => (t.rdropWhile lib.isWord).getLast?) h
  simp only [Text.rdropWhile_append_cons hsignWord,
    Text.rdropWhile_append_cons (hlib.isWord_blank blank hblank),
    List.rdropWhile_eq_nil_iff.mpr hword', List.rdropWhile_eq_nil_iff.mpr hword,
    List.getLast?_concat, Option.some.injEq] at hdrop
  subst hdrop
  have hnone : ['"', '`', '.', ';'].any Text.isWhitespace = false := by decide
  exact List.any_eq_false.mp hnone sign hsign hblank

end SqlName

namespace DeleteAll

variable {d : DeleteAll}

/-- A statement that is terminated ends with `;`. -/
theorem rdropWhile_text_of_some (hd : d.IsWellFormed lib.isWord) {after : List Char}
    (hterminated : d.tail.terminated = some after) :
    ∃ y, d.text.rdropWhile Text.isWhitespace = y ++ [';'] := by
  have hshape : d.text = (d.deleteWord ++ d.gap₁ ++ d.fromWord ++ d.gap₂ ++ d.table.text ++
      d.tail.blanks) ++ ';' :: after := by
    rw [text, SqlTail.text, hterminated, ← List.append_assoc]
  rw [hshape, Text.rdropWhile_append_cons (by decide),
    (hd.tail.terminated after hterminated).rdropWhile]
  exact ⟨_, rfl⟩

/-- A statement that is not terminated ends with its name. -/
theorem rdropWhile_text_of_none (hlib : lib.IsDocumented) (hd : d.IsWellFormed lib.isWord)
    (hterminated : d.tail.terminated = none) :
    d.text.rdropWhile Text.isWhitespace =
      (d.deleteWord ++ d.gap₁ ++ d.fromWord ++ d.gap₂) ++ d.table.text := by
  obtain ⟨y, e, hy, he⟩ := SqlName.exists_text hlib hd.table
  have hshape : d.text = (d.deleteWord ++ d.gap₁ ++ d.fromWord ++ d.gap₂ ++ y) ++
      e :: d.tail.blanks := by
    rw [text, SqlTail.text, hterminated, hy]
    simp
  rw [hshape, Text.rdropWhile_append_cons he, hd.tail.blanks.rdropWhile, hy]
  simp

/-- The pattern is found in a statement with a single word as its name and without a `;`. -/
theorem occurs_bareDelete (hlib : lib.IsDocumented) (hd : d.IsWellFormed lib.isWord)
    (hplain : d.table.IsPlain) (hterminated : d.tail.terminated = none) :
    (QueryPattern.bareDelete lib.isWord).regex.Occurs d.text := by
  obtain ⟨hqualifiers, word, hword⟩ := hplain
  have hwell := hd.table.name
  rw [hword] at hwell
  have hshape : d.text = [] ++ ([] ++ (d.deleteWord ++ (d.gap₁ ++ (d.fromWord ++ (d.gap₂ ++
      (word ++ (d.tail.blanks ++ ([] ++ [])))))))) ++ [] := by
    rw [text, SqlTail.text, SqlName.text, hqualifiers, hword, hterminated]
    simp [NamePart.text]
  have hfirst (t : List Char) : (d.deleteWord ++ t).head?.any lib.isWord = true := by
    obtain ⟨e, rest, he, -, heq⟩ := List.forall₂_cons_left_iff.mp hd.deleteWord
    rw [heq, List.cons_append, List.head?_cons, Option.any_some]
    rcases he with rfl | rfl <;>
    · rw [hlib.isWord_ascii _ (by decide)]
      decide
  have hboundary (t : List Char) : (([] : List Char).getLast?.any lib.isWord !=
      (d.deleteWord ++ t).head?.any lib.isWord) = true := by
    rw [hfirst]
    rfl
  rw [hshape]
  refine ⟨[], _, [], rfl, [], _, rfl, ⟨rfl, by
      rw [List.append_nil, List.nil_append]
      exact hboundary _⟩, d.deleteWord, _, rfl,
    QueryPattern.matches_keyword hd.deleteWord (by decide), d.gap₁, _, rfl,
    QueryPattern.matches_gap_iff.mpr hd.gap₁, d.fromWord, _, rfl,
    QueryPattern.matches_keyword hd.fromWord (by decide), d.gap₂, _, rfl,
    QueryPattern.matches_gap_iff.mpr hd.gap₂, word, _, rfl, RegExp.matches_plus_iff.mpr hwell,
    d.tail.blanks, _, rfl, hd.tail.blanks, [], _, rfl, ⟨rfl, rfl⟩, rfl, rfl⟩

/-- The pattern is found in a `DELETE` exactly if its name is a single word that nothing but white
space follows. -/
theorem occurs_bareDelete_iff (hlib : lib.IsDocumented) (hd : d.IsWellFormed lib.isWord) :
    (QueryPattern.bareDelete lib.isWord).regex.Occurs d.text ↔
      d.table.IsPlain ∧ d.tail.terminated = none := by
  refine ⟨fun h => ?_, fun h => occurs_bareDelete hlib hd h.1 h.2⟩
  obtain ⟨x, blank, word, c, hend, hblank, hword⟩ := QueryPattern.rdropWhile_of_occurs hlib h
  cases hterminated : d.tail.terminated with
  | none =>
      rw [rdropWhile_text_of_none hlib hd hterminated] at hend
      exact ⟨SqlName.isPlain_of_append_eq hlib hd.table hend hblank hword, rfl⟩
  | some after =>
      -- a `;` at the end is no character of a word
      obtain ⟨y, hy⟩ := rdropWhile_text_of_some hd hterminated
      have hlast := congrArg List.getLast? (hy.symm.trans hend)
      rw [← List.cons_append, ← List.append_assoc, List.getLast?_concat, List.getLast?_concat]
        at hlast
      obtain rfl := Option.some.inj hlast
      have hc := hword ';' (by simp)
      rw [hlib.isWord_sign (by decide)] at hc
      exact absurd hc Bool.false_ne_true

end DeleteAll

/-- The statement has the form of the pattern for it, or another check finds something in its
text. -/
def DeleteAll.IsCaught (lib : RegexCrate) (d : DeleteAll) : Prop :=
  (d.table.IsPlain ∧ d.tail.terminated = none) ∨
    QueryFirewall.updatesWithoutWhere (String.ofList d.text) = true ∨
    ∃ p ∈ QueryPattern.others lib.isWord, lib.isMatch p.regex d.text = true

/-- There is no `WHERE` in its name and its assignments, in quotes or not, or a pattern is found in
its text. -/
def UpdateAll.IsCaught (lib : RegexCrate) (u : UpdateAll) : Prop :=
  ¬ ("WHERE".toList <:+: u.table.text.flatMap Text.upperChars ∨
      "WHERE".toList <:+: u.assignments.flatMap Text.upperChars) ∨
    ∃ p ∈ QueryPattern.blocked lib.isWord, lib.isMatch p.regex u.text = true

/-- The `DELETE` statements that are blocked. -/
theorem DeleteAll.isBlocked_iff (hlib : lib.IsDocumented) {d : DeleteAll}
    (hd : d.IsWellFormed lib.isWord) :
    QueryFirewall.isBlocked lib (String.ofList d.text) = true ↔ d.IsCaught lib := by
  have hdelete := (hlib.isMatch_iff _ _).trans (d.occurs_bareDelete_iff hlib hd)
  rw [QueryFirewall.isBlocked, QueryPattern.any_blocked, Bool.or_eq_true, Bool.or_eq_true,
    String.toList_ofList, hdelete, List.any_eq_true, IsCaught, or_left_comm]

/-- After a statement there are only white space and a `;`. -/
theorem SqlTail.IsWellFormed.mem_text {t : SqlTail} (ht : t.IsWellFormed) :
    ∀ c ∈ t.text, Text.isWhitespace c = true ∨ c = ';' := by
  intro c hc
  rcases List.mem_append.mp hc with hblank | hrest
  · exact .inl (ht.blanks c hblank)
  · cases hterminated : t.terminated with
    | none =>
        rw [hterminated] at hrest
        exact absurd hrest List.not_mem_nil
    | some after =>
        rw [hterminated] at hrest
        rcases List.mem_cons.mp hrest with rfl | hafter
        · exact .inr rfl
        · exact .inl (ht.terminated after hterminated c hafter)

/-- The check of `UPDATE` statements finds all of them that have no `WHERE` in their name and their
assignments. -/
theorem UpdateAll.updatesWithoutWhere_iff {isWord : Char → Bool} {u : UpdateAll}
    (hu : u.IsWellFormed isWord) :
    QueryFirewall.updatesWithoutWhere (String.ofList u.text) = true ↔
      ¬ ("WHERE".toList <:+: u.table.text.flatMap Text.upperChars ∨
        "WHERE".toList <:+: u.assignments.flatMap Text.upperChars) := by
  have hupdateLetters : ∀ l ∈ "UPDATE".toList, l.isUpper = true := List.all_eq_true.mp (by decide)
  have hsetLetters : ∀ l ∈ "SET".toList, l.isUpper = true := List.all_eq_true.mp (by decide)
  have hupper : u.text.flatMap Text.upperChars =
      "UPDATE".toList ++ u.gap₁ ++ u.table.text.flatMap Text.upperChars ++ u.gap₂ ++ "SET".toList ++
        u.gap₃ ++ u.assignments.flatMap Text.upperChars ++ u.tail.text.flatMap Text.upperChars := by
    simp only [text, List.flatMap_append, hu.updateWord.flatMap_upperChars hupdateLetters,
      hu.gap₁.2.flatMap_upperChars, hu.gap₂.2.flatMap_upperChars, hu.gap₃.2.flatMap_upperChars,
      hu.setWord.flatMap_upperChars hsetLetters]
  -- white space and what stands after the statement are not in the word
  have hblank (c : Char) (hc : Text.isWhitespace c = true) : c ∉ "WHERE".toList := by
    intro hmem
    have hnone : "WHERE".toList.any Text.isWhitespace = false := by decide
    exact List.any_eq_false.mp hnone c hmem hc
  have htail : ∀ c ∈ u.tail.text.flatMap Text.upperChars, c ∉ "WHERE".toList := by
    intro c hc
    obtain ⟨e, he, hc⟩ := List.mem_flatMap.mp hc
    rcases hu.tail.mem_text e he with hspace | rfl
    · rw [Text.upperChars_of_isWhitespace hspace, List.mem_singleton] at hc
      exact hc ▸ hblank e hspace
    · have hsemicolon : Text.upperChars ';' = [';'] := by decide
      rw [hsemicolon, List.mem_singleton] at hc
      exact hc ▸ by decide
  have hwhere : "WHERE".toList <:+: u.text.flatMap Text.upperChars ↔
      "WHERE".toList <:+: u.table.text.flatMap Text.upperChars ∨
        "WHERE".toList <:+: u.assignments.flatMap Text.upperChars := by
    have hne : "WHERE".toList ≠ [] := by decide
    have hcut {gap s t : List Char} (hgap : IsGap gap) :
        "WHERE".toList <:+: s ++ gap ++ t ↔ "WHERE".toList <:+: s ∨ "WHERE".toList <:+: t :=
      Pattern.infix_append_gap_append_iff hne hgap.1 fun c hc => hblank c (hgap.2 c hc)
    have hupdate : ¬ "WHERE".toList <:+: "UPDATE".toList := by decide
    have hset : ¬ "WHERE".toList <:+: "SET".toList := by decide
    rw [hupper, Pattern.infix_append_gap_iff hne htail, hcut hu.gap₃, hcut hu.gap₂, hcut hu.gap₁,
      or_iff_right hupdate, or_iff_left hset]
  have hupdate : "UPDATE".toList <:+: u.text.flatMap Text.upperChars := by
    rw [hupper]
    simp only [List.append_assoc]
    exact (List.prefix_append _ _).isInfix
  have hset : "SET".toList <:+: u.text.flatMap Text.upperChars := by
    rw [hupper]
    exact (List.suffix_append _ _).isInfix.trans (((List.prefix_append _ _).trans
      (List.prefix_append _ _)).trans (List.prefix_append _ _)).isInfix
  rw [QueryFirewall.updatesWithoutWhere]
  simp only [Text.contains, Text.toUppercase, String.toList_ofList, hupdate, hset, hwhere]
  simp

/-- The `UPDATE` statements that are blocked. -/
theorem UpdateAll.isBlocked_iff {u : UpdateAll} (hu : u.IsWellFormed lib.isWord) :
    QueryFirewall.isBlocked lib (String.ofList u.text) = true ↔ u.IsCaught lib := by
  rw [QueryFirewall.isBlocked, Bool.or_eq_true, u.updatesWithoutWhere_iff hu, List.any_eq_true,
    String.toList_ofList (l := u.text), IsCaught]

namespace QueryFirewall

variable {F : Type} [LT F] [DecidableLT F]

/-- A `DELETE` of all rows is blocked exactly if its name is a single word without a `;` after it,
or another check finds something in it; an `UPDATE` exactly if there is no `WHERE` in its name and
its assignments, or a pattern is found in it. The functions come to an end exactly if no preview
that they take ends inside a character. -/
theorem guards_iff (hlib : lib.IsDocumented) (warns : Bool) (fw : QueryFirewall F) :
    (∀ d : DeleteAll, d.IsWellFormed lib.isWord →
      ((∃ reason, inspect lib warns (String.ofList d.text) = some (.block reason)) ↔
        d.IsCaught lib ∧ ¬ (warns = true ∧ Text.IsInside 80 d.text))) ∧
    (∀ u : UpdateAll, u.IsWellFormed lib.isWord →
      ((∃ reason, inspect lib warns (String.ofList u.text) = some (.block reason)) ↔
        u.IsCaught lib ∧ ¬ (warns = true ∧ Text.IsInside 80 u.text))) ∧
    (∀ query, (inspect lib warns query).isSome = true ↔
      ¬ (isBlocked lib query = true ∧ warns = true ∧ Text.IsInside 80 query.toList)) ∧
    ∀ now query durationMs source, (fw.recordSlow now query durationMs source).isSome = true ↔
      ¬ (fw.slowThresholdMs < durationMs ∧ Text.IsInside 200 query.toList) := by
  refine ⟨fun d hd => ?_, fun u hu => ?_, fun query => isSome_inspect_iff,
    fun now query durationMs source => isSome_recordSlow_iff⟩
  · rw [exists_inspect_eq_block_iff, d.isBlocked_iff hlib hd, String.toList_ofList]
  · rw [exists_inspect_eq_block_iff, u.isBlocked_iff hu, String.toList_ofList]

/-- The expressions by the search, with the characters of `\w` in ASCII. -/
def searching : RegexCrate where
  isWord c := c.toNat < 128 && (c.isAlphanum || c = '_')
  isMatch r s := r.found s

/-- It is what is documented. -/
theorem isDocumented_searching : searching.IsDocumented where
  isMatch_iff r s := RegExp.found_iff
  isWord_ascii c hc := by simp [searching, hc]
  isWord_blank c hc := by
    rw [Bool.eq_false_iff]
    intro hword
    simp only [searching, Bool.and_eq_true, Bool.or_eq_true, decide_eq_true_eq] at hword
    obtain ⟨hlt, halphanum | rfl⟩ := hword
    · simp only [Char.isAlphanum, Char.isAlpha, Char.isUpper, Char.isLower, Char.isDigit,
        Bool.or_eq_true, Bool.and_eq_true, decide_eq_true_eq, ge_iff_le, UInt32.le_iff_toNat_le,
        Char.toNat_val] at halphanum
      simp only [Text.isWhitespace, Bool.or_eq_true, Bool.and_eq_true, decide_eq_true_eq] at hc
      have hletters : (65 ≤ c.toNat ∧ c.toNat ≤ 90) ∨ (97 ≤ c.toNat ∧ c.toNat ≤ 122) ∨
          (48 ≤ c.toNat ∧ c.toNat ≤ 57) := by
        simpa [or_assoc] using halphanum
      omega
    · exact absurd hc (by decide)

/-- `delete from users` and `UPDATE users SET a = 1;` are blocked. -/
theorem guards_users :
    (∃ reason, inspect searching true
      (String.ofList (DeleteAll.text ⟨"delete".toList, " ".toList, "from".toList, "\n ".toList,
        ⟨[], .plain "users".toList⟩, ⟨[], none⟩⟩)) = some (.block reason)) ∧
    (∃ reason, inspect searching true
      (String.ofList (UpdateAll.text ⟨"UPDATE".toList, " ".toList, ⟨[], .plain "users".toList⟩,
        " ".toList, "Set".toList, " ".toList, "a = 'x'".toList, ⟨[], some " ".toList⟩⟩)) =
        some (.block reason)) := by
  have hguards := guards_iff isDocumented_searching true (⟨500, [], 0⟩ : QueryFirewall ℕ)
  refine ⟨(hguards.1 _ ⟨by decide, by decide, by decide, by decide, ⟨by decide, by decide⟩,
      ⟨by decide, by decide⟩⟩).mpr ⟨.inl ⟨⟨rfl, _, rfl⟩, rfl⟩, by decide⟩,
    (hguards.2.1 _ ⟨by decide, by decide, ⟨by decide, by decide⟩, by decide, by decide, by decide,
      by decide, ⟨by decide, by decide⟩⟩).mpr ⟨.inl (by decide), by decide⟩⟩

/-- A `DELETE` with a `;` after it is allowed, and a warning about an `UPDATE` panics. -/
theorem guards_fails :
    (¬ ∀ (lib : RegexCrate), lib.IsDocumented → ∀ (warns : Bool) (d : DeleteAll),
      d.IsWellFormed lib.isWord →
        ∃ reason, inspect lib warns (String.ofList d.text) = some (.block reason)) ∧
    ¬ ∀ (lib : RegexCrate), lib.IsDocumented → ∀ (warns : Bool) (query : String),
      (inspect lib warns query).isSome = true := by
  constructor
  · intro h
    obtain ⟨reason, hblock⟩ := h searching isDocumented_searching true
      ⟨"DELETE".toList, " ".toList, "FROM".toList, " ".toList, ⟨[], .plain "t".toList⟩,
        ⟨[], some []⟩⟩
      ⟨by decide, by decide, by decide, by decide, ⟨by decide, by decide⟩, ⟨by decide, by decide⟩⟩
    have hallow : inspect searching true "DELETE FROM t;" = some (.allow false) := by decide
    exact absurd (hallow.symm.trans hblock) (by simp)
  · intro h
    have hnone := h searching isDocumented_searching true
      (String.ofList ("UPDATE t SET name = '".toList ++ List.replicate 58 'a' ++ ['é']))
    revert hnone
    decide +kernel

end QueryFirewall

end XiraNet

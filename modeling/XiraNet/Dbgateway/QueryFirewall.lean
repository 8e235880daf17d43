import XiraNet.Base
import XiraNet.Dbgateway.SqlText
import XiraNet.Lib.Patterns
import XiraNet.Lib.RegExp

/-!
# The query firewall

`QueryFirewall::inspect` and `record_slow` of `dbgateway/query_firewall.rs`. The `regex` crate
stands as a parameter; the expressions are written out next to their sources. A function without a
value panics. `warns` says whether warnings are logged, and the clock is after the epoch.

* `QueryFirewall.exists_inspect_eq_block_iff`: the queries that are blocked.
* `QueryFirewall.isSome_inspect_iff`: the queries that `inspect` comes to an end on.
-/

namespace XiraNet

/-- What is used of the `regex` crate: the characters of `\w`, and the search for a match. -/
structure RegexCrate where
  isWord : Char → Bool
  isMatch : RegExp Char → List Char → Bool

/-- What is documented of it. -/
structure RegexCrate.IsDocumented (lib : RegexCrate) : Prop where
  isMatch_iff : ∀ r s, lib.isMatch r s = true ↔ r.Occurs s
  isWord_ascii : ∀ c : Char, c.toNat < 128 → lib.isWord c = (c.isAlphanum || c = '_')
  isWord_blank : ∀ c : Char, Text.isWhitespace c = true → lib.isWord c = false

/-- A blocked pattern with its source. -/
structure QueryPattern where
  source : String
  regex : RegExp Char

namespace QueryPattern

open RegExp

/-- A letter under `(?i)`. Besides the two cases there are `ſ` and the Kelvin sign. -/
def letter (l c : Char) : Bool :=
  c.toLower = l.toLower || (l.toLower = 's' && c = '\u017f') || (l.toLower = 'k' && c = '\u212a')

/-- A word under `(?i)`. -/
def keyword (w : String) : RegExp Char := word (w.toList.map letter)

/-- One of these words. -/
def oneOf (ws : List String) : RegExp Char := anyOf (ws.map keyword)

/-- `\s+`. -/
def gap : RegExp Char := plus Text.isWhitespace

/-- `$`. -/
def endOfText : RegExp Char := check fun _ a => a.isEmpty

variable (isWord : Char → Bool)

/-- `\b`. -/
def boundary : RegExp Char := check fun b a => b.getLast?.any isWord != a.head?.any isWord

/-- `DELETE` without anything after the name. -/
def bareDelete : QueryPattern :=
  ⟨"(?i)\\bDELETE\\s+FROM\\s+\\w+\\s*$",
    inOrder [boundary isWord, keyword "DELETE", gap, keyword "FROM", gap, plus isWord,
      many Text.isWhitespace, endOfText]⟩

/-- `DROP` or `TRUNCATE` of an object. -/
def dropsObject : QueryPattern :=
  ⟨"(?i)\\b(DROP|TRUNCATE)\\s+(TABLE|DATABASE|SCHEMA)",
    inOrder [boundary isWord, oneOf ["DROP", "TRUNCATE"], gap,
      oneOf ["TABLE", "DATABASE", "SCHEMA"]]⟩

/-- `ALTER TABLE` with `DROP` or `RENAME` later in the line. -/
def altersTable : QueryPattern :=
  ⟨"(?i)\\bALTER\\s+TABLE\\b.*\\b(DROP|RENAME)\\b",
    inOrder [boundary isWord, keyword "ALTER", gap, keyword "TABLE", boundary isWord,
      many (· ≠ '\n'), boundary isWord, oneOf ["DROP", "RENAME"], boundary isWord]⟩

/-- `GRANT` or `REVOKE` of wide rights. -/
def grants : QueryPattern :=
  ⟨"(?i)\\b(GRANT|REVOKE)\\s+(ALL|SUPER|CREATE)",
    inOrder [boundary isWord, oneOf ["GRANT", "REVOKE"], gap, oneOf ["ALL", "SUPER", "CREATE"]]⟩

/-- `SHUTDOWN`. -/
def shutsDown : QueryPattern :=
  ⟨"(?i)\\bSHUTDOWN\\b", inOrder [boundary isWord, keyword "SHUTDOWN", boundary isWord]⟩

/-- `LOAD DATA`. -/
def loadsData : QueryPattern :=
  ⟨"(?i)\\bLOAD\\s+DATA\\b",
    inOrder [boundary isWord, keyword "LOAD", gap, keyword "DATA", boundary isWord]⟩

/-- `INTO OUTFILE`. -/
def writesFile : QueryPattern :=
  ⟨"(?i)\\bINTO\\s+OUTFILE\\b",
    inOrder [boundary isWord, keyword "INTO", gap, keyword "OUTFILE", boundary isWord]⟩

/-- `blocked_patterns`. -/
def blocked : List QueryPattern :=
  [dropsObject isWord, altersTable isWord, bareDelete isWord, grants isWord, shutsDown isWord,
    loadsData isWord, writesFile isWord]

end QueryPattern

/-- `QueryVerdict`. -/
inductive QueryVerdict
  | allow (isRead : Bool)
  | block (reason : String)
  deriving DecidableEq, Repr

/-- `SlowQuery`. -/
structure SlowQuery (F : Type) where
  queryPreview : String
  durationMs : F
  source : String
  timestamp : ℕ
  deriving DecidableEq, Repr

/-- What `record_slow` works on. -/
structure QueryFirewall (F : Type) where
  slowThresholdMs : F
  slowLog : List (SlowQuery F)
  slowQueries : ℕ
  deriving DecidableEq, Repr

namespace QueryFirewall

/-- `query[..query.len().min(n)]`. -/
def preview (n : ℕ) (query : String) : Option String :=
  (Text.sliceTo (min (Text.byteLength query.toList) n) query.toList).map String.ofList

/-- The verdict on a query that is blocked, after the warning with its preview. -/
def block (warns : Bool) (query reason : String) : Option QueryVerdict :=
  if warns then (preview 80 query).map fun _ => .block reason else some (.block reason)

/-- The check of `UPDATE` statements. -/
def updatesWithoutWhere (query : String) : Bool :=
  let upper := Text.toUppercase query
  Text.contains upper "UPDATE" && Text.contains upper "SET" && !Text.contains upper "WHERE"

/-- The check whether a query reads. -/
def isRead (query : String) : Bool :=
  -- Only the start of the text is looked at.
  let upper := Text.toUppercase (Text.trimStart query)
  Text.startsWith upper "SELECT" || Text.startsWith upper "SHOW" ||
    Text.startsWith upper "DESCRIBE" || Text.startsWith upper "EXPLAIN"

/-- `inspect`. -/
def inspect (lib : RegexCrate) (warns : Bool) (query : String) : Option QueryVerdict :=
  -- The `regex` crate has no lookahead, so this check is no pattern.
  if updatesWithoutWhere query then block warns query "UPDATE without WHERE clause detected"
  else
    match (QueryPattern.blocked lib.isWord).find? (lib.isMatch ·.regex query.toList) with
    | some pattern => block warns query ("Dangerous query pattern detected: " ++ pattern.source)
    | none => some (.allow (isRead query))

/-- One of the two checks of `inspect` finds something. -/
def isBlocked (lib : RegexCrate) (query : String) : Bool :=
  updatesWithoutWhere query ||
    (QueryPattern.blocked lib.isWord).any (lib.isMatch ·.regex query.toList)

variable {F : Type} [LT F] [DecidableLT F]

/-- `record_slow`. -/
def recordSlow (fw : QueryFirewall F) (now : ℕ) (query : String) (durationMs : F)
    (source : String) : Option (QueryFirewall F) :=
  if fw.slowThresholdMs < durationMs then
    (preview 200 query).map fun queryPreview =>
      -- The older half of a full log is dropped.
      let log := fw.slowLog ++ [{ queryPreview, durationMs, source, timestamp := now }]
      { fw with
        slowLog := if 500 < log.length then log.drop 250 else log
        slowQueries := wrappingAdd fw.slowQueries 1 }
  else some fw

/-- A preview is taken exactly if it does not end inside a character. -/
theorem isSome_preview_iff {n : ℕ} {query : String} :
    (preview n query).isSome = true ↔ ¬ Text.IsInside n query.toList := by
  have hlength {a b : List Char} {c : Char} :
      Text.byteLength (a ++ c :: b) = Text.byteLength a + (c.utf8Size + Text.byteLength b) := by
    simp [Text.byteLength]
  rw [preview, Option.isSome_map, Text.isSome_sliceTo_iff, and_iff_right (min_le_left _ _)]
  rcases le_total n (Text.byteLength query.toList) with hle | hle
  · rw [min_eq_right hle]
  · rw [min_eq_left hle]
    refine iff_of_true ?_ ?_
    · rintro ⟨a, c, b, heq, -, hhi⟩
      rw [heq, hlength] at hhi
      omega
    · rintro ⟨a, c, b, heq, hlo, hhi⟩
      rw [heq, hlength] at hle
      omega

/-- A query that is not blocked is allowed. -/
theorem inspect_of_not_isBlocked {lib : RegexCrate} {warns : Bool} {query : String}
    (h : isBlocked lib query = false) : inspect lib warns query = some (.allow (isRead query)) := by
  obtain ⟨hupdate, hpatterns⟩ := Bool.or_eq_false_iff.mp h
  have hnone :
      (QueryPattern.blocked lib.isWord).find? (lib.isMatch ·.regex query.toList) = none := by
    rw [List.find?_eq_none]
    exact fun p hp => Bool.not_eq_true _ ▸ List.any_eq_false.mp hpatterns p hp
  rw [inspect, hupdate, if_neg Bool.false_ne_true, hnone]

/-- A query that is blocked comes to the warning. -/
theorem exists_inspect_of_isBlocked {lib : RegexCrate} {query : String}
    (h : isBlocked lib query = true) (warns : Bool) :
    ∃ reason, inspect lib warns query = block warns query reason := by
  unfold inspect
  cases hupdate : updatesWithoutWhere query with
  | true => exact ⟨_, if_pos rfl⟩
  | false =>
      rw [isBlocked, hupdate, Bool.false_or] at h
      obtain ⟨p, hp, hmatch⟩ := List.any_eq_true.mp h
      have hsome : ((QueryPattern.blocked lib.isWord).find?
          (lib.isMatch ·.regex query.toList)).isSome = true :=
        List.find?_isSome.mpr ⟨p, hp, hmatch⟩
      obtain ⟨found, hfound⟩ := Option.isSome_iff_exists.mp hsome
      rw [if_neg Bool.false_ne_true, hfound]
      exact ⟨_, rfl⟩

/-- The warning is written unless its preview ends inside a character. -/
theorem isSome_block_iff {warns : Bool} {query reason : String} :
    (block warns query reason).isSome = true ↔
      ¬ (warns = true ∧ Text.IsInside 80 query.toList) := by
  cases warns with
  | false => simp [block]
  | true => simp [block, isSome_preview_iff]

/-- The firewall comes to an end unless the preview of a warning ends inside a character. -/
theorem isSome_inspect_iff {lib : RegexCrate} {warns : Bool} {query : String} :
    (inspect lib warns query).isSome = true ↔
      ¬ (isBlocked lib query = true ∧ warns = true ∧ Text.IsInside 80 query.toList) := by
  cases h : isBlocked lib query with
  | false => simp [inspect_of_not_isBlocked h]
  | true =>
      obtain ⟨reason, hreason⟩ := exists_inspect_of_isBlocked h warns
      rw [hreason, isSome_block_iff, and_iff_right rfl]

/-- The queries that are blocked. -/
theorem exists_inspect_eq_block_iff {lib : RegexCrate} {warns : Bool} {query : String} :
    (∃ reason, inspect lib warns query = some (.block reason)) ↔
      isBlocked lib query = true ∧ ¬ (warns = true ∧ Text.IsInside 80 query.toList) := by
  cases h : isBlocked lib query with
  | false => simp [inspect_of_not_isBlocked h]
  | true =>
      obtain ⟨reason, hreason⟩ := exists_inspect_of_isBlocked h warns
      rw [hreason, and_iff_right rfl, ← isSome_block_iff]
      constructor
      · rintro ⟨reason', hblock⟩
        rw [hblock]
        rfl
      · intro hsome
        refine ⟨reason, ?_⟩
        unfold block at hsome ⊢
        cases warns with
        | false => rfl
        | true =>
            rw [if_pos rfl, Option.isSome_map] at hsome
            obtain ⟨text, htext⟩ := Option.isSome_iff_exists.mp hsome
            rw [if_pos rfl, htext, Option.map_some]

/-- A slow query is recorded unless its preview ends inside a character. -/
theorem isSome_recordSlow_iff {fw : QueryFirewall F} {now : ℕ} {query : String} {durationMs : F}
    {source : String} :
    (fw.recordSlow now query durationMs source).isSome = true ↔
      ¬ (fw.slowThresholdMs < durationMs ∧ Text.IsInside 200 query.toList) := by
  unfold recordSlow
  split
  next hslow => rw [Option.isSome_map, isSome_preview_iff, and_iff_right hslow]
  next hfast => simp [hfast]

end QueryFirewall

end XiraNet

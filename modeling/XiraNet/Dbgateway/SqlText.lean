import Mathlib.Data.List.Forall2
import XiraNet.Lib.Text

/-!
# SQL texts

How statements are written: keywords in any letter case, names, and what may stand around them.
Nothing here is taken from the code; the checks of the gateway are compared with it.
-/

namespace XiraNet

/-- A word in capital letters, written in any letter case. -/
def Spells (word s : List Char) : Prop := List.Forall₂ (fun l c => c = l ∨ c = l.toLower) word s

instance (word s : List Char) : Decidable (Spells word s) :=
  inferInstanceAs (Decidable (List.Forall₂ _ _ _))

/-- White space. -/
def IsBlank (s : List Char) : Prop := ∀ c ∈ s, Text.isWhitespace c = true

instance (s : List Char) : Decidable (IsBlank s) := List.decidableBAll _ s

/-- Some white space between two words. -/
def IsGap (s : List Char) : Prop := s ≠ [] ∧ IsBlank s

instance (s : List Char) : Decidable (IsGap s) := inferInstanceAs (Decidable (_ ∧ _))

/-- What stands outside quotes, from a place that is inside quotes or not. -/
def unquotedFrom : Option Char → List Char → List Char
  | _, [] => []
  | some quote, c :: s => if c = quote then unquotedFrom none s else unquotedFrom (some quote) s
  | none, c :: s =>
      if c = '\'' ∨ c = '"' ∨ c = '`' then ' ' :: unquotedFrom (some c) s
      else c :: unquotedFrom none s

/-- What stands outside quotes, with a blank for everything in quotes. -/
def unquoted (s : List Char) : List Char := unquotedFrom none s

/-- A character of a word: a letter, a digit, an underscore or anything outside ASCII. -/
def isWordChar (c : Char) : Bool := c.isAlphanum || c = '_' || 128 ≤ c.toNat

/-- The words outside quotes, in capital letters. -/
def bareWords (s : List Char) : List String :=
  let parts := (unquoted s).splitOnP fun c => !isWordChar c
  (parts.filter (· ≠ [])).map fun word => String.ofList (word.map Char.toUpper)

example : bareWords "a = 'x where', b = WhEre2".toList = ["A", "B", "WHERE2"] := by decide

/-- A part of a name. -/
inductive NamePart
  | plain (word : List Char)
  | quoted (quote : Char) (s : List Char)
  deriving DecidableEq, Repr

namespace NamePart

/-- A quote in a quoted name is written twice. -/
def text : NamePart → List Char
  | plain word => word
  | quoted quote s => quote :: s.flatMap (fun c => if c = quote then [c, c] else [c]) ++ [quote]

/-- Plain names are words, quoted ones stand in double quotes or backquotes. -/
def IsWellFormed (isWord : Char → Bool) : NamePart → Prop
  | plain word => word ≠ [] ∧ ∀ c ∈ word, isWord c = true
  | quoted quote _ => quote = '"' ∨ quote = '`'

instance (isWord : Char → Bool) : (part : NamePart) → Decidable (part.IsWellFormed isWord)
  | plain word => @instDecidableAnd _ _ inferInstance (List.decidableBAll _ word)
  | quoted quote _ => inferInstanceAs (Decidable (quote = '"' ∨ quote = '`'))

end NamePart

/-- The name of a table with the names before it. -/
structure SqlName where
  qualifiers : List NamePart
  name : NamePart
  deriving DecidableEq, Repr

namespace SqlName

/-- A name as it is written. -/
def text (n : SqlName) : List Char :=
  n.qualifiers.flatMap (fun part => part.text ++ ['.']) ++ n.name.text

/-- All parts are well formed. -/
structure IsWellFormed (isWord : Char → Bool) (n : SqlName) : Prop where
  qualifiers : ∀ part ∈ n.qualifiers, part.IsWellFormed isWord
  name : n.name.IsWellFormed isWord

/-- A single word. -/
def IsPlain (n : SqlName) : Prop := n.qualifiers = [] ∧ ∃ word, n.name = .plain word

end SqlName

/-- What stands after a statement: white space, and white space after a `;` if there is one. -/
structure SqlTail where
  blanks : List Char
  terminated : Option (List Char)
  deriving DecidableEq, Repr

namespace SqlTail

/-- The tail as it is written. -/
def text (t : SqlTail) : List Char :=
  t.blanks ++ match t.terminated with
    | some blanks => ';' :: blanks
    | none => []

/-- There is only white space around the `;`. -/
structure IsWellFormed (t : SqlTail) : Prop where
  blanks : IsBlank t.blanks
  terminated : ∀ blanks ∈ t.terminated, IsBlank blanks

end SqlTail

/-- A `DELETE` of all rows. -/
structure DeleteAll where
  deleteWord : List Char
  gap₁ : List Char
  fromWord : List Char
  gap₂ : List Char
  table : SqlName
  tail : SqlTail
  deriving DecidableEq, Repr

namespace DeleteAll

/-- The statement as it is written. -/
def text (d : DeleteAll) : List Char :=
  d.deleteWord ++ d.gap₁ ++ d.fromWord ++ d.gap₂ ++ d.table.text ++ d.tail.text

/-- The parts are what they stand for. -/
structure IsWellFormed (isWord : Char → Bool) (d : DeleteAll) : Prop where
  deleteWord : Spells "DELETE".toList d.deleteWord
  gap₁ : IsGap d.gap₁
  fromWord : Spells "FROM".toList d.fromWord
  gap₂ : IsGap d.gap₂
  table : d.table.IsWellFormed isWord
  tail : d.tail.IsWellFormed

end DeleteAll

/-- An `UPDATE` of all rows. -/
structure UpdateAll where
  updateWord : List Char
  gap₁ : List Char
  table : SqlName
  gap₂ : List Char
  setWord : List Char
  gap₃ : List Char
  assignments : List Char
  tail : SqlTail
  deriving DecidableEq, Repr

namespace UpdateAll

/-- The statement as it is written. -/
def text (u : UpdateAll) : List Char :=
  u.updateWord ++ u.gap₁ ++ u.table.text ++ u.gap₂ ++ u.setWord ++ u.gap₃ ++ u.assignments ++
    u.tail.text

/-- The parts are what they stand for, and there is neither `WHERE` nor `;` outside quotes. -/
structure IsWellFormed (isWord : Char → Bool) (u : UpdateAll) : Prop where
  updateWord : Spells "UPDATE".toList u.updateWord
  gap₁ : IsGap u.gap₁
  table : u.table.IsWellFormed isWord
  gap₂ : IsGap u.gap₂
  setWord : Spells "SET".toList u.setWord
  gap₃ : IsGap u.gap₃
  assignments : "WHERE" ∉ bareWords u.assignments ∧ ';' ∉ unquoted u.assignments
  tail : u.tail.IsWellFormed

end UpdateAll

/-- White space or a comment. -/
inductive SqlTrivia
  | blanks (s : List Char)
  | line (s : List Char)
  | block (s : List Char)
  deriving DecidableEq, Repr

namespace SqlTrivia

/-- Comments as they are written. -/
def text : SqlTrivia → List Char
  | blanks s => s
  | line s => "--".toList ++ s ++ ['\n']
  | block s => "/*".toList ++ s ++ "*/".toList

/-- No comment ends before its end. -/
def IsWellFormed : SqlTrivia → Prop
  | blanks s => IsBlank s
  | line s => '\n' ∉ s
  | block s => ¬ "*/".toList <:+: s

instance : (t : SqlTrivia) → Decidable t.IsWellFormed
  | blanks s => inferInstanceAs (Decidable (IsBlank s))
  | line s => inferInstanceAs (Decidable ('\n' ∉ s))
  | block s => inferInstanceAs (Decidable (¬ "*/".toList <:+: s))

/-- It is no comment. -/
def isBlanks : SqlTrivia → Bool
  | blanks _ => true
  | line _ | block _ => false

end SqlTrivia

/-- A statement: what stands before its first word, this word in capital letters and as it is
written, and the rest. The word is empty if the statement starts with a sign. -/
structure SqlStatement where
  trivia : List SqlTrivia
  keyword : List Char
  spelled : List Char
  rest : List Char
  deriving DecidableEq, Repr

namespace SqlStatement

/-- The statement as it is written. -/
def text (s : SqlStatement) : List Char := s.trivia.flatMap SqlTrivia.text ++ s.spelled ++ s.rest

/-- The first word ends before the rest, and the rest does not start with white space if there is
no word. -/
structure IsWellFormed (s : SqlStatement) : Prop where
  trivia : ∀ t ∈ s.trivia, t.IsWellFormed
  keyword : ∀ l ∈ s.keyword, l.isUpper = true
  spelled : Spells s.keyword s.spelled
  rest : ∀ c ∈ s.rest.head?, isWordChar c = false ∧ (s.keyword = [] → Text.isWhitespace c = false)

instance (s : SqlStatement) : Decidable s.IsWellFormed :=
  decidable_of_iff ((∀ t ∈ s.trivia, t.IsWellFormed) ∧ s.keyword.all Char.isUpper = true ∧
      Spells s.keyword s.spelled ∧ s.rest.head?.all (fun c =>
        isWordChar c = false ∧ (s.keyword = [] → Text.isWhitespace c = false)) = true)
    ⟨fun h => ⟨h.1, List.all_eq_true.mp h.2.1, h.2.2.1, fun c hc => by
        have hrest := h.2.2.2
        rw [hc] at hrest
        exact of_decide_eq_true hrest⟩,
      fun h => ⟨h.trivia, List.all_eq_true.mpr h.keyword, h.spelled, by
        cases hc : s.rest.head? with
        | none => rfl
        | some c => exact decide_eq_true (h.rest c hc)⟩⟩

/-- The words that start statements which change data. -/
def dataChanging : List String :=
  ["INSERT", "UPDATE", "DELETE", "REPLACE", "MERGE", "UPSERT", "TRUNCATE", "COPY", "LOAD", "CREATE",
    "ALTER", "DROP"]

/-- The statement changes data: by itself, under `EXPLAIN ANALYZE` or in a `WITH` clause. -/
def ChangesData (s : SqlStatement) : Prop :=
  String.ofList s.keyword ∈ dataChanging ∨
    (∃ w ∈ bareWords s.rest, w ∈ dataChanging) ∧
      (s.keyword = "WITH".toList ∨
        s.keyword = "EXPLAIN".toList ∧ "ANALYZE" ∈ bareWords s.rest)

end SqlStatement

/-- Statements that are separated by `;`. -/
structure SqlScript where
  first : SqlStatement
  others : List SqlStatement
  deriving DecidableEq, Repr

namespace SqlScript

/-- The script as it is written. -/
def text (s : SqlScript) : List Char := s.first.text ++ s.others.flatMap fun t => ';' :: t.text

/-- The statements are well formed, and one of them changes data. -/
structure Writes (s : SqlScript) : Prop where
  wellFormed : ∀ t ∈ s.first :: s.others, t.IsWellFormed
  changesData : ∃ t ∈ s.first :: s.others, t.ChangesData

end SqlScript

end XiraNet

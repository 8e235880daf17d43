import Mathlib.Data.Set.Finite.Lemmas
import XiraNet.Plugins.LuaEngine

/-!
# Scripts that are written out

Lists of commands, the source that they are written to, and what `interpret` makes of it.

* `LuaEngine.interpret_iff`: which commands are carried out as they are written.
* `LuaEngine.interpret_fails`: an argument with a blank at its start.
-/

namespace XiraNet

/-- A command with its arguments. -/
inductive ScriptCommand
  | reject (status : Fin (2 ^ 16)) (body : String)
  | addHeader (name value : String)
  | modifyHeader (name value : String)
  | log (message : String)
  deriving DecidableEq, Repr

/-- What a condition compares. -/
inductive ConditionField
  | path
  | method
  | ip
  deriving DecidableEq, Repr

/-- A condition. -/
structure ScriptGuard where
  field : ConditionField
  value : String
  deriving DecidableEq, Repr

/-- A command with its condition, if it has one. -/
structure ScriptLine where
  guard : Option ScriptGuard
  command : ScriptCommand
  deriving DecidableEq, Repr

/-- The word for what a condition compares. -/
def ConditionField.text : ConditionField → List Char
  | .path => "path".toList
  | .method => "method".toList
  | .ip => "ip".toList

/-- What a condition looks at. -/
def ConditionField.read (f : ConditionField) (ctx : RequestContext) : String :=
  match f with
  | .path => ctx.path
  | .method => ctx.method
  | .ip => ctx.ip

/-- A request with one string for what a condition looks at and another one for the rest. -/
def ConditionField.context (f : ConditionField) (s rest : String) : RequestContext :=
  match f with
  | .path => ⟨rest, s, rest⟩
  | .method => ⟨s, rest, rest⟩
  | .ip => ⟨rest, rest, s⟩

/-- The condition holds. -/
def ScriptGuard.holds (g : ScriptGuard) (ctx : RequestContext) : Bool :=
  match g.field with
  | .path => ctx.path = g.value
  | .method => Text.eqIgnoreAsciiCase ctx.method g.value
  | .ip => ctx.ip = g.value

/-- There is neither `then` nor `==` in the string of a condition. -/
def ScriptGuard.IsPlain (g : ScriptGuard) : Prop :=
  ¬ "then".toList <:+: g.value.toList ∧ ¬ "==".toList <:+: g.value.toList

namespace ScriptCommand

/-- The name of a command. -/
def name : ScriptCommand → List Char
  | .reject .. => "reject".toList
  | .addHeader .. => "add_header".toList
  | .modifyHeader .. => "modify_header".toList
  | .log _ => "log".toList

/-- The arguments of a command. -/
def args : ScriptCommand → List Char
  | .reject status body => Nat.toDigits 10 status ++ ", ".toList ++ LuaEngine.quote body
  | .addHeader name value | .modifyHeader name value =>
      LuaEngine.quote name ++ ", ".toList ++ LuaEngine.quote value
  | .log message => LuaEngine.quote message

/-- A command as it is written. -/
def text (c : ScriptCommand) : List Char := c.name ++ '(' :: c.args ++ [')']

/-- The strings in a command. -/
def strings : ScriptCommand → List String
  | .reject _ body => [body]
  | .addHeader name value | .modifyHeader name value => [name, value]
  | .log message => [message]

/-- The action of a command, with a change of its strings. -/
def actionWith (f : String → String) : ScriptCommand → LuaAction
  | .reject status body => .reject status (f body)
  | .addHeader name value => .addHeader (f name) (f value)
  | .modifyHeader name value => .modifyHeader (f name) (f value)
  | .log message => .log (f message)

/-- The action of a command. -/
def action (c : ScriptCommand) : LuaAction := c.actionWith id

end ScriptCommand

namespace ScriptLine

/-- A line as it is written. -/
def text (l : ScriptLine) : List Char :=
  match l.guard with
  | some g =>
      "if ".toList ++ (g.field.text ++ " == \"".toList ++ g.value.toList ++ "\" then ".toList ++
        l.command.text)
  | none => l.command.text

/-- There are no line breaks in the strings, and no quotes in the one of the condition. -/
structure IsWritable (l : ScriptLine) : Prop where
  strings : ∀ s ∈ l.command.strings, '\n' ∉ s.toList
  guard : ∀ g ∈ l.guard, '\n' ∉ g.value.toList ∧ '"' ∉ g.value.toList

/-- What is to be done for a request. -/
def expected (l : ScriptLine) (ctx : RequestContext) : Option LuaAction :=
  if l.guard.all (·.holds ctx) then some l.command.action else none

/-- There is no white space around the strings of the command, and the condition is plain. -/
structure IsFaithful (l : ScriptLine) : Prop where
  strings : ∀ s ∈ l.command.strings, Text.trim s = s
  guard : ∀ g ∈ l.guard, g.IsPlain

/-- The source with one line for each command. -/
def source (ls : List ScriptLine) : String :=
  String.ofList (['\n'].intercalate (ls.map text))

end ScriptLine

namespace LuaEngine

/-- A quoted argument with white space in front of it is trimmed. -/
theorem trim_cons_of_isWhitespace {c : Char} (hc : Text.isWhitespace c = true) (s : List Char) :
    trim (c :: s) = trim s := by
  rw [trim, trim, List.dropWhile_cons_of_pos hc]

/-- There is nothing to trim between two characters that are no white space. -/
theorem trim_eq_self {c d : Char} (hc : Text.isWhitespace c = false)
    (hd : Text.isWhitespace d = false) (s : List Char) : trim (c :: s ++ [d]) = c :: s ++ [d] := by
  rw [trim, List.cons_append, List.dropWhile_cons_of_neg (by simp [hc]), ← List.cons_append,
    List.rdropWhile_concat_neg _ _ _ (by simp [hd])]

/-- A call is split at its outer parentheses. -/
theorem splitCall_call {name args : List Char} (hname : '(' ∉ name) :
    splitCall (name ++ '(' :: args ++ [')']) = some (trim name, args) := by
  have hopening : (name ++ '(' :: args ++ [')']).findIdx? (· = '(') = some name.length := by
    have hnone : name.findIdx? (· = '(') = none := by
      rw [List.findIdx?_eq_none_iff]
      intro c hc
      simpa using ne_of_mem_of_not_mem hc hname
    rw [List.append_assoc, List.findIdx?_append, hnone]
    simp [List.findIdx?_cons]
  have hclosing : (name ++ '(' :: args ++ [')']).reverse.findIdx? (· = ')') = some 0 := by
    simp [List.findIdx?_cons]
  have hlength : (name ++ '(' :: args ++ [')']).length - 1 - 0 =
      name.length + (args.length + 1) := by
    simp
  rw [splitCall, hopening, Option.bind_some, hclosing, Option.bind_some]
  dsimp only
  rw [hlength, if_neg (by omega), List.append_assoc, List.take_left, List.take_length_add_append]
  have hinside : (name ++ '(' :: args).drop (name.length + 1) = args := by
    rw [List.drop_length_add_append, List.drop_succ_cons, List.drop_zero]
  rw [List.cons_append, List.take_succ_cons, List.take_left, hinside]

/-- Outside quotes plain characters are read as they are. -/
theorem parseArgsFrom_plain (out : List String) (current : List Char) {s : List Char}
    (h : ∀ c ∈ s, c ≠ '"' ∧ c ≠ ',') (rest : List Char) :
    parseArgsFrom out current false false (s ++ rest) =
      parseArgsFrom out (current ++ s) false false rest := by
  induction s generalizing current with
  | nil => simp
  | cons c s ih =>
      obtain ⟨hquote, hcomma⟩ := h c List.mem_cons_self
      have hstep : parseArgsFrom out current false false (c :: (s ++ rest)) =
          parseArgsFrom out (current ++ [c]) false false (s ++ rest) := by
        simp [parseArgsFrom, hquote, hcomma]
      rw [List.cons_append, hstep, ih _ fun d hd => h d (List.mem_cons_of_mem c hd),
        List.append_assoc, List.singleton_append]

/-- The second argument is trimmed. -/
theorem parseArgsFrom_second (first : List Char) (s : String) :
    parseArgsFrom [] first false false (", ".toList ++ quote s) =
      [String.ofList (trim first), Text.trim s] := by
  have hcomma : parseArgsFrom [] first false false (", ".toList ++ quote s) =
      parseArgsFrom [String.ofList (trim first)] [' '] false false (quote s ++ []) := by
    simp [parseArgsFrom]
  rw [hcomma, parseArgsFrom_quote, List.singleton_append, parseArgsFrom,
    if_neg (by simp), trim_cons_of_isWhitespace (by decide)]
  rfl

/-- A pair of quoted arguments. -/
theorem parseArgs_pair (s t : String) :
    parseArgs (quote s ++ ", ".toList ++ quote t) = [Text.trim s, Text.trim t] := by
  rw [parseArgs, List.append_assoc, parseArgsFrom_quote, List.nil_append, parseArgsFrom_second]
  rfl

/-- A number and a quoted argument. -/
theorem parseArgs_number (n : ℕ) (s : String) :
    parseArgs (Nat.toDigits 10 n ++ ", ".toList ++ quote s) =
      [String.ofList (Nat.toDigits 10 n), Text.trim s] := by
  have hdigit (c : Char) (hc : c ∈ Nat.toDigits 10 n) : c.isDigit = true :=
    Nat.isDigit_of_mem_toDigits (by decide) (by decide) hc
  have hplain (c : Char) (hc : c ∈ Nat.toDigits 10 n) : c ≠ '"' ∧ c ≠ ',' := by
    refine ⟨?_, ?_⟩
    · rintro rfl
      exact absurd (hdigit _ hc) (by decide)
    · rintro rfl
      exact absurd (hdigit _ hc) (by decide)
  have htrim : String.ofList (trim (Nat.toDigits 10 n)) = String.ofList (Nat.toDigits 10 n) := by
    have h := Text.trim_eq_self (s := String.ofList (Nat.toDigits 10 n)) (by
      rw [String.toList_ofList]
      exact fun c hc => Text.isWhitespace_of_isDigit (hdigit c hc))
    rwa [Text.trim, String.toList_ofList] at h
  rw [parseArgs, List.append_assoc, parseArgsFrom_plain [] [] hplain, List.nil_append,
    parseArgsFrom_second, htrim]

/-- A quoted argument alone. Nothing is read if it is empty. -/
theorem parseArgs_single (s : String) : (parseArgs (quote s))[0]?.getD "" = Text.trim s := by
  have h : parseArgs (quote s) =
      if s.toList.isEmpty then [] else [String.ofList (trim s.toList)] := by
    rw [parseArgs, ← List.append_nil (quote s), parseArgsFrom_quote, List.nil_append]
    rfl
  rw [h]
  cases hs : s.toList with
  | nil => simp [Text.trim, hs]
  | cons c t => simp [Text.trim, trim, hs]

/-- A command that is written out is carried out with its strings trimmed. -/
theorem parseStatement_text (c : ScriptCommand) :
    parseStatement c.text = some (c.actionWith Text.trim) := by
  have hcall : splitCall c.text = some (c.name, c.args) := by
    have hname : '(' ∉ c.name ∧ trim c.name = c.name := by
      cases c <;> dsimp only [ScriptCommand.name] <;> decide
    rw [ScriptCommand.text, splitCall_call hname.1, hname.2]
  rw [parseStatement, hcall, Option.bind_some]
  cases c with
  | reject status body =>
      have hle : (status : ℕ) ≤ 2 ^ 16 - 1 := Nat.le_pred_of_lt status.isLt
      dsimp only [ScriptCommand.args, ScriptCommand.name]
      rw [parseArgs_number, if_pos rfl, List.getElem?_cons_zero, Option.map_some,
        String.toList_ofList, Text.parseUnsigned_toDigits hle]
      rfl
  | addHeader name value =>
      dsimp only [ScriptCommand.args, ScriptCommand.name]
      rw [parseArgs_pair, if_neg (by decide), if_pos rfl]
      rfl
  | modifyHeader name value =>
      dsimp only [ScriptCommand.args, ScriptCommand.name]
      rw [parseArgs_pair, if_neg (by decide), if_neg (by decide), if_pos rfl]
      rfl
  | log message =>
      dsimp only [ScriptCommand.args, ScriptCommand.name]
      rw [parseArgs_single, if_neg (by decide), if_neg (by decide), if_neg (by decide), if_pos rfl]
      rfl

/-- The first and the last character of a command. -/
theorem exists_text (c : ScriptCommand) :
    ∃ d s, c.text = d :: s ++ [')'] ∧ Text.isWhitespace d = false ∧ d ≠ '-' ∧ d ≠ 'i' := by
  have hname : ∃ d s, c.name = d :: s ∧ Text.isWhitespace d = false ∧ d ≠ '-' ∧ d ≠ 'i' := by
    cases c <;> exact ⟨_, _, rfl, by decide⟩
  obtain ⟨d, s, hname, hd⟩ := hname
  exact ⟨d, s ++ '(' :: c.args, by rw [ScriptCommand.text, hname]; rfl, hd⟩

/-- There is no white space around a command. -/
theorem trim_text (c : ScriptCommand) : trim c.text = c.text := by
  obtain ⟨d, s, htext, hd, -⟩ := exists_text c
  rw [htext]
  exact trim_eq_self hd (by decide) s

/-- The first and the last character of a line. -/
theorem exists_line (l : ScriptLine) :
    ∃ d s, l.text = d :: s ++ [')'] ∧ Text.isWhitespace d = false ∧ d ≠ '-' := by
  obtain ⟨guard, c⟩ := l
  obtain ⟨d, s, htext, hd, hdash, -⟩ := exists_text c
  cases guard with
  | none => exact ⟨d, s, htext, hd, hdash⟩
  | some g =>
      refine ⟨'i', 'f' :: ' ' :: (g.field.text ++ " == \"".toList ++ g.value.toList ++
        "\" then ".toList ++ d :: s), ?_, by decide, by decide⟩
      simp [ScriptLine.text, htext]

/-- A line that is written out is carried out as it is. -/
theorem interpretLine_eq (l : ScriptLine) (ctx : RequestContext) :
    interpretLine l.text ctx = (executable l.text ctx).bind parseStatement := by
  obtain ⟨d, s, htext, hd, hdash⟩ := exists_line l
  have hcomment : "--".toList.isPrefixOf (d :: s ++ [')']) = false := by
    simp [List.isPrefixOf, Ne.symm hdash]
  rw [interpretLine, htext, trim_eq_self hd (by decide), hcomment]
  rfl

/-- The search for `==` in a condition. -/
theorem split_condition (f : ConditionField) (q : List Char) :
    ∃ n, Pattern.split ['=', '='] (f.text ++ " == \"".toList ++ q) =
      (f.text ++ [' ']) :: Pattern.splitUpTo ['=', '='] (n + 1) (' ' :: '"' :: q) := by
  cases f
  · exact ⟨_, rfl⟩
  · exact ⟨_, rfl⟩
  · exact ⟨_, rfl⟩

/-- A quote is not trimmed. -/
theorem trim_quote (q : List Char) :
    trim (' ' :: '"' :: q) = '"' :: q.rdropWhile Text.isWhitespace := by
  rw [trim_cons_of_isWhitespace (by decide), trim, List.dropWhile_cons_of_neg (by decide)]
  exact Text.rdropWhile_append_cons (by decide) [] q

/-- Without `==` in its string a condition is looked at as it is written. -/
theorem checkCondition_text (f : ConditionField) {q : List Char} (hq : ¬ "==".toList <:+: q)
    (ctx : RequestContext) :
    checkCondition (f.text ++ " == \"".toList ++ q) ctx =
      (⟨f, String.ofList (trimQuotes (q.rdropWhile Text.isWhitespace))⟩ : ScriptGuard).holds
        ctx := by
  obtain ⟨n, hsplit⟩ := split_condition f q
  have hrest : ¬ ['=', '='] <:+: ' ' :: '"' :: q := by
    have h : ['=', '='] <:+: [' '] ++ '"' :: q ↔ ['=', '='] <:+: [' '] ∨ ['=', '='] <:+: q :=
      Pattern.infix_append_cons_iff (by decide)
    exact fun hinfix => (h.mp hinfix).elim (by decide) hq
  have hfield : trim (f.text ++ [' ']) = f.text := by cases f <;> decide
  have hquotes (s : List Char) : trimQuotes ('"' :: s) = trimQuotes s := by
    rw [trimQuotes, List.dropWhile_cons_of_pos (by decide), trimQuotes]
  rw [checkCondition, hsplit, Pattern.splitUpTo_of_not_infix _ hrest, List.map_cons, hfield,
    List.map_singleton, trim_quote]
  dsimp only
  rw [hquotes]
  cases f with
  | path => exact if_pos rfl
  | method => exact (if_neg (by decide)).trans (if_pos rfl)
  | ip => exact (if_neg (by decide)).trans ((if_neg (by decide)).trans (if_pos rfl))

/-- With `==` in its string a condition does not hold. -/
theorem checkCondition_equals (f : ConditionField) {q : List Char} (hq : "==".toList <:+: q)
    (ctx : RequestContext) : checkCondition (f.text ++ " == \"".toList ++ q) ctx = false := by
  obtain ⟨n, hsplit⟩ := split_condition f q
  have hrest : ['=', '='] <:+: ' ' :: '"' :: q :=
    hq.trans (List.suffix_append [' ', '"'] q).isInfix
  have hlength := Pattern.two_le_length_splitUpTo n hrest
  rw [checkCondition, hsplit, List.map_cons]
  match hparts : Pattern.splitUpTo ['=', '='] (n + 1) (' ' :: '"' :: q), hlength with
  | _ :: _ :: _, _ => rfl

/-- A condition is trimmed after its quote. -/
theorem trim_condition (f : ConditionField) (q : List Char) :
    trim (f.text ++ " == \"".toList ++ q) =
      f.text ++ " == \"".toList ++ q.rdropWhile Text.isWhitespace := by
  have hdrop : (f.text ++ " == \"".toList ++ q).dropWhile Text.isWhitespace =
      f.text ++ " == ".toList ++ '"' :: q := by
    cases f <;> rfl
  rw [trim, hdrop, Text.rdropWhile_append_cons (by decide)]
  simp

/-- What stands between `if` and the first `then`, if there is none in the string. -/
theorem splitOnce_guard {g : ScriptGuard} (hthen : ¬ "then".toList <:+: g.value.toList)
    (t : List Char) :
    Pattern.splitOnce "then".toList
        (g.field.text ++ " == \"".toList ++ g.value.toList ++ "\" then ".toList ++ t) =
      some (g.field.text ++ " == \"".toList ++ (g.value.toList ++ ['"', ' ']), ' ' :: t) := by
  have hfield : ¬ "then".toList <:+: g.field.text ++ " == ".toList := by
    cases g.field <;> decide
  have hshape : g.field.text ++ " == \"".toList ++ g.value.toList ++ "\" then ".toList ++ t =
      (g.field.text ++ " == ".toList) ++
        '"' :: (g.value.toList ++ '"' :: (" then ".toList ++ t)) := by
    simp
  have hrest : Pattern.splitOnce "then".toList (" then ".toList ++ t) = some ([' '], ' ' :: t) :=
    rfl
  rw [hshape, Pattern.splitOnce_append_cons (by decide) hfield,
    Pattern.splitOnce_append_cons (by decide) hthen, hrest]
  simp

/-- With `then` in the string the condition ends in it. -/
theorem exists_splitOnce_guard {g : ScriptGuard} (hthen : "then".toList <:+: g.value.toList)
    (t : List Char) :
    ∃ a b, a.length < g.value.toList.length ∧
      Pattern.splitOnce "then".toList
          (g.field.text ++ " == \"".toList ++ g.value.toList ++ "\" then ".toList ++ t) =
        some (g.field.text ++ " == \"".toList ++ a, b) := by
  have hfield : ¬ "then".toList <:+: g.field.text ++ " == ".toList := by
    cases g.field <;> decide
  cases hparts : Pattern.splitOnce "then".toList g.value.toList with
  | none => exact absurd hthen (Pattern.splitOnce_eq_none_iff.mp hparts)
  | some parts =>
      obtain ⟨a, b⟩ := parts
      have hlength := congrArg List.length (Pattern.append_of_splitOnce hparts)
      have hshape : g.field.text ++ " == \"".toList ++ g.value.toList ++ "\" then ".toList ++ t =
          (g.field.text ++ " == ".toList) ++
            '"' :: (g.value.toList ++ ("\" then ".toList ++ t)) := by
        simp
      refine ⟨a, b ++ ("\" then ".toList ++ t), ?_, ?_⟩
      · rw [List.length_append, List.length_append] at hlength
        have hpattern : 0 < "then".toList.length := by decide
        omega
      · rw [hshape, Pattern.splitOnce_append_cons (by decide) hfield,
          Pattern.splitOnce_append hparts]
        simp

/-- The blank after the closing quote is trimmed. -/
theorem rdropWhile_closing (v : List Char) :
    (v ++ ['"', ' ']).rdropWhile Text.isWhitespace = v ++ ['"'] :=
  Text.rdropWhile_append_cons (by decide) v [' ']

/-- The closing quote is trimmed. -/
theorem trimQuotes_closing {v : List Char} (hv : '"' ∉ v) : trimQuotes (v ++ ['"']) = v := by
  have hself : v.rdropWhile (· = '"') = v := by
    rw [List.rdropWhile_eq_self_iff]
    intro hne hlast
    exact hv (of_decide_eq_true hlast ▸ List.getLast_mem hne)
  cases v with
  | nil => decide
  | cons c v =>
      have hc : c ≠ '"' := fun h => hv (h ▸ List.mem_cons_self)
      rw [trimQuotes, List.cons_append, List.dropWhile_cons_of_neg (by simp [hc]),
        ← List.cons_append, List.rdropWhile_concat_pos _ _ _ (by simp), hself]

/-- Nothing gets longer when quotes are trimmed. -/
theorem length_trimQuotes_le (s : List Char) : (trimQuotes s).length ≤ s.length :=
  (List.rdropWhile_prefix _ _).length_le.trans (List.dropWhile_suffix _).length_le

/-- What is carried out of a line with a condition. -/
theorem executable_guard (g : ScriptGuard) (c : ScriptCommand) (ctx : RequestContext) :
    executable (ScriptLine.text ⟨some g, c⟩) ctx =
      (Pattern.splitOnce "then".toList
        (g.field.text ++ " == \"".toList ++ g.value.toList ++ "\" then ".toList ++ c.text)).bind
        fun parts => if checkCondition (trim parts.1) ctx then some (trim parts.2) else none := by
  have hprefix : "if ".toList.isPrefixOf (ScriptLine.text ⟨some g, c⟩) = true := rfl
  rw [executable, if_pos hprefix]
  dsimp only [ScriptLine.text]
  rw [List.drop_left' (by decide)]
  cases Pattern.splitOnce "then".toList
    (g.field.text ++ " == \"".toList ++ g.value.toList ++ "\" then ".toList ++ c.text) <;> rfl

/-- A line with a plain condition is carried out when the condition holds. -/
theorem interpretLine_text {l : ScriptLine} (hwritable : l.IsWritable)
    (hplain : ∀ g ∈ l.guard, g.IsPlain) (ctx : RequestContext) :
    interpretLine l.text ctx =
      if l.guard.all (·.holds ctx) then some (l.command.actionWith Text.trim) else none := by
  rw [interpretLine_eq]
  obtain ⟨guard, c⟩ := l
  cases guard with
  | none =>
      obtain ⟨d, s, htext, -, -, hi⟩ := exists_text c
      have hcommand : "if ".toList.isPrefixOf (ScriptLine.text ⟨none, c⟩) = false := by
        rw [show ScriptLine.text ⟨none, c⟩ = c.text from rfl, htext]
        simp [List.isPrefixOf, Ne.symm hi]
      rw [executable, hcommand]
      exact parseStatement_text c
  | some g =>
      obtain ⟨hthen, hequals⟩ := hplain g rfl
      have hquote : '"' ∉ g.value.toList := (hwritable.guard g rfl).2
      have hcondition : checkCondition (trim (g.field.text ++ " == \"".toList ++
          (g.value.toList ++ ['"', ' ']))) ctx = g.holds ctx := by
        have hinside : ¬ "==".toList <:+: g.value.toList ++ ['"'] := fun hinfix =>
          ((Pattern.infix_append_cons_iff (by decide)).mp hinfix).elim hequals (by decide)
        have hclosing : (g.value.toList ++ ['"']).rdropWhile Text.isWhitespace =
            g.value.toList ++ ['"'] := Text.rdropWhile_append_cons (by decide) g.value.toList []
        rw [trim_condition, rdropWhile_closing, checkCondition_text _ hinside, hclosing,
          trimQuotes_closing hquote, String.ofList_toList]
      rw [executable_guard, splitOnce_guard hthen, Option.bind_some, hcondition,
        trim_cons_of_isWhitespace (by decide), trim_text]
      cases hholds : g.holds ctx <;> simp [hholds, parseStatement_text]

/-- If a line with a condition that is not plain is carried out, then its condition holds with a
shorter string. -/
theorem exists_shorter {l : ScriptLine} {g : ScriptGuard} (hg : l.guard = some g)
    (hplain : ¬ g.IsPlain) {ctx : RequestContext} (h : (interpretLine l.text ctx).isSome = true) :
    ∃ v : String, v.toList.length < g.value.toList.length ∧
      (⟨g.field, v⟩ : ScriptGuard).holds ctx = true := by
  obtain ⟨guard, c⟩ := l
  dsimp only at hg
  subst hg
  rw [interpretLine_eq, executable_guard] at h
  by_cases hthen : "then".toList <:+: g.value.toList
  -- what stands before `then` is compared
  · obtain ⟨a, b, hlength, hparts⟩ := exists_splitOnce_guard hthen c.text
    rw [hparts, Option.bind_some, trim_condition] at h
    have hcheck : checkCondition (g.field.text ++ " == \"".toList ++
        a.rdropWhile Text.isWhitespace) ctx = true := by
      by_contra hno
      rw [if_neg hno] at h
      exact Bool.false_ne_true h
    by_cases hequals : "==".toList <:+: a.rdropWhile Text.isWhitespace
    · rw [checkCondition_equals _ hequals] at hcheck
      exact absurd hcheck Bool.false_ne_true
    · rw [checkCondition_text _ hequals, List.rdropWhile_idempotent] at hcheck
      refine ⟨_, ?_, hcheck⟩
      rw [String.toList_ofList]
      exact ((length_trimQuotes_le _).trans (List.rdropWhile_prefix _ _).length_le).trans_lt hlength
  -- the condition has more than two parts
  · have hequals : "==".toList <:+: g.value.toList := not_not.mp fun hno => hplain ⟨hthen, hno⟩
    have hinside : "==".toList <:+: g.value.toList ++ ['"'] :=
      hequals.trans (List.prefix_append _ _).isInfix
    rw [splitOnce_guard hthen, Option.bind_some, trim_condition, rdropWhile_closing,
      checkCondition_equals _ hinside] at h
    exact absurd h Bool.false_ne_true

/-- A command is written without a line break. -/
theorem newline_notMem_command {c : ScriptCommand} (h : ∀ s ∈ c.strings, '\n' ∉ s.toList) :
    '\n' ∉ c.text := by
  have hquote {s : String} (hs : '\n' ∉ s.toList) : '\n' ∉ quote s := by
    have hescape : '\n' ∉ escape s.toList := by
      intro hmem
      obtain ⟨c, hc, hmem⟩ := List.mem_flatMap.mp hmem
      split at hmem
      next hspecial => rcases hspecial with rfl | rfl <;> simp at hmem
      next => exact hs (List.mem_singleton.mp hmem ▸ hc)
    simp [quote, hescape]
  have hdigits (n : ℕ) : '\n' ∉ Nat.toDigits 10 n := fun hmem =>
    absurd (Nat.isDigit_of_mem_toDigits (by decide) (by decide) hmem) (by decide)
  have hsecond {s t : List Char} (hs : '\n' ∉ s) (ht : '\n' ∉ t) :
      '\n' ∉ s ++ ", ".toList ++ t := by
    simp [hs, ht]
  have hname : '\n' ∉ c.name := by cases c <;> dsimp only [ScriptCommand.name] <;> decide
  have hargs : '\n' ∉ c.args := by
    cases c with
    | reject status body =>
        exact hsecond (hdigits status) (hquote (h body List.mem_cons_self))
    | addHeader name value | modifyHeader name value =>
        exact hsecond (hquote (h name List.mem_cons_self))
          (hquote (h value (List.mem_cons_of_mem _ List.mem_cons_self)))
    | log message => exact hquote (h message List.mem_cons_self)
  simp [ScriptCommand.text, hname, hargs]

/-- A line is written without a line break. -/
theorem newline_notMem_text {l : ScriptLine} (hwritable : l.IsWritable) : '\n' ∉ l.text := by
  have hcommand := newline_notMem_command hwritable.strings
  unfold ScriptLine.text
  cases hguard : l.guard with
  | none => exact hcommand
  | some g =>
      have hfield : '\n' ∉ g.field.text := by cases g.field <;> decide
      simp [hfield, hcommand, (hwritable.guard g hguard).1]

/-- The lines of a source that is written out. -/
theorem lines_source {ls : List ScriptLine} (hwritable : ∀ l ∈ ls, l.IsWritable) :
    lines (ScriptLine.source ls).toList = ls.map ScriptLine.text := by
  rw [ScriptLine.source, String.toList_ofList]
  rcases eq_or_ne ls [] with rfl | hne
  · rfl
  -- a line ends with a parenthesis, so nothing is dropped at its end
  · have hpieces : (['\n'].intercalate (ls.map ScriptLine.text)).splitOn '\n' =
        ls.map ScriptLine.text :=
      List.splitOn_intercalate '\n'
        (List.forall_mem_map.mpr fun l hl => newline_notMem_text (hwritable l hl)) (by simp [hne])
    have hlast : (ls.map ScriptLine.text).getLast? ≠ some [] := by
      intro h
      obtain ⟨l, -, hempty⟩ := List.mem_map.mp (List.mem_of_getLast? h)
      obtain ⟨d, s, htext, -⟩ := exists_line l
      rw [htext] at hempty
      exact absurd hempty (List.cons_ne_nil _ _)
    have hline (l : ScriptLine) :
        (if l.text.getLast? = some '\r' then l.text.dropLast else l.text) = l.text := by
      obtain ⟨d, s, htext, -⟩ := exists_line l
      rw [htext, List.getLast?_concat, if_neg (by decide)]
    simp only [lines, hpieces, if_neg hlast]
    rw [List.map_map]
    exact List.map_congr_left fun l _ => hline l

/-- A source that is written out is carried out line by line. -/
theorem interpret_source {ls : List ScriptLine} (hwritable : ∀ l ∈ ls, l.IsWritable)
    (ctx : RequestContext) :
    interpret (ScriptLine.source ls) ctx = ls.filterMap fun l => interpretLine l.text ctx := by
  rw [interpret, lines_source hwritable, List.filterMap_map]
  rfl

/-- A condition holds only for a string of its length. -/
theorem length_read_of_holds {g : ScriptGuard} {ctx : RequestContext} (h : g.holds ctx = true) :
    (g.field.read ctx).toList.length = g.value.toList.length := by
  obtain ⟨f, value⟩ := g
  cases f with
  | path => exact congrArg (·.toList.length) (of_decide_eq_true h)
  | method =>
      have hlower := congrArg (·.toList.length) (of_decide_eq_true h)
      simpa [Text.toAsciiLowercase, ConditionField.read] using hlower
  | ip => exact congrArg (·.toList.length) (of_decide_eq_true h)

/-- A condition holds for its own string. -/
theorem holds_context (g : ScriptGuard) (rest : String) :
    g.holds (g.field.context g.value rest) = true := by
  obtain ⟨f, value⟩ := g
  cases f <;> exact decide_eq_true rfl

/-- What the condition looks at. -/
theorem read_context (f : ConditionField) (s rest : String) : f.read (f.context s rest) = s := by
  cases f <;> rfl

/-- What another condition looks at. -/
theorem read_context_of_ne {f f' : ConditionField} (h : f' ≠ f) (s rest : String) :
    f'.read (f.context s rest) = rest := by
  cases f <;> cases f' <;> first | rfl | exact absurd rfl h

/-- Fewer elements are left if fewer are kept. -/
theorem length_filterMap_le {α β : Type*} {f g : α → Option β} {l : List α}
    (h : ∀ a ∈ l, (f a).isSome → (g a).isSome) :
    (l.filterMap f).length ≤ (l.filterMap g).length := by
  induction l with
  | nil => exact le_rfl
  | cons a l ih =>
      have hrest := ih fun b hb => h b (List.mem_cons_of_mem a hb)
      have hhead := h a List.mem_cons_self
      cases hf : f a with
      | none =>
          rw [List.filterMap_cons_none hf]
          exact hrest.trans ((List.sublist_cons_self a l).filterMap g).length_le
      | some b =>
          obtain ⟨c, hg⟩ := Option.isSome_iff_exists.mp (hhead (by simp [hf]))
          rw [List.filterMap_cons_some hf, List.filterMap_cons_some hg]
          exact Nat.succ_le_succ hrest

/-- If what is kept of a list is the same and one keeps no more than the other, they agree. -/
theorem eq_of_filterMap_eq {α β : Type*} {f g : α → Option β} {l : List α}
    (hsome : ∀ a ∈ l, (f a).isSome → (g a).isSome) (h : l.filterMap f = l.filterMap g) :
    ∀ a ∈ l, f a = g a := by
  induction l with
  | nil => simp
  | cons a l ih =>
      have hsome' : ∀ b ∈ l, (f b).isSome → (g b).isSome := fun b hb =>
        hsome b (List.mem_cons_of_mem a hb)
      have hlength := length_filterMap_le hsome'
      have hhead : f a = g a ∧ l.filterMap f = l.filterMap g := by
        -- an element that only one of them keeps makes its list longer
        cases hf : f a with
        | none =>
            cases hg : g a with
            | none => exact ⟨rfl, by rwa [List.filterMap_cons_none hf,
                List.filterMap_cons_none hg] at h⟩
            | some c =>
                rw [List.filterMap_cons_none hf, List.filterMap_cons_some hg] at h
                rw [h] at hlength
                exact absurd hlength (Nat.not_succ_le_self _)
        | some b =>
            obtain ⟨c, hg⟩ := Option.isSome_iff_exists.mp
              (hsome a List.mem_cons_self (by simp [hf]))
            rw [List.filterMap_cons_some hf, List.filterMap_cons_some hg] at h
            obtain ⟨rfl, hrest⟩ := List.cons.inj h
            exact ⟨hg.symm, hrest⟩
      exact List.forall_mem_cons.mpr ⟨hhead.1, ih hsome' hhead.2⟩

/-- A line is expected exactly if its condition holds. -/
theorem isSome_expected {l : ScriptLine} {ctx : RequestContext} :
    (l.expected ctx).isSome = true ↔ ∀ g ∈ l.guard, g.holds ctx = true := by
  unfold ScriptLine.expected
  cases l.guard <;> simp

/-- With a plain condition what is carried out is expected, and the other way round. -/
theorem isSome_interpretLine {l : ScriptLine} (hwritable : l.IsWritable)
    (hplain : ∀ g ∈ l.guard, g.IsPlain) {ctx : RequestContext} :
    (interpretLine l.text ctx).isSome = true ↔ (l.expected ctx).isSome = true := by
  rw [interpretLine_text hwritable hplain, ScriptLine.expected]
  split <;> rfl

/-- There are finitely many conditions. -/
theorem finite_guards (ls : List ScriptLine) : {g | ∃ l ∈ ls, l.guard = some g}.Finite :=
  (List.finite_toSet (ls.filterMap (·.guard))).subset fun _ ⟨l, hl, hg⟩ =>
    List.mem_filterMap.mpr ⟨l, hl, hg⟩

/-- Some string is longer than those of all conditions. -/
theorem exists_longer (ls : List ScriptLine) :
    ∃ rest : String, ∀ l ∈ ls, ∀ g, l.guard = some g →
      g.value.toList.length < rest.toList.length := by
  have : Nonempty ScriptGuard := ⟨⟨.path, ""⟩⟩
  obtain ⟨longest, hlongest⟩ := Set.exists_upper_bound_image _
    (fun g : ScriptGuard => g.value.toList.length) (finite_guards ls)
  refine ⟨String.ofList ('a' :: longest.value.toList), fun l hl g hg => ?_⟩
  rw [String.toList_ofList, List.length_cons]
  exact Nat.lt_succ_of_le (hlongest g ⟨l, hl, hg⟩)

/-- A line whose condition is not plain is not carried out for a request in which all strings are
as long as that of the condition. -/
theorem not_isSome_interpretLine {l : ScriptLine} {g : ScriptGuard} (hg : l.guard = some g)
    (hplain : ¬ g.IsPlain) {f : ConditionField} {s rest : String}
    (hs : g.field = f → g.value.toList.length ≤ s.toList.length)
    (hrest : g.value.toList.length < rest.toList.length) :
    ¬ (interpretLine l.text (f.context s rest)).isSome = true := by
  intro hinterpreted
  obtain ⟨v, hlength, hholds⟩ := exists_shorter hg hplain hinterpreted
  have hv := length_read_of_holds hholds
  dsimp only at hv
  by_cases hfield : g.field = f
  · have hle := hs hfield
    rw [hfield, read_context] at hv
    omega
  · rw [read_context_of_ne hfield] at hv
    omega

/-- A script that is carried out as written has plain conditions. -/
theorem isPlain_of_interpret {ls : List ScriptLine} (hwritable : ∀ l ∈ ls, l.IsWritable)
    (h : ∀ ctx, interpret (ScriptLine.source ls) ctx = ls.filterMap (·.expected ctx)) :
    ∀ l ∈ ls, ∀ g ∈ l.guard, g.IsPlain := by
  by_contra hbad
  push Not at hbad
  obtain ⟨l₀, hl₀, g₀, hg₀, hbad₀⟩ := hbad
  obtain ⟨rest, hrest⟩ := exists_longer ls
  -- the request has the string of a longest condition that is not plain
  obtain ⟨g, ⟨⟨l, hl, hg⟩, hbad⟩, hmax⟩ := Set.exists_max_image
    {g | (∃ l ∈ ls, l.guard = some g) ∧ ¬ g.IsPlain} (fun g => g.value.toList.length)
    ((finite_guards ls).subset fun g hg => hg.1) ⟨g₀, ⟨l₀, hl₀, hg₀⟩, hbad₀⟩
  have hnone {l' : ScriptLine} (hl' : l' ∈ ls) {g' : ScriptGuard} (hg' : l'.guard = some g')
      (hbad' : ¬ g'.IsPlain) :
      ¬ (interpretLine l'.text (g.field.context g.value rest)).isSome = true :=
    not_isSome_interpretLine hg' hbad' (fun _ => hmax g' ⟨⟨l', hl', hg'⟩, hbad'⟩)
      (hrest l' hl' g' hg')
  have hsome : ∀ l' ∈ ls, (interpretLine l'.text (g.field.context g.value rest)).isSome →
      (l'.expected (g.field.context g.value rest)).isSome := by
    intro l' hl' hinterpreted
    rwa [← isSome_interpretLine (hwritable l' hl') fun g' hg' =>
      not_not.mp fun hbad' => hnone hl' hg' hbad' hinterpreted]
  have hline := eq_of_filterMap_eq hsome (by rw [← interpret_source hwritable, h]) l hl
  have hexpected : (l.expected (g.field.context g.value rest)).isSome = true := by
    rw [isSome_expected, hg]
    intro g' hg'
    obtain rfl := Option.some.inj hg'
    exact holds_context g rest
  exact hnone hl hg hbad (by rw [hline, hexpected])

/-- The strings of an action that is not changed. -/
theorem actionWith_eq_action_iff {f : String → String} {c : ScriptCommand} :
    c.actionWith f = c.action ↔ ∀ s ∈ c.strings, f s = s := by
  cases c <;> simp [ScriptCommand.actionWith, ScriptCommand.action, ScriptCommand.strings]

/-- A script is carried out as it is written for every request exactly if no string of a command has
white space around it and no string of a condition contains `then` or `==`. -/
theorem interpret_iff {ls : List ScriptLine} (hwritable : ∀ l ∈ ls, l.IsWritable) :
    (∀ ctx, interpret (ScriptLine.source ls) ctx = ls.filterMap (·.expected ctx)) ↔
      ∀ l ∈ ls, l.IsFaithful := by
  refine ⟨fun h l hl => ?_, fun h ctx => ?_⟩
  · have hplain := isPlain_of_interpret hwritable h
    refine ⟨?_, hplain l hl⟩
    obtain ⟨ctx, hctx⟩ : ∃ ctx, l.guard.all (·.holds ctx) = true := by
      cases l.guard with
      | none => exact ⟨⟨"", "", ""⟩, rfl⟩
      | some g => exact ⟨_, holds_context g ""⟩
    have hsome : ∀ l ∈ ls, (interpretLine l.text ctx).isSome → (l.expected ctx).isSome :=
      fun l hl => (isSome_interpretLine (hwritable l hl) (hplain l hl)).mp
    have hline := eq_of_filterMap_eq hsome (by rw [← interpret_source hwritable, h]) l hl
    rw [interpretLine_text (hwritable l hl) (hplain l hl), ScriptLine.expected, if_pos hctx,
      if_pos hctx] at hline
    exact actionWith_eq_action_iff.mp (Option.some.inj hline)
  · rw [interpret_source hwritable]
    refine List.filterMap_congr fun l hl => ?_
    rw [interpretLine_text (hwritable l hl) (h l hl).guard,
      actionWith_eq_action_iff.mpr (h l hl).strings]
    rfl

/-- A script that is carried out as it is written. -/
theorem interpret_blocklist :
    let ls : List ScriptLine :=
      [⟨some ⟨.path, "/admin (old)"⟩, .reject 451 "no, then (\"never\")"⟩, ⟨none, .log ""⟩]
    (∀ l ∈ ls, l.IsWritable) ∧
      ∀ ctx, interpret (ScriptLine.source ls) ctx = ls.filterMap (·.expected ctx) := by
  intro ls
  have hwritable : ∀ l ∈ ls, l.IsWritable :=
    List.forall_mem_cons.mpr ⟨⟨by decide, by decide⟩,
      List.forall_mem_singleton.mpr ⟨by decide, by decide⟩⟩
  have hfaithful : ∀ l ∈ ls, l.IsFaithful :=
    List.forall_mem_cons.mpr ⟨⟨by decide, fun g hg => by
      obtain rfl := Option.some.inj hg
      exact ⟨by decide, by decide⟩⟩,
      List.forall_mem_singleton.mpr ⟨by decide, fun g hg => by cases hg⟩⟩
  exact ⟨hwritable, (interpret_iff hwritable).mpr hfaithful⟩

/-- Blanks around a string are lost. -/
theorem interpret_fails :
    ¬ ∀ ls : List ScriptLine, (∀ l ∈ ls, l.IsWritable) →
      ∀ ctx, interpret (ScriptLine.source ls) ctx = ls.filterMap (·.expected ctx) := by
  intro h
  have hlog := h [⟨none, .log " slow"⟩]
    (List.forall_mem_singleton.mpr ⟨by decide, by decide⟩) ⟨"GET", "/", "127.0.0.1"⟩
  revert hlog
  decide

end LuaEngine

end XiraNet

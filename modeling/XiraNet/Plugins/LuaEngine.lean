import XiraNet.Lib.Patterns
import XiraNet.Lib.Text

/-!
# The script language

`LuaEngine::interpret` of `plugins/lua_engine.rs`: one command a line, each with a condition or
without one. The functions work on the characters of the source.

* `LuaEngine.parseArgsFrom_quote`: a quoted argument is read as it was written.
-/

namespace XiraNet

/-- `RequestContext`, without the headers, which no condition looks at. -/
structure RequestContext where
  method : String
  path : String
  ip : String
  deriving DecidableEq, Repr

/-- `LuaAction`, without `Continue`, which stands for no action. -/
inductive LuaAction
  | reject (status : ℕ) (body : String)
  | modifyHeader (name value : String)
  | addHeader (name value : String)
  | log (message : String)
  deriving DecidableEq, Repr

namespace LuaEngine

/-- `s.trim()`. -/
def trim (s : List Char) : List Char := (s.dropWhile Text.isWhitespace).rdropWhile Text.isWhitespace

/-- `s.lines()`. -/
def lines (s : List Char) : List (List Char) :=
  let pieces := s.splitOn '\n'
  -- A line break at the end starts no line.
  let pieces := if pieces.getLast? = some [] then pieces.dropLast else pieces
  pieces.map fun line => if line.getLast? = some '\r' then line.dropLast else line

/-- `s.trim_matches('"')`. -/
def trimQuotes (s : List Char) : List Char := (s.dropWhile (· = '"')).rdropWhile (· = '"')

/-- `check_condition`. -/
def checkCondition (cond : List Char) (ctx : RequestContext) : Bool :=
  match (Pattern.split ['=', '='] cond).map trim with
  | [field, value] =>
      match value with
      | '"' :: _ =>
          let target := String.ofList (trimQuotes value)
          if field = "path".toList then ctx.path = target
          else if field = "method".toList then Text.eqIgnoreAsciiCase ctx.method target
          else if field = "ip".toList then ctx.ip = target
          else false
      | _ => false
  | _ => false

/-- `split_call`. -/
def splitCall (s : List Char) : Option (List Char × List Char) :=
  -- The first opening parenthesis and the last closing one.
  (s.findIdx? (· = '(')).bind fun opening =>
    (s.reverse.findIdx? (· = ')')).bind fun fromEnd =>
      let closing := s.length - 1 - fromEnd
      if closing ≤ opening then none
      else some (trim (s.take opening), (s.take closing).drop (opening + 1))

/-- The loop of `parse_args`. -/
def parseArgsFrom (out : List String) (current : List Char) (inStr escape : Bool) :
    List Char → List String
  | [] => if current.isEmpty then out else out ++ [String.ofList (trim current)]
  | c :: s =>
      if escape then parseArgsFrom out (current ++ [c]) inStr false s
      else if c = '\\' && inStr then parseArgsFrom out current inStr true s
      -- Quotes are left out, so what stood in them is not known any more.
      else if c = '"' then parseArgsFrom out current (!inStr) false s
      else if c = ',' && !inStr then
        parseArgsFrom (out ++ [String.ofList (trim current)]) [] inStr false s
      else parseArgsFrom out (current ++ [c]) inStr false s

/-- `parse_args`. -/
def parseArgs (s : List Char) : List String := parseArgsFrom [] [] false false s

/-- `parse_statement`. -/
def parseStatement (stmt : List Char) : Option LuaAction :=
  (splitCall stmt).bind fun (head, argsStr) =>
    let args := parseArgs argsStr
    if head = "reject".toList then
      -- A status that is not read counts as 403.
      args[0]?.map fun status =>
        .reject ((Text.parseUnsigned (2 ^ 16 - 1) status.toList).getD 403)
          (args[1]?.getD "blocked")
    else if head = "add_header".toList then
      args[0]?.bind fun name => args[1]?.map fun value => .addHeader name value
    else if head = "modify_header".toList then
      args[0]?.bind fun name => args[1]?.map fun value => .modifyHeader name value
    else if head = "log".toList then some (.log (args[0]?.getD ""))
    else none

/-- What is left of a line to be carried out. -/
def executable (line : List Char) (ctx : RequestContext) : Option (List Char) :=
  if "if ".toList.isPrefixOf line then
    -- The first `then` ends the condition, in quotes or not.
    match Pattern.splitOnce "then".toList (line.drop 3) with
    | some (cond, thenPart) =>
        if checkCondition (trim cond) ctx then some (trim thenPart) else none
    | none => none
  else some line

/-- An iteration of the loop of `interpret`. -/
def interpretLine (rawLine : List Char) (ctx : RequestContext) : Option LuaAction :=
  let line := trim rawLine
  if line.isEmpty || "--".toList.isPrefixOf line then none
  else (executable line ctx).bind parseStatement

/-- `interpret`. -/
def interpret (source : String) (ctx : RequestContext) : List LuaAction :=
  (lines source.toList).filterMap fun line => interpretLine line ctx

example : interpret "reject(403, \"no\")\n-- comment\nif path == \"/a\" then log(\"x\")"
    ⟨"GET", "/a", "127.0.0.1"⟩ = [.reject 403 "no", .log "x"] := by decide

/-- Escape a string. -/
def escape (s : List Char) : List Char :=
  s.flatMap fun c => if c = '"' ∨ c = '\\' then ['\\', c] else [c]

/-- A quoted argument. -/
def quote (s : String) : List Char := '"' :: escape s.toList ++ ['"']

/-- Inside quotes an escaped string is read as it was. -/
theorem parseArgsFrom_escape (out : List String) (current s rest : List Char) :
    parseArgsFrom out current true false (escape s ++ rest) =
      parseArgsFrom out (current ++ s) true false rest := by
  induction s generalizing current with
  | nil => simp [escape]
  | cons c s ih =>
      have hc : parseArgsFrom out current true false
          ((if c = '"' ∨ c = '\\' then ['\\', c] else [c]) ++ (escape s ++ rest)) =
          parseArgsFrom out (current ++ [c]) true false (escape s ++ rest) := by
        split
        next => simp [parseArgsFrom]
        next hplain =>
          rw [not_or] at hplain
          simp [parseArgsFrom, hplain.1, hplain.2]
      rw [show escape (c :: s) = (if c = '"' ∨ c = '\\' then ['\\', c] else [c]) ++ escape s from
        rfl, List.append_assoc, hc, ih, List.append_assoc, List.singleton_append]

/-- A quoted argument is read as it was written. -/
theorem parseArgsFrom_quote (out : List String) (current rest : List Char) (s : String) :
    parseArgsFrom out current false false (quote s ++ rest) =
      parseArgsFrom out (current ++ s.toList) false false rest := by
  have hopen : parseArgsFrom out current false false (quote s ++ rest) =
      parseArgsFrom out current true false (escape s.toList ++ '"' :: rest) := by
    simp [quote, parseArgsFrom]
  rw [hopen, parseArgsFrom_escape]
  simp [parseArgsFrom]

end LuaEngine

end XiraNet

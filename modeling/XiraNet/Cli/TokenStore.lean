import Mathlib.Logic.Function.Basic
import XiraNet.Lib.Bytes
import XiraNet.Lib.Text

/-!
# Session file of the command line

`cli/token_store.rs`: the session token and the gateway are written to a file of lines, without
escapes, and are read back line by line. `none` stands for a panic where the result has a value
otherwise.

* `TokenStore.load_save_iff`: what was saved is loaded exactly if neither string has a quotation
  mark or a line feed, and no content of the file makes `load` panic.
* `TokenStore.load_save_fails`: a gateway with a quotation mark.
-/

namespace XiraNet

/-- The environment variables, where they are set to text. -/
structure CliEnv where
  xdgConfigHome : Option String
  home : Option String
  deriving DecidableEq, Repr

/-- The files, by their paths. -/
abbrev Disk := String → Option (List UInt8)

/-- What the system calls of `save` return. -/
structure SaveOutcome where
  createDir : Except String Unit
  openFile : Except String Unit
  /-- An error comes with the number of bytes that were written before it. -/
  writeAll : Except (String × ℕ) Unit

namespace TokenStore

/-- `PathBuf::join` of a relative path. -/
def join (path component : String) : String :=
  if path = "" || Text.endsWith path "/" then path ++ component else path ++ "/" ++ component

/-- `config_dir`. -/
def configDir (env : CliEnv) : Option String :=
  match env.xdgConfigHome.filter (· ≠ "") with
  | some p => some (join p "xira")
  | none => env.home.map fun home => join (join home ".config") "xira"

/-- `session_file`. -/
def sessionFile (env : CliEnv) : Option String := (configDir env).map (join · "session")

/-- The first line of the file. -/
def header : String := "# xiraNET CLI session — auto-managed, do not edit by hand"

/-- What `save` writes. -/
def content (token gateway : String) : String :=
  header ++ "\ntoken = \"" ++ token ++ "\"\ngateway = \"" ++ gateway ++ "\"\n"

/-- `save`. -/
def save (env : CliEnv) (outcome : SaveOutcome) (disk : Disk) (token gateway : String) :
    Except String String × Disk :=
  match configDir env with
  | none => (.error "HOME / XDG_CONFIG_HOME not set", disk)
  | some parent =>
      let path := join parent "session"
      match outcome.createDir with
      | .error e => (.error ("mkdir " ++ parent ++ ": " ++ e), disk)
      | .ok () =>
          match outcome.openFile with
          | .error e => (.error ("open " ++ path ++ ": " ++ e), disk)
          | .ok () =>
              -- The file is truncated when it is opened.
              let bytes := Utf8.encode (content token gateway)
              match outcome.writeAll with
              | .error (e, n) =>
                  (.error ("write: " ++ e), Function.update disk path (some (bytes.take n)))
              | .ok () => (.ok path, Function.update disk path (some bytes))

/-- `parse_quoted`. -/
def parseQuoted (s : String) : Option (Option String) :=
  match Text.stripPrefix (Text.trimStart s) "=" with
  | none => some none
  | some s =>
      match Text.stripPrefix (Text.trimStart s) "\"" with
      | none => some none
      | some s =>
          match Text.find s.toList '"' with
          | none => some none
          | some stop => (Text.sliceTo stop s.toList).map fun s => some (String.ofList s)

/-- One line of `load`, with the token and the gateway found so far. -/
def readLine (found : Option String × Option String) (line : String) :
    Option (Option String × Option String) :=
  let l := Text.trim line
  if Text.startsWith l "#" || l = "" then some found
  else
    match Text.stripPrefix l "token" with
    | some rest => (parseQuoted rest).map fun token => (token, found.2)
    | none =>
        match Text.stripPrefix l "gateway" with
        | some rest => (parseQuoted rest).map fun gateway => (found.1, gateway)
        | none => some found

/-- What `load` makes of the text in the file. -/
def parse (text : String) : Option (Option (String × String)) :=
  ((Text.lines text).foldlM readLine (none, none)).map fun found =>
    match found with
    | (some token, some gateway) => some (token, gateway)
    | _ => none

/-- `load`. -/
def load (env : CliEnv) (disk : Disk) : Option (Option (String × String)) :=
  match sessionFile env with
  | none => some none
  | some path =>
      match (disk path).bind Utf8.decode with
      | none => some none
      | some text => parse text

/-- A string that may stand in quotation marks as it is. -/
def IsPlain (s : String) : Prop := '"' ∉ s.toList ∧ '\n' ∉ s.toList

instance (s : String) : Decidable (IsPlain s) := inferInstanceAs (Decidable (_ ∧ _))

/-- What is read between quotation marks is a part of the line without one. -/
theorem parseQuoted_eq (s : String) :
    parseQuoted s = some none ∨
      ∃ v : String, parseQuoted s = some (some v) ∧ '"' ∉ v.toList ∧ v.toList <:+: s.toList := by
  unfold parseQuoted
  split
  next => exact .inl rfl
  next s₁ hs₁ =>
    split
    next => exact .inl rfl
    next s₂ hs₂ =>
      split
      next => exact .inl rfl
      next stop hstop =>
        refine .inr ⟨String.ofList (s₂.toList.takeWhile (· ≠ '"')), ?_, ?_, ?_⟩
        · rw [Text.sliceTo_find hstop, Option.map_some]
        · rw [String.toList_ofList]
          exact fun hmem => by simpa using List.mem_takeWhile_imp hmem
        · rw [String.toList_ofList]
          have hsuffix := (Text.suffix_of_stripPrefix hs₂).trans
            ((Text.trimStart_suffix s₁).trans
              ((Text.suffix_of_stripPrefix hs₁).trans (Text.trimStart_suffix s)))
          exact (List.takeWhile_prefix _).isInfix.trans hsuffix.isInfix

/-- A string without a quotation mark is read as it was written. -/
theorem parseQuoted_quoted {v : String} (h : '"' ∉ v.toList) :
    parseQuoted (" = \"" ++ v ++ "\"") = some (some v) := by
  have hequals : Text.trimStart (" = \"" ++ v ++ "\"") = "=" ++ (" \"" ++ v ++ "\"") := by
    apply String.toList_inj.mp
    simp [Text.trimStart, Text.isWhitespace]
  have hquote : Text.trimStart (" \"" ++ v ++ "\"") = "\"" ++ (v ++ "\"") := by
    apply String.toList_inj.mp
    simp [Text.trimStart, Text.isWhitespace]
  have htake : (v ++ "\"").toList.takeWhile (· ≠ '"') = v.toList := by
    have hall : ∀ x ∈ v.toList, decide (x ≠ '"') = true :=
      fun x hx => decide_eq_true fun heq => h (heq ▸ hx)
    rw [String.toList_append, List.takeWhile_append_of_pos hall]
    simp
  have hstop : Text.find (v ++ "\"").toList '"' = some (Text.byteLength v.toList) := by
    rw [Text.find, if_pos (by simp), htake]
  unfold parseQuoted
  rw [hequals, Text.stripPrefix_append]
  dsimp only
  rw [hquote, Text.stripPrefix_append]
  dsimp only
  rw [hstop]
  dsimp only
  rw [Text.sliceTo_find hstop, htake, Option.map_some, String.ofList_toList]

/-- Whatever was found before, a line is read, and what is found in it is plain. -/
theorem exists_readLine {found : Option String × Option String}
    (hfound : (∀ t ∈ found.1, IsPlain t) ∧ ∀ g ∈ found.2, IsPlain g) {line : String}
    (hline : '\n' ∉ line.toList) :
    ∃ found', readLine found line = some found' ∧
      (∀ t ∈ found'.1, IsPlain t) ∧ ∀ g ∈ found'.2, IsPlain g := by
  -- What stands between quotation marks in the line is plain.
  have hparse : ∀ rest prefix' : String, Text.stripPrefix (Text.trim line) prefix' = some rest →
      ∃ v, parseQuoted rest = some v ∧ ∀ t ∈ v, IsPlain t := by
    intro rest prefix' hrest
    rcases parseQuoted_eq rest with hnone | ⟨v, hv, hquote, hpart⟩
    · exact ⟨none, hnone, by simp⟩
    · refine ⟨some v, hv, ?_⟩
      rintro _ ⟨⟩
      refine ⟨hquote, fun hmem => hline ?_⟩
      have htrim : (Text.trim line).toList <:+: line.toList := by
        rw [Text.trim, String.toList_ofList]
        exact (List.rdropWhile_prefix _ _).isInfix.trans (List.dropWhile_suffix _).isInfix
      exact htrim.subset ((Text.suffix_of_stripPrefix hrest).subset (hpart.subset hmem))
  unfold readLine
  dsimp only
  split
  -- A comment or an empty line.
  next => exact ⟨found, rfl, hfound⟩
  next =>
    split
    next rest hrest =>
      obtain ⟨v, hv, hplain⟩ := hparse rest _ hrest
      exact ⟨(v, found.2), by rw [hv, Option.map_some], hplain, hfound.2⟩
    next =>
      split
      next rest hrest =>
        obtain ⟨v, hv, hplain⟩ := hparse rest _ hrest
        exact ⟨(found.1, v), by rw [hv, Option.map_some], hfound.1, hplain⟩
      next => exact ⟨found, rfl, hfound⟩

/-- The lines are read one after the other, and what is found in them is plain. -/
theorem exists_readLines (ls : List String) (found : Option String × Option String)
    (hfound : (∀ t ∈ found.1, IsPlain t) ∧ ∀ g ∈ found.2, IsPlain g)
    (hls : ∀ l ∈ ls, '\n' ∉ l.toList) :
    ∃ found', ls.foldlM readLine found = some found' ∧
      (∀ t ∈ found'.1, IsPlain t) ∧ ∀ g ∈ found'.2, IsPlain g := by
  induction ls generalizing found with
  | nil => exact ⟨found, rfl, hfound⟩
  | cons l ls ih =>
      obtain ⟨found', hread, hfound'⟩ := exists_readLine hfound (hls l List.mem_cons_self)
      obtain ⟨found'', hrest, hfound''⟩ :=
        ih found' hfound' fun l hl => hls l (List.mem_cons_of_mem _ hl)
      refine ⟨found'', ?_, hfound''⟩
      rw [List.foldlM_cons, hread]
      exact hrest

/-- Every text is read without a panic, and what is found in it is plain. -/
theorem exists_parse (text : String) :
    ∃ session, parse text = some session ∧
      ∀ token gateway, session = some (token, gateway) → IsPlain token ∧ IsPlain gateway := by
  obtain ⟨⟨token, gateway⟩, hfound, htoken, hgateway⟩ :=
    exists_readLines (Text.lines text) (none, none) ⟨by simp, by simp⟩
      fun _ hl => Text.not_mem_of_mem_lines hl
  rw [parse, hfound, Option.map_some]
  refine ⟨_, rfl, fun t g h => ?_⟩
  cases token with
  | none => cases h
  | some token =>
      cases gateway with
      | none => cases h
      | some gateway =>
          cases h
          exact ⟨htoken t rfl, hgateway g rfl⟩

/-- `load` never panics. -/
theorem isSome_load (env : CliEnv) (disk : Disk) : (load env disk).isSome = true := by
  unfold load
  split
  next => rfl
  next =>
    split
    next => rfl
    next text _ =>
      obtain ⟨session, hsession, -⟩ := exists_parse text
      rw [hsession]
      rfl

/-- A line with a value in quotation marks. -/
def line (name value : String) : String := name ++ (" = \"" ++ value ++ "\"")

/-- The characters of such a line. -/
theorem toList_line (name value : String) :
    (line name value).toList = name.toList ++ " = \"".toList ++ value.toList ++ ['"'] := by
  simp [line]

/-- The lines of what is saved. -/
theorem lines_content {token gateway : String} (htoken : '\n' ∉ token.toList)
    (hgateway : '\n' ∉ gateway.toList) :
    Text.lines (content token gateway) =
      [header, line "token" token, line "gateway" gateway] := by
  have hcontent : content token gateway =
      header ++ ("\n" ++ (line "token" token ++ ("\n" ++ (line "gateway" gateway ++
        ("\n" ++ ""))))) := by
    apply String.toList_inj.mp
    simp [content, line]
  have hline : ∀ {name value : String}, '\n' ∉ name.toList → '\n' ∉ value.toList →
      '\n' ∉ (line name value).toList := by
    intro name value hname hvalue
    rw [toList_line]
    simp [hname, hvalue]
  -- Nothing is stripped at the end of a line, which is a quotation mark.
  have hlast : ∀ name value : String, (line name value).toList.getLast? ≠ some '\r' := by
    intro name value
    rw [toList_line, List.getLast?_concat]
    decide
  rw [hcontent, Text.lines_append (by decide) (by decide),
    Text.lines_append (hline (by decide) htoken) (hlast _ _),
    Text.lines_append (hline (by decide) hgateway) (hlast _ _)]
  rfl

/-- A line with a value in quotation marks has nothing to trim. -/
theorem trim_line {name : String} {c : Char} {rest : List Char} (hname : name.toList = c :: rest)
    (hc : Text.isWhitespace c = false) (value : String) :
    Text.trim (line name value) = line name value := by
  have hlist : line name value =
      String.ofList (c :: ((rest ++ " = \"".toList ++ value.toList) ++ ['"'])) := by
    apply String.toList_inj.mp
    rw [toList_line, hname, String.toList_ofList]
    simp
  rw [hlist]
  exact Text.trim_between hc (by decide) _

/-- The line of the token. -/
theorem readLine_token (found : Option String × Option String) {token : String}
    (h : '"' ∉ token.toList) :
    readLine found (line "token" token) = some (some token, found.2) := by
  have hkeep : ¬(Text.startsWith (line "token" token) "#" || line "token" token = "") = true := by
    simp [Text.startsWith, line]
  unfold readLine
  dsimp only
  rw [trim_line rfl (by decide), if_neg hkeep, line, Text.stripPrefix_append]
  dsimp only
  rw [parseQuoted_quoted h, Option.map_some]

/-- The line of the gateway. -/
theorem readLine_gateway (found : Option String × Option String) {gateway : String}
    (h : '"' ∉ gateway.toList) :
    readLine found (line "gateway" gateway) = some (found.1, some gateway) := by
  have hkeep :
      ¬(Text.startsWith (line "gateway" gateway) "#" || line "gateway" gateway = "") = true := by
    simp [Text.startsWith, line]
  have htoken : Text.stripPrefix (line "gateway" gateway) "token" = none := by
    simp [Text.stripPrefix, Text.startsWith, line]
  unfold readLine
  dsimp only
  rw [trim_line rfl (by decide), if_neg hkeep, htoken]
  dsimp only
  rw [line, Text.stripPrefix_append]
  dsimp only
  rw [parseQuoted_quoted h, Option.map_some]

/-- What is saved is found if it is plain. -/
theorem parse_content {token gateway : String} (htoken : IsPlain token)
    (hgateway : IsPlain gateway) :
    parse (content token gateway) = some (some (token, gateway)) := by
  have hheader : readLine (none, none) header = some (none, none) := by
    unfold readLine
    exact if_pos (by decide)
  have hloop : [header, line "token" token, line "gateway" gateway].foldlM readLine (none, none) =
      some (some token, some gateway) := by
    rw [List.foldlM_cons, hheader, Option.bind_eq_bind, Option.bind_some, List.foldlM_cons,
      readLine_token _ htoken.1, Option.bind_eq_bind, Option.bind_some, List.foldlM_cons,
      readLine_gateway _ hgateway.1, Option.bind_eq_bind, Option.bind_some, List.foldlM_nil]
    rfl
  rw [parse, lines_content htoken.2 hgateway.2, hloop, Option.map_some]

/-- What a save that returns `Ok` leaves in the file. -/
theorem load_of_save {env : CliEnv} {outcome : SaveOutcome} {disk disk' : Disk}
    {token gateway path : String} (h : save env outcome disk token gateway = (.ok path, disk')) :
    load env disk' = parse (content token gateway) := by
  unfold save at h
  split at h
  next => cases h
  next parent hparent =>
    dsimp only at h
    split at h
    next => cases h
    next =>
      split at h
      next => cases h
      next =>
        split at h
        next => cases h
        next =>
          cases h
          unfold load sessionFile
          rw [hparent, Option.map_some]
          dsimp only
          rw [Function.update_self, Option.bind_some, Utf8.decode_encode]

/-- What was saved is loaded exactly if both strings are plain, and whatever the files hold, `load`
does not panic. -/
theorem load_save_iff {env : CliEnv} {outcome : SaveOutcome} {disk disk' : Disk}
    {token gateway path : String} (h : save env outcome disk token gateway = (.ok path, disk')) :
    (load env disk' = some (some (token, gateway)) ↔ IsPlain token ∧ IsPlain gateway) ∧
      ∀ (env : CliEnv) (disk : Disk), (load env disk).isSome = true := by
  refine ⟨?_, isSome_load⟩
  rw [load_of_save h]
  constructor
  · -- What is found in a file is plain, and this was found.
    intro hparse
    obtain ⟨session, hsession, hplain⟩ := exists_parse (content token gateway)
    rw [hparse] at hsession
    exact hplain token gateway (Option.some.inj hsession).symm
  · rintro ⟨htoken, hgateway⟩
    exact parse_content htoken hgateway

/-- A home directory, and system calls that succeed. -/
def homeEnv : CliEnv := ⟨none, some "/home/ann"⟩

/-- System calls that succeed. -/
def allDone : SaveOutcome := ⟨.ok (), .ok (), .ok ()⟩

/-- The file of a token and a gateway is read back. -/
theorem load_save_localhost :
    load homeEnv (save homeEnv allDone (fun _ => none) "xira_tok_abcd" "http://localhost:9000").2 =
      some (some ("xira_tok_abcd", "http://localhost:9000")) :=
  (load_save_iff (rfl : save homeEnv allDone _ _ _ = (.ok _, _))).1.mpr (by decide)

/-- A gateway with a quotation mark is cut off at it. -/
theorem load_save_fails :
    ¬∀ (env : CliEnv) (outcome : SaveOutcome) (disk disk' : Disk) (token gateway path : String),
      save env outcome disk token gateway = (.ok path, disk') →
        load env disk' = some (some (token, gateway)) := by
  intro hall
  have hsave : save homeEnv allDone (fun _ => none) "xira_tok_abcd" "http://localhost\"" =
      (.ok _, _) := rfl
  have hloaded := hall _ _ _ _ _ _ _ hsave
  rw [load_of_save hsave] at hloaded
  obtain ⟨session, hsession, hplain⟩ := exists_parse (content "xira_tok_abcd" "http://localhost\"")
  rw [hloaded] at hsession
  exact absurd (hplain _ _ (Option.some.inj hsession).symm) (by decide)

end TokenStore

end XiraNet

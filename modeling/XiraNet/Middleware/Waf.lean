import XiraNet.Http

/-!
# Web application firewall

`Waf::inspect` of `middleware/waf.rs`. A compiled regular expression comes from the `regex` crate
and is known by what it matches; the built-in patterns are fields of the firewall, as in the
source. Metrics, log lines and the event bus are left out.
-/

namespace XiraNet

/-- A compiled regular expression, by the inputs it matches. -/
abbrev Regex := String → Bool

/-- A rule added at run time. -/
structure CustomRule where
  id : ℕ
  patternSrc : String
  pattern : Regex
  label : String
  createdAt : ℕ

/-- What happens to a request that matches. -/
inductive WafMode
  | block
  | detectOnly
  deriving DecidableEq, Repr

/-- The verdict on a request. -/
inductive WafVerdict
  | allow
  | block (reason rule : String)
  deriving DecidableEq, Repr

/-- What `inspect` reads of the firewall. -/
structure Waf where
  enabled : Bool
  sqlPatterns : List Regex
  xssPatterns : List Regex
  traversalPatterns : List Regex
  customPatterns : List CustomRule
  blockedIps : List String
  mode : WafMode

namespace Waf

/-- `percent_decode`, which protects no byte. -/
def percentDecode (s : String) : String := Percent.decodeString (fun _ => false) s

/-- The passes of `normalize_input` over percent escapes, until nothing changes. -/
def percentDecodePasses : ℕ → String → String
  | 0, current => current
  | n + 1, current =>
      let next := percentDecode current
      if next = current then current else percentDecodePasses n next

/-- `from_str_radix(_, 16)` of an unsigned type wide enough for the digits. -/
def fromStrRadix16 (digits : List Char) : Option ℕ :=
  let digits := match digits with
    | '+' :: rest => rest
    | digits => digits
  if digits = [] then none
  else digits.foldlM (fun n c =>
    if c.toNat < 128 then (Percent.hexValue (UInt8.ofNat c.toNat)).map (16 * n + ·) else none) 0

/-- The character that an escape at the head of the input stands for, and the number of
characters of the escape. -/
def escapeAt : List Char → Option (Char × ℕ)
  | '\\' :: 'u' :: a :: b :: c :: d :: _ =>
      (fromStrRadix16 [a, b, c, d]).bind fun code =>
        if code.isValidChar then some (Char.ofNat code, 6) else none
  | '\\' :: 'x' :: a :: b :: _ =>
      (fromStrRadix16 [a, b]).map fun code => (Char.ofNat code, 4)
  | _ => none

/-- The loop of `unicode_escape_decode`; `skip` characters belong to an escape already decoded. -/
def unicodeEscapeLoop : ℕ → List Char → List Char
  | _, [] => []
  | skip + 1, _ :: rest => unicodeEscapeLoop skip rest
  | 0, c :: rest =>
      match escapeAt (c :: rest) with
      | some (ch, len) => ch :: unicodeEscapeLoop (len - 1) rest
      | none => c :: unicodeEscapeLoop 0 rest

/-- `unicode_escape_decode`. -/
def unicodeEscapeDecode (s : String) : String := String.ofList (unicodeEscapeLoop 0 s.toList)

/-- `normalize_input`. -/
def normalizeInput (s : String) : String :=
  Text.toAsciiLowercase (unicodeEscapeDecode (percentDecodePasses 4 s))

/-- `is_structured_header`. -/
def isStructuredHeader (name : String) : Bool :=
  Text.toAsciiLowercase name ∈ ["authorization", "cookie", "set-cookie", "user-agent", "x-api-key",
    "x-session-token", "x-request-id", "x-trace-id", "x-forwarded-for", "x-real-ip", "etag",
    "if-none-match", "if-match", "date", "expires", "last-modified"]

/-- The characters that fit into a number of bytes. -/
def truncateChars : ℕ → List Char → List Char
  | _, [] => []
  | room, c :: rest => if c.utf8Size ≤ room then c :: truncateChars (room - c.utf8Size) rest else []

/-- `safe_truncate`. -/
def safeTruncate (s : String) (max : ℕ) : String := String.ofList (truncateChars max s.toList)

/-- The first input that one of the patterns matches. -/
def firstMatch (patterns : List Regex) (inputs : List String) : Option String :=
  inputs.find? fun input => patterns.any fun pattern => pattern input

/-- What a match leads to. -/
def verdict (waf : Waf) (reason rule : String) : WafVerdict :=
  match waf.mode with
  | .detectOnly => .allow
  | .block => .block reason rule

/-- The inputs that the patterns are matched against: path, query and body in normalized and in
raw form, and the normalized values of the free-text headers. -/
def inputs (path : String) (query : Option String) (body : String)
    (headers : List (String × String)) : List String :=
  -- The normalized forms come first, so they decide which input a verdict names.
  let raw := [path, query.getD "", body]
  raw.map normalizeInput ++ raw ++
    (headers.filter fun h => !isStructuredHeader h.1).map fun h => normalizeInput h.2

/-- The custom rules, in order, after the built-in patterns. -/
def inspectCustom (waf : Waf) (inputs : List String) : List CustomRule → WafVerdict
  | [] => .allow
  | rule :: rules =>
      match firstMatch [rule.pattern] inputs with
      | some input =>
          waf.verdict ("Custom rule '" ++ rule.label ++ "' matched: " ++ safeTruncate input 50 ++
            "...") rule.label
      | none => inspectCustom waf inputs rules

/-- `inspect`. -/
def inspect (waf : Waf) (path : String) (query : Option String) (body : String)
    (headers : List (String × String)) (ip : String) : WafVerdict :=
  if !waf.enabled then .allow
  -- A blocked address is refused in either mode.
  else if ip ∈ waf.blockedIps then .block ("Blocked IP: " ++ ip) "IP_BLOCK"
  else
    let all := inputs path query body headers
    match firstMatch waf.sqlPatterns all with
    | some input =>
        waf.verdict ("SQL injection detected in: " ++ safeTruncate input 50 ++ "...") "SQLI"
    | none =>
        match firstMatch waf.xssPatterns all with
        | some input => waf.verdict ("XSS detected in: " ++ safeTruncate input 50 ++ "...") "XSS"
        | none =>
            match firstMatch waf.traversalPatterns all with
            | some input =>
                waf.verdict ("Path traversal detected: " ++ safeTruncate input 50 ++ "...")
                  "TRAVERSAL"
            | none => inspectCustom waf all waf.customPatterns

end Waf

end XiraNet

import XiraNet.Lib.Bytes
import XiraNet.Lib.IpAddr
import XiraNet.Lib.Text

/-!
# Requests and responses

What the handlers and the middleware see of an HTTP request, and the JSON responses they answer
with themselves. Header names are in lower case, as the HTTP library stores them.
-/

namespace XiraNet

/-- A JSON value; a number by its literal, an object by its fields in order. -/
inductive Json
  | null
  | bool (b : Bool)
  | number (literal : String)
  | string (s : String)
  | array (items : List Json)
  | object (fields : List (String × Json))

/-- A character of a string in the JSON text that `serde_json` writes. -/
def Json.escapeChar (c : Char) : List Char :=
  if c = '"' then ['\\', '"']
  else if c = '\\' then ['\\', '\\']
  else if c = '\n' then ['\\', 'n']
  else if c = '\r' then ['\\', 'r']
  else if c = '\t' then ['\\', 't']
  else if c.toNat = 8 then ['\\', 'b']
  else if c.toNat = 12 then ['\\', 'f']
  else if c.toNat < 32 then
    ['\\', 'u', '0', '0', Nat.digitChar (c.toNat / 16), Nat.digitChar (c.toNat % 16)]
  else [c]

/-- A string in JSON text. -/
def Json.quote (s : String) : List Char := '"' :: s.toList.flatMap Json.escapeChar ++ ['"']

/-- `serde_json::to_vec` of an object of strings; the fields come in the order of their names. -/
def Json.textObject (fields : List (String × String)) : List UInt8 :=
  let items := fields.map fun f => Json.quote f.1 ++ ':' :: Json.quote f.2
  Utf8.encode (String.ofList ('{' :: [','].intercalate items ++ ['}']))

/-- A header value, which may be any bytes. -/
abbrev HeaderValue := List UInt8

/-- `HeaderValue::to_str`, which fails on bytes that are not visible ASCII. -/
def HeaderValue.toStr (v : HeaderValue) : Option String :=
  if v.all fun b => b = 9 || (32 ≤ b && b < 127) then
    some (String.ofList (v.map fun b => Char.ofNat b.toNat))
  else none

/-- White space around the elements of a list in a header. -/
def isOptionalSpace (b : UInt8) : Bool := b = 0x20 || b = 0x09

/-- The elements of a header whose value is a list. -/
def HeaderValue.elements (value : HeaderValue) : List HeaderValue :=
  (value.splitOn 0x2c).map fun element =>
    (element.dropWhile isOptionalSpace).rdropWhile isOptionalSpace

/-- The headers in iteration order; a name may occur several times. -/
abbrev HeaderMap := List (String × HeaderValue)

/-- The first value of a header. -/
def HeaderMap.get (headers : HeaderMap) (name : String) : Option HeaderValue :=
  List.lookup (Text.toAsciiLowercase name) headers

/-- Every value of a header. -/
def HeaderMap.values (headers : HeaderMap) (name : String) : List HeaderValue :=
  (headers.filter fun h => h.1 = name).map Prod.snd

/-- `HeaderMap::insert`, which replaces every value of the header. -/
def HeaderMap.insert (headers : HeaderMap) (name : String) (value : HeaderValue) : HeaderMap :=
  headers.filter (fun h => h.1 ≠ name) ++ [(name, value)]

/-- The values of a header after an insertion. -/
theorem HeaderMap.values_insert (headers : HeaderMap) (name name' : String) (value : HeaderValue) :
    (headers.insert name value).values name' =
      if name' = name then [value] else headers.values name' := by
  unfold HeaderMap.values HeaderMap.insert
  rw [List.filter_append, List.filter_filter]
  split
  next h =>
    subst h
    simp
  next h =>
    have hkept : (headers.filter fun p => decide (p.1 = name') && decide (p.1 ≠ name)) =
        headers.filter fun p => p.1 = name' := by
      apply List.filter_congr
      intro p _
      by_cases hp : p.1 = name'
      · simp [hp, h]
      · simp [hp]
    rw [hkept]
    simp [Ne.symm h]

/-- The headers whose value is text. -/
def HeaderMap.texts (headers : HeaderMap) : List (String × String) :=
  headers.filterMap fun h => (HeaderValue.toStr h.2).map (h.1, ·)

/-- A request, with its body read. `path` is the path as received. -/
structure HttpRequest where
  method : String
  path : String
  query : String
  headers : HeaderMap
  peerAddr : Option IpAddr
  body : List UInt8

/-- The value of a header, if it is text. -/
def HttpRequest.header (req : HttpRequest) (name : String) : Option String :=
  (req.headers.get name).bind HeaderValue.toStr

/-- The address of the peer, or the empty string. -/
def HttpRequest.peerIp (req : HttpRequest) : String :=
  (req.peerAddr.map IpAddr.text).getD ""

/-- A response that the gateway itself produces. -/
structure HttpResponse where
  status : ℕ
  headers : List (String × String)
  body : Option Json

/-- `HttpResponse::build(status).json(..)` of an object. -/
def HttpResponse.json (status : ℕ) (fields : List (String × Json)) : HttpResponse where
  status := status
  headers := [("content-type", "application/json")]
  body := some (.object fields)

/-- What a middleware does with a request. -/
inductive MiddlewareResult
  /-- The request goes on to the next service. -/
  | forward
  | respond (res : HttpResponse)

/-- `StatusCode::from_u16`, with a default for values that are not status codes. -/
def statusOr (default status : ℕ) : ℕ := if 100 ≤ status ∧ status < 1000 then status else default

end XiraNet

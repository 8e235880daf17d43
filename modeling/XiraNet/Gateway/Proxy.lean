import XiraNet.Gateway.Handler

/-!
# Contact with an upstream

`ProxyResult` and `forward_request_raw_with_headers` of `gateway/proxy.rs`. An upstream is known by
its behaviour on one request: a response, whose body may fail while it is read, or an error of the
HTTP client.
-/

namespace XiraNet

/-- The result of the contact with an upstream. -/
structure ProxyResult where
  status : ℕ
  headers : List (String × String)
  body : List UInt8
  isError : Bool
  deriving DecidableEq, Repr

/-- A request as it is sent to an upstream. -/
structure UpstreamRequest where
  method : String
  url : String
  headers : HeaderMap
  body : Option (List UInt8)
  deriving DecidableEq, Repr

/-- The response of an upstream; there is no body if it fails while it is read. -/
structure UpstreamResponse where
  status : ℕ
  headers : HeaderMap
  body : Option (List UInt8)
  deriving DecidableEq, Repr

/-- An error of the HTTP client. -/
structure SendError where
  isConnect : Bool
  isTimeout : Bool
  /-- The text of the error. -/
  text : String
  deriving DecidableEq, Repr

/-- What becomes of a request that is sent. -/
abbrev SendOutcome := Except SendError UpstreamResponse

/-- `SKIP_HEADERS`: the headers that are not forwarded. -/
def skipHeaders : List String :=
  ["host", "connection", "transfer-encoding", "keep-alive", "upgrade", "te",
    "proxy-authorization", "proxy-connection"]

/-- The headers of a response that are passed on, as text. -/
def relayedHeaders (skip : List String) (headers : HeaderMap) : List (String × String) :=
  HeaderMap.texts (headers.filter fun h => h.1 ∉ skip)

/-- A result with an error of the gateway. -/
def ProxyResult.ofError (status : ℕ) (fields : List (String × String)) : ProxyResult where
  status := status
  headers := [("content-type", "application/json")]
  body := Json.textObject fields
  isError := true

/-- The body that is sent to an upstream. -/
def forwardedBody (body : List UInt8) : Option (List UInt8) := if body = [] then none else some body

/-- The result that `forward_request_raw_with_headers` makes of an outcome. -/
def directResult : SendOutcome → ProxyResult
  | .ok resp =>
      match resp.body with
      | some bytes =>
          { status := resp.status
            headers := relayedHeaders skipHeaders resp.headers
            body := bytes
            isError := false }
      -- The connection broke while the body was read.
      | none => .ofError 502 [("error", "Failed to read upstream response")]
  | .error _ => .ofError 502 [("error", "Service unavailable")]

/-- `forward_request_raw_with_headers`. -/
def forwardRequestRawWithHeaders (send : UpstreamRequest → SendOutcome) (req : HttpRequest)
    (downstreamUrl : String) (forwardedHeaders : HeaderMap) : ProxyResult :=
  if req.method ∉ Gateway.forwardedMethods then .ofError 405 [("error", "Method not supported")]
  else directResult (send ⟨req.method, downstreamUrl, forwardedHeaders, forwardedBody req.body⟩)

end XiraNet

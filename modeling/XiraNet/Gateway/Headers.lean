import XiraNet.Gateway.Responses
import XiraNet.Gateway.Retry

/-!
# Headers through the proxy

The headers of a request on the way to an upstream (`build_forward_headers`, the rules of
`gateway/transform.rs`, and the loop of `grpc/mod.rs`), and those of a response on the way back, on
the three paths through the proxy.

* `values_forwarded`, `values_relayed`: what is sent on under a name.
-/

namespace XiraNet

namespace HeaderMap

/-- `HeaderMap::insert`, for one header after the other. -/
def insertAll (headers : HeaderMap) (hs : List (String × HeaderValue)) : HeaderMap :=
  hs.foldl (fun headers h => headers.insert h.1 h.2) headers

/-- `HeaderMap::remove`. -/
def remove (headers : HeaderMap) (name : String) : HeaderMap := headers.filter fun h => h.1 ≠ name

/-- The values of a header that are text. -/
def textValues (headers : HeaderMap) (name : String) : List HeaderValue :=
  (headers.values name).filter fun value => (HeaderValue.toStr value).isSome

/-- The values of a list of headers, its first header apart. -/
theorem values_cons (h : String × HeaderValue) (headers : HeaderMap) (name : String) :
    values (h :: headers) name =
      if h.1 = name then h.2 :: values headers name else values headers name := by
  unfold values
  split
  next hname => rw [List.filter_cons_of_pos (by simpa using hname), List.map_cons]
  next hname => rw [List.filter_cons_of_neg (by simpa using hname)]

/-- The values of one list of headers and another. -/
theorem values_append (headers headers' : HeaderMap) (name : String) :
    values (headers ++ headers') name = values headers name ++ values headers' name := by
  simp [values]

/-- What is found from the end is the last value. -/
theorem lookup_reverse (headers : HeaderMap) (name : String) :
    headers.reverse.lookup name = (headers.values name).getLast? := by
  induction headers with
  | nil => rfl
  | cons h headers ih =>
      obtain ⟨name', value⟩ := h
      rw [List.reverse_cons, List.lookup_append, ih, values_cons]
      by_cases hname : name = name'
      · subst hname
        cases hlater : (values headers name).getLast? with
        | none => simp [List.getLast?_eq_none_iff.mp hlater]
        | some later => simp [List.getLast?_cons, hlater]
      · simp [Ne.symm hname, List.lookup_cons, beq_false_of_ne hname]

/-- The last of several headers of a name is the one that stays. -/
theorem values_insertAll (headers hs : HeaderMap) (name : String) :
    (headers.insertAll hs).values name =
      ((hs.values name).getLast?.map fun value => [value]).getD (headers.values name) := by
  induction hs generalizing headers with
  | nil => rfl
  | cons h hs ih =>
      rw [insertAll, List.foldl_cons]
      refine (ih (headers.insert h.1 h.2)).trans ?_
      rw [values_insert, values_cons]
      by_cases hname : name = h.1
      · simp [hname, List.getLast?_cons]
      · simp [hname, Ne.symm hname]

/-- The values of a header after a removal. -/
theorem values_remove (headers : HeaderMap) (name name' : String) :
    (headers.remove name).values name' = if name' = name then [] else headers.values name' := by
  unfold remove values
  rw [List.filter_filter]
  split
  next h =>
    subst h
    simp
  next h =>
    congr 1
    refine List.filter_congr fun p _ => ?_
    by_cases hp : p.1 = name'
    · simp [hp, h]
    · simp [hp]

/-- The values of a header after several removals. -/
theorem values_removeAll (headers : HeaderMap) (names : List String) (name : String) :
    (names.foldl remove headers).values name =
      if name ∈ names then [] else headers.values name := by
  induction names generalizing headers with
  | nil => simp
  | cons removed names ih =>
      rw [List.foldl_cons, ih, values_remove]
      by_cases hname : name = removed
      · simp [hname]
      · simp [hname]

/-- A name without values. -/
theorem values_eq_nil_iff {headers : HeaderMap} {name : String} :
    headers.values name = [] ↔ name ∉ headers.map Prod.fst := by
  simp only [values, List.map_eq_nil_iff, List.filter_eq_nil_iff, decide_eq_true_eq, List.mem_map,
    not_exists, not_and]

/-- The values under a name of the headers that are not left out, as far as they are text. -/
theorem values_kept (headers : HeaderMap) (skips : String → Bool) (name : String) :
    values ((headers.filter fun h => !skips h.1).filter fun h =>
        (HeaderValue.toStr h.2).isSome) name =
      if skips name then [] else headers.textValues name := by
  unfold textValues values
  rw [List.filter_map, List.filter_filter, List.filter_filter, List.filter_filter]
  split
  next hskipped =>
    rw [List.map_eq_nil_iff, List.filter_eq_nil_iff]
    rintro ⟨name', value⟩ - hall
    simp only [Bool.and_eq_true, decide_eq_true_eq, Bool.not_eq_true'] at hall
    obtain ⟨⟨rfl, -⟩, hkept⟩ := hall
    exact Bool.noConfusion (hskipped.symm.trans hkept)
  next hkept =>
    refine congrArg (List.map Prod.snd) (List.filter_congr fun h _ => ?_)
    by_cases hname : h.1 = name
    · simp [hname, hkept]
    · simp [hname]

end HeaderMap

namespace HttpLib

/-- The headers come from a message that the HTTP library has read: it takes every name, and every
value that is text, for what it is. -/
def Reads (lib : HttpLib) (headers : HeaderMap) : Prop :=
  ∀ h ∈ headers, lib.headerName h.1 = some h.1 ∧
    ∀ s ∈ HeaderValue.toStr h.2, lib.headerValue s = some h.2

instance (lib : HttpLib) (headers : HeaderMap) : Decidable (lib.Reads headers) :=
  inferInstanceAs (Decidable (∀ h ∈ headers, _ ∧ ∀ s ∈ HeaderValue.toStr h.2, _))

/-- The headers whose values are text come through the conversion to text and back. -/
theorem filterMap_header_texts {lib : HttpLib} {headers : HeaderMap} (hreads : lib.Reads headers) :
    headers.texts.filterMap lib.header =
      headers.filter fun h => (HeaderValue.toStr h.2).isSome := by
  induction headers with
  | nil => rfl
  | cons h headers ih =>
      have hrest := ih fun h' hmem => hreads h' (List.mem_cons_of_mem _ hmem)
      obtain ⟨hname, hvalue⟩ := hreads h List.mem_cons_self
      cases htext : HeaderValue.toStr h.2 with
      | none =>
          rw [List.filter_cons_of_neg (by simp [htext]), ← hrest]
          simp [HeaderMap.texts, htext]
      | some s =>
          have hheader : lib.header (h.1, s) = some h := by
            simp only [header, hname, hvalue s htext]
          rw [List.filter_cons_of_pos (by simp [htext]), ← hrest]
          simp [HeaderMap.texts, htext, hheader]

/-- All of them are headers. -/
theorem isSome_header_of_mem_texts {lib : HttpLib} {headers : HeaderMap}
    (hreads : lib.Reads headers) {h : String × String} (hmem : h ∈ headers.texts) :
    (lib.header h).isSome := by
  obtain ⟨header, hheader, htext⟩ := List.mem_filterMap.mp hmem
  obtain ⟨s, hs, rfl⟩ := Option.map_eq_some_iff.mp htext
  obtain ⟨hname, hvalue⟩ := hreads header hheader
  simp [HttpLib.header, hname, hvalue s hs]

/-- A conversion that fails nowhere gives what comes of each. -/
theorem mapM_eq_filterMap {lib : HttpLib} {hs : List (String × String)}
    (h : ∀ pair ∈ hs, (lib.header pair).isSome) :
    hs.mapM lib.header = some (hs.filterMap lib.header) := by
  induction hs with
  | nil => rfl
  | cons pair hs ih =>
      obtain ⟨header, hheader⟩ := Option.isSome_iff_exists.mp (h pair List.mem_cons_self)
      rw [List.mapM_cons, ih fun pair' hmem => h pair' (List.mem_cons_of_mem _ hmem),
        List.filterMap_cons_some hheader, hheader]
      rfl

/-- Some headers of a message are read like all of them. -/
theorem Reads.filter {lib : HttpLib} {headers : HeaderMap} (hreads : lib.Reads headers)
    (p : String × HeaderValue → Bool) : lib.Reads (headers.filter p) :=
  fun h hmem => hreads h (List.mem_of_mem_filter hmem)

end HttpLib

/-- The headers that the proxy sets on a request. `scheme` is `connection_info().scheme()`. -/
def xForwardedHeaders (lib : HttpLib) (scheme : String) (req : HttpRequest) : HeaderMap :=
  (((req.peerAddr.map IpAddr.text).bind lib.headerValue).toList.map ("x-forwarded-for", ·)) ++
    [("x-forwarded-proto", Utf8.encode (if scheme = "https" then "https" else "http"))] ++
      (((req.header "host").bind lib.headerValue).toList.map ("x-forwarded-host", ·))

/-- `build_forward_headers`. -/
def buildForwardHeaders (lib : HttpLib) (scheme : String) (req : HttpRequest) : HeaderMap :=
  let copied := req.headers.filter fun h => Text.toAsciiLowercase h.1 ∉ skipHeaders
  HeaderMap.insertAll []
    ((HeaderMap.texts copied).filterMap lib.header ++ xForwardedHeaders lib scheme req)

/-- `apply_request_headers`. -/
def TransformConfig.applyRequestHeaders (lib : HttpLib) (rules : TransformConfig)
    (headers : HeaderMap) : HeaderMap :=
  ((rules.removeRequestHeaders.filterMap lib.headerName).foldl HeaderMap.remove headers).insertAll
    (rules.addRequestHeaders.filterMap lib.header)

/-- `is_hop_by_hop`. -/
def isHopByHop (name : String) : Bool :=
  Text.toAsciiLowercase name ∈ ["connection", "keep-alive", "proxy-authenticate",
    "proxy-authorization", "te", "trailer", "transfer-encoding", "upgrade", "host",
    "content-length"]

/-- The ways through the proxy: `forward_request_raw_with_headers`, the branch with retries, and
`handle_grpc_request`. -/
inductive ProxyPath
  | direct
  | retry
  | grpc
  deriving DecidableEq, Repr

/-- The headers of a request that a path leaves out. -/
def ProxyPath.skipsRequest : ProxyPath → String → Bool
  | .direct, name | .retry, name => Text.toAsciiLowercase name ∈ skipHeaders
  | .grpc, name => isHopByHop name

/-- The headers of a response that a path leaves out. -/
def ProxyPath.skipsResponse : ProxyPath → String → Bool
  | .direct, name => name ∈ skipHeaders
  | .retry, name => name ∈ retrySkipHeaders
  | .grpc, name => isHopByHop name

/-- A request, the response of the upstream to it, and what the gateway knows and adds. -/
structure Exchange where
  req : HttpRequest
  /-- `connection_info().scheme()`. -/
  scheme : String
  transform : Option TransformConfig
  resp : UpstreamResponse
  /-- The headers that the plugins add to the response. -/
  pluginHeaders : List (String × String)
  requestId : String
  duration : String

namespace Exchange

variable (lib : HttpLib) (x : Exchange)

/-- The headers of the request that is sent to the upstream, if one is sent. -/
def forwarded : ProxyPath → Option HeaderMap
  | .grpc => (HeaderMap.texts (x.req.headers.filter fun h => !isHopByHop h.1)).mapM lib.header
  | path =>
      -- Only the direct path knows methods that it does not send.
      if path = .direct ∧ x.req.method ∉ Gateway.forwardedMethods then none
      else
        let headers := buildForwardHeaders lib x.scheme x.req
        match x.transform with
        | some rules => some (rules.applyRequestHeaders lib headers)
        | none => some headers

/-- The result that the gateway handler makes of the response of the upstream. -/
def result : ProxyPath → ProxyResult
  | .retry => retryResult (.ok x.resp)
  | _ => directResult (.ok x.resp)

/-- The headers that the rules of the service add to the response. -/
def ruleHeaders : List (String × String) := (x.transform.map (·.addResponseHeaders)).getD []

/-- The headers of the response to the client, if the response of the upstream is passed on. An
error page is sent in its place when the body breaks off (not with retries) or when a pair of the
plugins or rules is no header. -/
def relayed : ProxyPath → Option HeaderMap
  | .grpc =>
      if x.resp.body.isSome then
        (HeaderMap.texts (x.resp.headers.filter fun h => !isHopByHop h.1)).mapM lib.header
      else none
  | path =>
      let r := { x.result path with headers := (x.result path).headers ++ x.pluginHeaders }
      if r.isError = false ∧ ∀ h ∈ r.headers ++ x.ruleHeaders, (lib.header h).isSome then
        some (missResponse lib x.transform x.requestId x.duration r).headers
      else none

/-- A request is sent. -/
def Sends (path : ProxyPath) : Prop := path = .direct → x.req.method ∈ Gateway.forwardedMethods

/-- The response of the upstream is passed on. -/
structure PassedOn (path : ProxyPath) : Prop where
  body : path ≠ .retry → x.resp.body.isSome
  added : path ≠ .grpc → ∀ h ∈ x.pluginHeaders ++ x.ruleHeaders, (lib.header h).isSome

/-- The headers that the rules of the service remove from a request. -/
def removedFromRequest : ProxyPath → List String
  | .grpc => []
  | _ => ((x.transform.map (·.removeRequestHeaders)).getD []).filterMap lib.headerName

/-- The headers that the rules of the service add to a request. -/
def addedToRequest : ProxyPath → HeaderMap
  | .grpc => []
  | _ => ((x.transform.map (·.addRequestHeaders)).getD []).filterMap lib.header

/-- The headers that the proxy sets on a request. -/
def setOnRequest : ProxyPath → HeaderMap
  | .grpc => []
  | _ => xForwardedHeaders lib x.scheme x.req

/-- The headers that the gateway, its plugins and its rules set on a response. -/
def setOnResponse : ProxyPath → HeaderMap
  | .grpc => []
  | _ => (x.pluginHeaders ++ [("X-Proxied-By", "XIRA"), ("X-Cache", "MISS")] ++
      x.ruleHeaders).filterMap lib.header

/-- The two headers that a response without rules gets at last. -/
def idHeaders : ProxyPath → List String
  | .grpc => []
  | _ => if x.transform.isNone then ["x-request-id", "x-response-time"] else []

variable {lib x}

/-- What `build_forward_headers` gives under a name. -/
theorem values_buildForwardHeaders (hreads : lib.Reads x.req.headers) (name : String) :
    (buildForwardHeaders lib x.scheme x.req).values name =
      (((if Text.toAsciiLowercase name ∈ skipHeaders then [] else x.req.headers.textValues name) ++
        (xForwardedHeaders lib x.scheme x.req).values name).getLast?).toList := by
  have hkept := HeaderMap.values_kept x.req.headers
    (fun name => decide (Text.toAsciiLowercase name ∈ skipHeaders)) name
  simp only [decide_eq_true_eq, ← decide_not] at hkept
  simp only [buildForwardHeaders]
  rw [HttpLib.filterMap_header_texts (hreads.filter _), HeaderMap.values_insertAll,
    HeaderMap.values_append, hkept]
  cases (_ ++ _ : List HeaderValue).getLast? <;> rfl

/-- The headers of a request that is sent. -/
theorem forwarded_of_sends {path : ProxyPath} (hpath : path ≠ .grpc) (hsends : x.Sends path) :
    x.forwarded lib path = some
      (match x.transform with
      | some rules => rules.applyRequestHeaders lib (buildForwardHeaders lib x.scheme x.req)
      | none => buildForwardHeaders lib x.scheme x.req) := by
  cases path with
  | grpc => exact absurd rfl hpath
  | direct =>
      simp only [forwarded]
      rw [if_neg fun h => h.2 (hsends rfl)]
      split <;> rfl
  | retry =>
      simp only [forwarded]
      rw [if_neg fun h => nomatch h.1]
      split <;> rfl

/-- What is sent to the upstream under a name: what the rules add, and else the last value of the
request or of the proxy, if the rules do not remove it. -/
theorem values_forwarded (hreads : lib.Reads x.req.headers) {path : ProxyPath}
    (hpath : path ≠ .grpc) (hsends : x.Sends path) :
    ∃ hs, x.forwarded lib path = some hs ∧ ∀ name, hs.values name =
      (((x.addedToRequest lib path).values name).getLast?.map fun value => [value]).getD
        (if name ∈ x.removedFromRequest lib path then []
        else (((if path.skipsRequest name then [] else x.req.headers.textValues name) ++
          (x.setOnRequest lib path).values name).getLast?).toList) := by
  have hbuild := values_buildForwardHeaders hreads
  refine ⟨_, forwarded_of_sends hpath hsends, fun name => ?_⟩
  cases path with
  | grpc => exact absurd rfl hpath
  | direct | retry =>
      cases htransform : x.transform with
      | none =>
          simp only [addedToRequest, removedFromRequest, htransform, hbuild]
          simp [HeaderMap.values, ProxyPath.skipsRequest, setOnRequest]
      | some rules =>
          simp only [TransformConfig.applyRequestHeaders, HeaderMap.values_insertAll,
            HeaderMap.values_removeAll, addedToRequest, removedFromRequest, htransform, hbuild]
          simp [ProxyPath.skipsRequest, setOnRequest]

/-- What the gRPC proxy sends to the upstream under a name. -/
theorem values_forwarded_grpc (hreads : lib.Reads x.req.headers) :
    ∃ hs, x.forwarded lib .grpc = some hs ∧ ∀ name, hs.values name =
      if isHopByHop name then [] else x.req.headers.textValues name := by
  have hreads' := hreads.filter fun h => !isHopByHop h.1
  refine ⟨_, ?_, HeaderMap.values_kept x.req.headers isHopByHop⟩
  rw [forwarded, HttpLib.mapM_eq_filterMap fun h => HttpLib.isSome_header_of_mem_texts hreads',
    HttpLib.filterMap_header_texts hreads']

/-- What the gRPC proxy passes on under a name. -/
theorem values_relayed_grpc (hreads : lib.Reads x.resp.headers) (hpassed : x.PassedOn lib .grpc) :
    ∃ hs, x.relayed lib .grpc = some hs ∧ ∀ name, hs.values name =
      if isHopByHop name then [] else x.resp.headers.textValues name := by
  have hreads' := hreads.filter fun h => !isHopByHop h.1
  refine ⟨_, ?_, HeaderMap.values_kept x.resp.headers isHopByHop⟩
  rw [relayed, if_pos (hpassed.body (by decide)),
    HttpLib.mapM_eq_filterMap fun h => HttpLib.isSome_header_of_mem_texts hreads',
    HttpLib.filterMap_header_texts hreads']

/-- Nothing is sent for a method that is not forwarded. -/
theorem forwarded_eq_none {path : ProxyPath} (hsends : ¬ x.Sends path) :
    x.forwarded lib path = none := by
  unfold Sends at hsends
  push Not at hsends
  obtain ⟨rfl, hmethod⟩ := hsends
  simp only [forwarded]
  exact if_pos ⟨trivial, hmethod⟩

/-- The result of a response that is passed on. -/
theorem result_of_passedOn {path : ProxyPath} (hpath : path ≠ .grpc)
    (hbody : path ≠ .retry → x.resp.body.isSome) :
    (x.result path).isError = false ∧ (x.result path).headers =
      HeaderMap.texts (x.resp.headers.filter fun h => !path.skipsResponse h.1) := by
  cases path with
  | grpc => exact absurd rfl hpath
  | direct =>
      obtain ⟨bytes, hbytes⟩ := Option.isSome_iff_exists.mp (hbody (by decide))
      simp [result, directResult, hbytes, relayedHeaders, ProxyPath.skipsResponse]
  | retry => simp [result, retryResult, relayedHeaders, ProxyPath.skipsResponse]

/-- The response of the gateway handler under a name: the last value of the upstream or of the
gateway. -/
theorem values_missResponse {r : ProxyResult} {path : ProxyPath} (hpath : path ≠ .grpc)
    (hvalid : ∀ h ∈ r.headers ++ x.ruleHeaders, (lib.header h).isSome) (name : String) :
    (name ∈ x.idHeaders path →
        (missResponse lib x.transform x.requestId x.duration r).headers.values name ≠ []) ∧
      (name ∉ x.idHeaders path →
        (missResponse lib x.transform x.requestId x.duration r).headers.values name =
          ((HeaderMap.values ((r.headers ++ [("X-Proxied-By", "XIRA"), ("X-Cache", "MISS")] ++
            x.ruleHeaders).filterMap lib.header) name).getLast?).toList) := by
  have hall : ∀ h ∈ r.headers ++ [("X-Proxied-By", "XIRA"), ("X-Cache", "MISS")] ++ x.ruleHeaders,
      (lib.header h).isSome := by
    intro h hmem
    rcases List.mem_append.mp hmem with hmem | hmem
    · rcases List.mem_append.mp hmem with hmem | hmem
      · exact hvalid h (List.mem_append_left _ hmem)
      · exact isSome_header_added (List.mem_append_left [("X-Cache", "HIT")] hmem)
    · exact hvalid h (List.mem_append_right _ hmem)
  obtain ⟨headers, hbody, hvalues⟩ :=
    ResponseBuilder.body_of_valid (statusOr 500 r.status) r.body hall
  have hlast : headers.values name = ((HeaderMap.values ((r.headers ++
      [("X-Proxied-By", "XIRA"), ("X-Cache", "MISS")] ++ x.ruleHeaders).filterMap lib.header)
        name).getLast?).toList := by
    rw [hvalues, HttpLib.setting, HeaderMap.lookup_reverse]
  have hids : x.idHeaders path =
      if x.transform.isNone then ["x-request-id", "x-response-time"] else [] := by
    cases path with
    | grpc => exact absurd rfl hpath
    | direct | retry => rfl
  rw [hids]
  -- With rules the response is built anew, and the two headers of a request are not set.
  cases htransform : x.transform with
  | some rules =>
      have hrules : x.ruleHeaders = rules.addResponseHeaders := by simp [ruleHeaders, htransform]
      rw [hrules] at hbody hlast ⊢
      have hresponse : (missResponse lib (some rules) x.requestId x.duration r).headers =
          headers := by
        simp only [missResponse, transformedResponse_eq]
        rw [hbody]
      rw [hresponse]
      exact ⟨by simp, fun _ => hlast⟩
  | none =>
      have hrules : x.ruleHeaders = [] := by simp [ruleHeaders, htransform]
      rw [hrules, List.append_nil] at hbody hlast ⊢
      have hinto : (r.intoResponse lib).headers = headers := by rw [intoResponse_eq, hbody]
      -- The two headers replace what was there under their names.
      simp only [missResponse, HeaderMap.values_insert, hinto, Option.isNone_none, if_true]
      refine ⟨fun hmem => ?_, fun hmem => ?_⟩
      · by_cases htime : name = "x-response-time"
        · simp [htime]
        · simp [show name = "x-request-id" by simpa [htime] using hmem]
      · rw [if_neg fun h => hmem (by simp [h]), if_neg fun h => hmem (by simp [h])]
        exact hlast

/-- What is passed on to the client under a name. -/
theorem values_relayed (hreads : lib.Reads x.resp.headers) {path : ProxyPath}
    (hpath : path ≠ .grpc) (hpassed : x.PassedOn lib path) :
    ∃ hs, x.relayed lib path = some hs ∧ ∀ name,
      (name ∈ x.idHeaders path → hs.values name ≠ []) ∧
        (name ∉ x.idHeaders path → hs.values name =
          (((if path.skipsResponse name then [] else x.resp.headers.textValues name) ++
            (x.setOnResponse lib path).values name).getLast?).toList) := by
  obtain ⟨herror, hheaders⟩ := result_of_passedOn hpath hpassed.body
  have hreads' := hreads.filter fun h => !path.skipsResponse h.1
  have hvalid : ∀ h ∈ ((x.result path).headers ++ x.pluginHeaders) ++ x.ruleHeaders,
      (lib.header h).isSome := by
    intro h hmem
    rw [List.append_assoc, hheaders] at hmem
    rcases List.mem_append.mp hmem with hmem | hmem
    · exact HttpLib.isSome_header_of_mem_texts hreads' hmem
    · exact hpassed.added hpath h hmem
  have hset : x.setOnResponse lib path = (x.pluginHeaders ++
      [("X-Proxied-By", "XIRA"), ("X-Cache", "MISS")] ++ x.ruleHeaders).filterMap lib.header := by
    cases path with
    | grpc => exact absurd rfl hpath
    | direct | retry => rfl
  have hrelayed : x.relayed lib path = some (missResponse lib x.transform x.requestId x.duration
      { x.result path with headers := (x.result path).headers ++ x.pluginHeaders }).headers := by
    cases path with
    | grpc => exact absurd rfl hpath
    | direct | retry => exact if_pos ⟨herror, hvalid⟩
  refine ⟨_, hrelayed, fun name => ?_⟩
  obtain ⟨hid, hother⟩ := values_missResponse
    (r := { x.result path with headers := (x.result path).headers ++ x.pluginHeaders }) hpath
    hvalid name
  refine ⟨hid, fun hname => (hother hname).trans ?_⟩
  -- What the library makes of the texts are the headers of the upstream that are text.
  rw [← HeaderMap.values_kept, hset, ← HttpLib.filterMap_header_texts hreads', ← hheaders,
    ← HeaderMap.values_append, ← List.filterMap_append]
  simp only [List.append_assoc]

/-- Nothing of the upstream is passed on in an error page. -/
theorem relayed_eq_none {path : ProxyPath} (hpassed : ¬ x.PassedOn lib path) :
    x.relayed lib path = none := by
  cases path with
  | grpc =>
      refine if_neg fun hbody => hpassed ⟨fun _ => hbody, fun h => absurd rfl h⟩
  | direct =>
      refine if_neg fun hsent => hpassed ⟨fun _ => ?_, fun _ h hmem => ?_⟩
      · have herror := hsent.1
        cases hbody : x.resp.body with
        | some bytes => rfl
        | none => simp [result, directResult, hbody, ProxyResult.ofError] at herror
      · exact hsent.2 h (by simp only [List.append_assoc]; exact List.mem_append_right _ hmem)
  | retry =>
      refine if_neg fun hsent => hpassed ⟨fun h => absurd rfl h, fun _ h hmem => ?_⟩
      exact hsent.2 h (by simp only [List.append_assoc]; exact List.mem_append_right _ hmem)

end Exchange

end XiraNet

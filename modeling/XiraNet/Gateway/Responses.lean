import XiraNet.Gateway.Cache
import XiraNet.Gateway.Proxy

/-!
# Responses to the client

How `gateway_handler` builds the response that it sends: from the result of the contact with an
upstream (`into_response`, or with the rules of `gateway/transform.rs`), or from the cache. The
conversions of the HTTP library are a parameter, with what the gateway relies on.

* `sameResponse_iff`: the cached response is the one that was sent exactly if the rules of the
  service add nothing to it.
-/

namespace XiraNet

/-- A response as it is sent. -/
structure SentResponse where
  status : ℕ
  headers : HeaderMap
  body : List UInt8
  deriving DecidableEq, Repr

/-- The conversions of the HTTP library. -/
structure HttpLib where
  /-- `HeaderName::try_from`, to the name as it is stored. -/
  headerName : String → Option String
  /-- `HeaderValue::try_from`. -/
  headerValue : String → Option HeaderValue
  /-- `HttpResponse::from_error`, for a name and a value that are not a header. -/
  fromError : String × String → SentResponse
  /-- A name is stored in lower case. -/
  headerName_of_token : ∀ s : String, s ≠ "" → s.toList.length < 2 ^ 16 →
    (s.toList.all fun c => c.isAlphanum || c = '-') = true →
    headerName s = some (Text.toAsciiLowercase s)
  /-- Visible ASCII is a value. -/
  headerValue_of_visible : ∀ s : String,
    (s.toList.all fun c => 32 ≤ c.toNat && c.toNat < 127) = true →
    headerValue s = some (Utf8.encode s)
  /-- The status of such an error. -/
  status_fromError : ∀ h, (fromError h).status = 500

namespace HttpLib

variable (lib : HttpLib)

/-- A name and a value as a header. -/
def header (h : String × String) : Option (String × HeaderValue) :=
  match lib.headerName h.1, lib.headerValue h.2 with
  | some name, some value => some (name, value)
  | _, _ => none

/-- The value that a header has after some were inserted one after the other. -/
def setting (hs : List (String × String)) (name : String) : Option HeaderValue :=
  (hs.filterMap lib.header).reverse.lookup name

end HttpLib

/-- A character of a header name. -/
def isTokenChar (c : Char) : Bool := c.isAlphanum || c ∈ "!#$%&'*+-.^_`|~".toList

/-- Conversions as the HTTP library makes them: names are tokens, values are bytes without control
characters, and everything else is an internal error. -/
def HttpLib.plain : HttpLib where
  headerName s :=
    if s ≠ "" ∧ s.toList.length < 2 ^ 16 ∧ s.toList.all isTokenChar then
      some (Text.toAsciiLowercase s)
    else none
  headerValue s :=
    if s.toList.all fun c => c = '\t' || (32 ≤ c.toNat && c.toNat ≠ 127) then some (Utf8.encode s)
    else none
  fromError _ :=
    ⟨500, [("content-type", Utf8.encode "text/plain; charset=utf-8")],
      Utf8.encode "failed to parse header value"⟩
  headerName_of_token s hne hlength hall := by
    refine if_pos ⟨hne, hlength, List.all_eq_true.mpr fun c hc => ?_⟩
    have hchar := List.all_eq_true.mp hall c hc
    simp only [Bool.or_eq_true, decide_eq_true_eq] at hchar
    obtain h | rfl := hchar
    -- Letters and digits, or a hyphen.
    · simp [isTokenChar, h]
    · decide
  headerValue_of_visible s hall := by
    refine if_pos (List.all_eq_true.mpr fun c hc => ?_)
    have hchar := List.all_eq_true.mp hall c hc
    simp only [Bool.and_eq_true, decide_eq_true_eq] at hchar
    simp [hchar.1, Nat.ne_of_lt hchar.2]
  status_fromError _ := rfl

/-- A response that is being built; `error` is the first pair that is not a header. -/
structure ResponseBuilder where
  status : ℕ
  headers : HeaderMap
  error : Option (String × String)

namespace ResponseBuilder

/-- `HttpResponse::build`. -/
def build (status : ℕ) : ResponseBuilder := ⟨status, [], none⟩

/-- `insert_header`. -/
def insertHeader (lib : HttpLib) (b : ResponseBuilder) (h : String × String) : ResponseBuilder :=
  match b.error, lib.header h with
  -- After the first error the builder ignores what else is inserted.
  | some _, _ => b
  | none, some (name, value) => { b with headers := b.headers.insert name value }
  | none, none => { b with error := some h }

/-- `insert_header`, for one header after the other. -/
def insertHeaders (lib : HttpLib) (b : ResponseBuilder) (hs : List (String × String)) :
    ResponseBuilder :=
  hs.foldl (insertHeader lib) b

/-- `body`. -/
def body (lib : HttpLib) (b : ResponseBuilder) (bytes : List UInt8) : SentResponse :=
  match b.error with
  | some h => lib.fromError h
  | none => ⟨b.status, b.headers, bytes⟩

end ResponseBuilder

/-- `ProxyResult::into_response`. -/
def ProxyResult.intoResponse (lib : HttpLib) (r : ProxyResult) : SentResponse :=
  ((((ResponseBuilder.build (statusOr 500 r.status)).insertHeaders lib r.headers).insertHeader lib
    ("X-Proxied-By", "XIRA")).insertHeader lib ("X-Cache", "MISS")).body lib r.body

/-- `apply_response_headers`. The headers to be removed are passed over: a builder has nothing to
remove a header. -/
def TransformConfig.applyResponseHeaders (lib : HttpLib) (rules : TransformConfig)
    (response : ResponseBuilder) : ResponseBuilder :=
  response.insertHeaders lib rules.addResponseHeaders

/-- The response with the rules of the service. -/
def transformedResponse (lib : HttpLib) (rules : TransformConfig) (r : ProxyResult) :
    SentResponse :=
  (rules.applyResponseHeaders lib
    ((((ResponseBuilder.build (statusOr 500 r.status)).insertHeaders lib r.headers).insertHeader lib
      ("X-Proxied-By", "XIRA")).insertHeader lib ("X-Cache", "MISS"))).body lib r.body

/-- A text as the value of a header, with `-` for what is not a value. -/
def HttpLib.valueOrDash (lib : HttpLib) (s : String) : HeaderValue :=
  (lib.headerValue s).getD (Utf8.encode "-")

/-- The response of a cache MISS, with the request id and the time that it took. -/
def missResponse (lib : HttpLib) (transform : Option TransformConfig) (requestId duration : String)
    (r : ProxyResult) : SentResponse :=
  match transform with
  | some rules => transformedResponse lib rules r
  | none =>
      -- Only a response without rules carries the request id and the time.
      let response := r.intoResponse lib
      { response with
        headers := (response.headers.insert "x-request-id" (lib.valueOrDash requestId)).insert
          "x-response-time" (lib.valueOrDash duration) }

/-- The response of a cache HIT. -/
def hitResponse (lib : HttpLib) (reply : CachedReply) : SentResponse :=
  ((((ResponseBuilder.build (statusOr 200 reply.status)).insertHeaders lib
    reply.headers).insertHeader lib ("X-Cache", "HIT")).insertHeader lib
      ("X-Proxied-By", "XIRA")).body lib reply.body

/-- The headers in which a response may differ from one that is sent again. -/
def volatileHeaders : List String := ["x-cache", "x-request-id", "x-response-time"]

/-- Two responses with the same status, the same body and the same headers, those apart that are
volatile. -/
structure SameResponse (a b : SentResponse) : Prop where
  status_eq : a.status = b.status
  body_eq : a.body = b.body
  values_eq : ∀ name ∉ volatileHeaders, a.headers.values name = b.headers.values name

/-- The rules of a service have no effect on a response with these headers: there are none, or the
headers are not those of a response, or the rules only set volatile headers or give a header the
value that it has anyway. -/
def RulesInert (lib : HttpLib) (transform : Option TransformConfig)
    (headers : List (String × String)) : Prop :=
  ∀ rules ∈ transform, (∀ h ∈ headers, (lib.header h).isSome) →
    ∀ h ∈ rules.addResponseHeaders, ∃ p ∈ lib.header h, p.1 ∈ volatileHeaders ∨
      lib.setting rules.addResponseHeaders p.1 =
        lib.setting (headers ++ [("X-Proxied-By", "XIRA")]) p.1

instance (lib : HttpLib) (transform : Option TransformConfig) (headers : List (String × String)) :
    Decidable (RulesInert lib transform headers) :=
  inferInstanceAs (Decidable (∀ rules ∈ transform, _ → ∀ h ∈ rules.addResponseHeaders, _))

namespace HttpLib

variable (lib : HttpLib)

/-- The value of a header after one more was inserted at the start. -/
theorem setting_cons (h : String × String) (hs : List (String × String)) (name : String) :
    lib.setting (h :: hs) name =
      (lib.setting hs name).or (((lib.header h).toList).lookup name) := by
  unfold setting
  cases hheader : lib.header h with
  | none => simp [hheader]
  | some p => simp [hheader, List.lookup_append]

/-- The value of a header after two lists were inserted. -/
theorem setting_append (hs hs' : List (String × String)) (name : String) :
    lib.setting (hs ++ hs') name = (lib.setting hs' name).or (lib.setting hs name) := by
  simp [setting, List.lookup_append]

/-- Either all pairs are headers, or there is a first one that is not. -/
theorem valid_or_invalid (hs : List (String × String)) :
    (∀ h ∈ hs, (lib.header h).isSome) ∨
      ∃ e ∈ hs, lib.header e = none ∧ (hs.find? fun h => (lib.header h).isNone) = some e := by
  cases hfind : hs.find? fun h => (lib.header h).isNone with
  | none =>
      refine .inl fun h hh => ?_
      simpa [Option.isSome_iff_ne_none] using List.find?_eq_none.mp hfind h hh
  | some e =>
      have hbad := List.find?_some hfind
      exact .inr ⟨e, List.mem_of_find?_eq_some hfind, Option.isNone_iff_eq_none.mp hbad, rfl⟩

/-- There is no first pair that is not a header when all are. -/
theorem find?_eq_none_of_valid {hs : List (String × String)}
    (hvalid : ∀ h ∈ hs, (lib.header h).isSome) :
    (hs.find? fun h => (lib.header h).isNone) = none :=
  List.find?_eq_none.mpr fun h hh => by simpa [Option.isSome_iff_ne_none] using hvalid h hh

/-- A header that is not set by any pair. -/
theorem setting_eq_none {hs : List (String × String)} {name : String} :
    lib.setting hs name = none ↔ ∀ h ∈ hs, ∀ p ∈ lib.header h, p.1 ≠ name := by
  simp only [setting, List.lookup_eq_none_iff, List.mem_reverse, List.mem_filterMap]
  constructor
  · intro h pair hpair p hp heq
    simpa [heq] using h p ⟨pair, hpair, hp⟩
  · rintro h p ⟨pair, hpair, hp⟩
    simpa using (h pair hpair p hp).symm

/-- `X-Cache` is a header, with any of its values. -/
theorem header_xCache {s : String}
    (hs : (s.toList.all fun c => 32 ≤ c.toNat && c.toNat < 127) = true) :
    lib.header ("X-Cache", s) = some ("x-cache", Utf8.encode s) := by
  have hname : lib.headerName "X-Cache" = some "x-cache" :=
    lib.headerName_of_token _ (by decide) (by decide) (by decide)
  simp only [header, hname, lib.headerValue_of_visible s hs]

/-- `X-Proxied-By` is a header. -/
theorem header_xProxiedBy :
    lib.header ("X-Proxied-By", "XIRA") = some ("x-proxied-by", Utf8.encode "XIRA") := by
  have hname : lib.headerName "X-Proxied-By" = some "x-proxied-by" :=
    lib.headerName_of_token _ (by decide) (by decide) (by decide)
  simp only [header, hname, lib.headerValue_of_visible "XIRA" (by decide)]

end HttpLib

namespace ResponseBuilder

variable {lib : HttpLib} {b : ResponseBuilder} {h : String × String} {hs : List (String × String)}

/-- Nothing is inserted after an error. -/
theorem insertHeaders_of_error {e : String × String} (he : b.error = some e) :
    b.insertHeaders lib hs = b := by
  induction hs with
  | nil => rfl
  | cons h hs ih =>
      have hsame : b.insertHeader lib h = b := by simp [insertHeader, he]
      rw [insertHeaders, List.foldl_cons, hsame]
      exact ih

/-- Inserting two lists, one after the other. -/
theorem insertHeaders_append (hs' : List (String × String)) :
    b.insertHeaders lib (hs ++ hs') = (b.insertHeaders lib hs).insertHeaders lib hs' :=
  List.foldl_append

/-- The first pair that is not a header is kept as the error. -/
theorem error_insertHeaders (he : b.error = none) :
    (b.insertHeaders lib hs).error = hs.find? fun h => (lib.header h).isNone := by
  induction hs generalizing b with
  | nil => exact he
  | cons h hs ih =>
      rw [insertHeaders, List.foldl_cons]
      cases hheader : lib.header h with
      | none =>
          rw [List.find?_cons_of_pos (by simp [hheader])]
          have herror : (b.insertHeader lib h).error = some h := by
            simp [insertHeader, he, hheader]
          exact (congrArg error (insertHeaders_of_error herror)).trans herror
      | some p =>
          rw [List.find?_cons_of_neg (by simp [hheader])]
          exact ih (by simp [insertHeader, he, hheader])

/-- The status stays what it was. -/
@[simp]
theorem status_insertHeaders : (b.insertHeaders lib hs).status = b.status := by
  induction hs generalizing b with
  | nil => rfl
  | cons h hs ih =>
      refine ih.trans ?_
      unfold insertHeader
      split <;> rfl

/-- The values of a header after headers were inserted. -/
theorem values_insertHeaders (he : b.error = none) (hvalid : ∀ h ∈ hs, (lib.header h).isSome)
    (name : String) :
    (b.insertHeaders lib hs).headers.values name =
      ((lib.setting hs name).map fun value => [value]).getD (b.headers.values name) := by
  induction hs generalizing b with
  | nil => rfl
  | cons h hs ih =>
      obtain ⟨⟨name', value⟩, hheader⟩ := Option.isSome_iff_exists.mp (hvalid h List.mem_cons_self)
      have hstep : b.insertHeader lib h = { b with headers := b.headers.insert name' value } := by
        simp [insertHeader, he, hheader]
      rw [insertHeaders, List.foldl_cons, hstep]
      refine (ih (b := { b with headers := b.headers.insert name' value }) he
        fun h' hh' => hvalid h' (List.mem_cons_of_mem _ hh')).trans ?_
      rw [lib.setting_cons, hheader]
      -- A later header of the same name wins.
      cases hlater : lib.setting hs name with
      | some later => rfl
      | none =>
          rw [HeaderMap.values_insert]
          by_cases hname : name = name'
          · simp [hname]
          · simp [hname, List.lookup_cons, beq_false_of_ne hname]

/-- A response with a pair that is not a header is the error for the first such pair. -/
theorem body_of_invalid {status : ℕ} {bytes : List UInt8} {e : String × String}
    (he : (hs.find? fun h => (lib.header h).isNone) = some e) :
    ((build status).insertHeaders lib hs).body lib bytes = lib.fromError e := by
  have herror : ((build status).insertHeaders lib hs).error = some e :=
    (error_insertHeaders rfl).trans he
  simp only [body, herror]

/-- A response whose pairs are all headers. -/
theorem body_of_valid (status : ℕ) (bytes : List UInt8)
    (hvalid : ∀ h ∈ hs, (lib.header h).isSome) :
    ∃ headers, ((build status).insertHeaders lib hs).body lib bytes = ⟨status, headers, bytes⟩ ∧
      ∀ name, headers.values name = (lib.setting hs name).toList := by
  have herror : ((build status).insertHeaders lib hs).error = none :=
    (error_insertHeaders rfl).trans (lib.find?_eq_none_of_valid hvalid)
  refine ⟨((build status).insertHeaders lib hs).headers, ?_, fun name => ?_⟩
  · simp only [body, herror, status_insertHeaders]
    rfl
  · rw [values_insertHeaders rfl hvalid]
    cases lib.setting hs name <;> rfl

end ResponseBuilder

namespace SameResponse

variable {lib : HttpLib}

/-- A volatile header makes no difference. -/
theorem insert_volatile {a b : SentResponse} {name : String} {value : HeaderValue}
    (hname : name ∈ volatileHeaders) :
    SameResponse { a with headers := a.headers.insert name value } b ↔ SameResponse a b := by
  have hvalues : ∀ name' ∉ volatileHeaders,
      (a.headers.insert name value).values name' = a.headers.values name' := by
    intro name' hname'
    rw [HeaderMap.values_insert, if_neg]
    rintro rfl
    exact hname' hname
  constructor
  · rintro ⟨hstatus, hbody, hheaders⟩
    exact ⟨hstatus, hbody, fun name' h => (hvalues name' h).symm.trans (hheaders name' h)⟩
  · rintro ⟨hstatus, hbody, hheaders⟩
    exact ⟨hstatus, hbody, fun name' h => (hvalues name' h).trans (hheaders name' h)⟩

/-- Two responses with the same status and body, and with pairs that are all headers. -/
theorem iff_of_valid {status : ℕ} {bytes : List UInt8} {hs hs' : List (String × String)}
    (hvalid : ∀ h ∈ hs, (lib.header h).isSome) (hvalid' : ∀ h ∈ hs', (lib.header h).isSome) :
    SameResponse (((ResponseBuilder.build status).insertHeaders lib hs).body lib bytes)
        (((ResponseBuilder.build status).insertHeaders lib hs').body lib bytes) ↔
      ∀ name ∉ volatileHeaders, lib.setting hs name = lib.setting hs' name := by
  obtain ⟨headers, hbody, hvalues⟩ :=
    ResponseBuilder.body_of_valid status bytes hvalid
  obtain ⟨headers', hbody', hvalues'⟩ :=
    ResponseBuilder.body_of_valid status bytes hvalid'
  rw [hbody, hbody']
  constructor
  · intro h name hname
    have hlists := h.values_eq name hname
    rw [hvalues, hvalues'] at hlists
    simpa using congrArg List.head? hlists
  · intro h
    refine ⟨rfl, rfl, fun name hname => ?_⟩
    rw [hvalues, hvalues', h name hname]

end SameResponse

section Cached

variable {lib : HttpLib} {r : ProxyResult}

/-- The headers of every response of the gateway are those of the upstream and two more. -/
theorem hitResponse_eq (lib : HttpLib) (reply : CachedReply) :
    hitResponse lib reply = ((ResponseBuilder.build (statusOr 200 reply.status)).insertHeaders lib
      (reply.headers ++ [("X-Cache", "HIT"), ("X-Proxied-By", "XIRA")])).body lib reply.body := by
  rw [ResponseBuilder.insertHeaders_append]
  rfl

/-- `into_response` as one list of headers. -/
theorem intoResponse_eq (lib : HttpLib) (r : ProxyResult) :
    r.intoResponse lib = ((ResponseBuilder.build (statusOr 500 r.status)).insertHeaders lib
      (r.headers ++ [("X-Proxied-By", "XIRA"), ("X-Cache", "MISS")])).body lib r.body := by
  rw [ResponseBuilder.insertHeaders_append]
  rfl

/-- A response with rules as one list of headers. -/
theorem transformedResponse_eq (lib : HttpLib) (rules : TransformConfig) (r : ProxyResult) :
    transformedResponse lib rules r =
      ((ResponseBuilder.build (statusOr 500 r.status)).insertHeaders lib
        (r.headers ++ [("X-Proxied-By", "XIRA"), ("X-Cache", "MISS")] ++
          rules.addResponseHeaders)).body lib r.body := by
  rw [ResponseBuilder.insertHeaders_append, ResponseBuilder.insertHeaders_append]
  rfl

/-- Without rules, a response differs from `into_response` in volatile headers only. -/
theorem sameResponse_missResponse_none {requestId duration : String} {b : SentResponse} :
    SameResponse (missResponse lib none requestId duration r) b ↔
      SameResponse (r.intoResponse lib) b :=
  (SameResponse.insert_volatile (by decide)).trans (SameResponse.insert_volatile (by decide))

/-- The headers that the gateway adds are headers. -/
theorem isSome_header_added {h : String × String}
    (hmem : h ∈ [("X-Proxied-By", "XIRA"), ("X-Cache", "MISS"), ("X-Cache", "HIT")]) :
    (lib.header h).isSome := by
  simp only [List.mem_cons, List.not_mem_nil, or_false] at hmem
  obtain rfl | rfl | rfl := hmem
  · rw [lib.header_xProxiedBy]
    rfl
  · rw [lib.header_xCache (by decide)]
    rfl
  · rw [lib.header_xCache (by decide)]
    rfl

/-- Of the headers that the gateway adds, one is not volatile. -/
theorem setting_added {hs : List (String × String)} {name : String} (hname : name ∉ volatileHeaders)
    {s : String} (hs' : (s.toList.all fun c => 32 ≤ c.toNat && c.toNat < 127) = true) :
    lib.setting (hs ++ [("X-Proxied-By", "XIRA"), ("X-Cache", s)]) name =
        lib.setting (hs ++ [("X-Proxied-By", "XIRA")]) name ∧
      lib.setting (hs ++ [("X-Cache", s), ("X-Proxied-By", "XIRA")]) name =
        lib.setting (hs ++ [("X-Proxied-By", "XIRA")]) name := by
  have hne : name ≠ "x-cache" := by
    rintro rfl
    exact hname (by decide)
  constructor
  all_goals
    simp [HttpLib.setting, lib.header_xCache hs', lib.header_xProxiedBy,
      List.lookup_cons, beq_false_of_ne hne]

/-- When the headers of the upstream are not those of a response, the client gets the same error
every time. -/
theorem sameResponse_of_invalid {transform : Option TransformConfig} {requestId duration : String}
    {e : String × String} (he : (r.headers.find? fun h => (lib.header h).isNone) = some e) :
    SameResponse (missResponse lib transform requestId duration r)
      (hitResponse lib ⟨r.status, r.headers, r.body⟩) := by
  have herror : ∀ (status : ℕ) (hs : List (String × String)),
      ((ResponseBuilder.build status).insertHeaders lib (r.headers ++ hs)).body lib r.body =
        lib.fromError e := fun status hs =>
    ResponseBuilder.body_of_invalid (by rw [List.find?_append, he, Option.some_or])
  rw [hitResponse_eq, herror]
  cases transform with
  | none =>
      rw [sameResponse_missResponse_none, intoResponse_eq, herror]
      exact ⟨rfl, rfl, fun _ _ => rfl⟩
  | some rules =>
      simp only [missResponse, transformedResponse_eq, List.append_assoc, herror]
      exact ⟨rfl, rfl, fun _ _ => rfl⟩

/-- What more headers do to a response that has these headers already. -/
theorem sameResponse_added_iff {status : ℕ} (bytes : List UInt8) {hs : List (String × String)}
    (added : List (String × String)) (hlt : status < 300)
    (hvalid : ∀ h ∈ hs, (lib.header h).isSome) :
    SameResponse
        (((ResponseBuilder.build status).insertHeaders lib
          (hs ++ [("X-Proxied-By", "XIRA"), ("X-Cache", "MISS")] ++ added)).body lib bytes)
        (((ResponseBuilder.build status).insertHeaders lib
          (hs ++ [("X-Cache", "HIT"), ("X-Proxied-By", "XIRA")])).body lib bytes) ↔
      ∀ h ∈ added, ∃ p ∈ lib.header h, p.1 ∈ volatileHeaders ∨
        lib.setting added p.1 = lib.setting (hs ++ [("X-Proxied-By", "XIRA")]) p.1 := by
  have hmiss : ∀ h ∈ hs ++ [("X-Proxied-By", "XIRA"), ("X-Cache", "MISS")],
      (lib.header h).isSome := fun h hmem =>
    (List.mem_append.mp hmem).elim (hvalid h) fun hadded =>
      isSome_header_added (List.mem_append_left [("X-Cache", "HIT")] hadded)
  have hhit : ∀ h ∈ hs ++ [("X-Cache", "HIT"), ("X-Proxied-By", "XIRA")],
      (lib.header h).isSome := fun h hmem =>
    (List.mem_append.mp hmem).elim (hvalid h) fun hadded => isSome_header_added (by grind)
  rcases lib.valid_or_invalid added with hadded | ⟨e, hmem, hnone, hfind⟩
  case inr =>
    -- A pair that is no header turns the response into an error.
    refine iff_of_false (fun h => ?_) fun h => ?_
    · obtain ⟨headers, hbody, -⟩ :=
        ResponseBuilder.body_of_valid status bytes hhit
      have hstatus := h.status_eq
      rw [hbody, ResponseBuilder.body_of_invalid (e := e), lib.status_fromError] at hstatus
      · simp only at hstatus
        omega
      · rw [List.find?_append, hfind, lib.find?_eq_none_of_valid hmiss, Option.none_or]
    · obtain ⟨p, hp, -⟩ := h e hmem
      exact Option.some_ne_none p (hp.symm.trans hnone)
  case inl =>
    rw [SameResponse.iff_of_valid
      (fun h hmem => (List.mem_append.mp hmem).elim (hmiss h) (hadded h)) hhit]
    constructor
    · intro h pair hpair
      obtain ⟨p, hp⟩ := Option.isSome_iff_exists.mp (hadded pair hpair)
      refine ⟨p, hp, or_iff_not_imp_left.mpr fun hname => ?_⟩
      have hsame := h p.1 hname
      rw [lib.setting_append, (setting_added hname (by decide)).1,
        (setting_added hname (by decide)).2] at hsame
      -- The pair itself sets the header.
      cases hset : lib.setting added p.1 with
      | none => exact absurd rfl (lib.setting_eq_none.mp hset pair hpair p hp)
      | some value =>
          rw [hset] at hsame
          exact hsame
    · intro h name hname
      rw [lib.setting_append, (setting_added hname (by decide)).1,
        (setting_added hname (by decide)).2]
      cases hset : lib.setting added name with
      | none => rfl
      | some value =>
          obtain ⟨pair, hpair, p, hp, rfl⟩ : ∃ pair ∈ added, ∃ p ∈ lib.header pair, p.1 = name := by
            by_contra hnone
            push Not at hnone
            exact Option.some_ne_none _ (hset.symm.trans (lib.setting_eq_none.mpr hnone))
          obtain ⟨p', hp', hinert⟩ := h pair hpair
          obtain rfl : p' = p := Option.mem_unique hp' hp
          exact hset.symm.trans (hinert.resolve_left hname)

/-- The response from the cache is the response of the MISS exactly if the rules of the service
have no effect. -/
theorem sameResponse_iff {transform : Option TransformConfig} {requestId duration : String}
    (hge : 200 ≤ r.status) (hlt : r.status < 300) :
    SameResponse (missResponse lib transform requestId duration r)
        (hitResponse lib ⟨r.status, r.headers, r.body⟩) ↔
      RulesInert lib transform r.headers := by
  have hstatus : ∀ default, statusOr default r.status = r.status := fun _ =>
    if_pos ⟨by omega, by omega⟩
  rcases lib.valid_or_invalid r.headers with hvalid | ⟨e, hmem, hnone, hfind⟩
  case inr =>
    refine iff_of_true (sameResponse_of_invalid hfind) fun rules _ hvalid => ?_
    have hgood := hvalid e hmem
    rw [hnone] at hgood
    cases hgood
  case inl =>
    rw [hitResponse_eq, hstatus]
    cases transform with
    | none =>
        refine iff_of_true ?_ fun rules hrules => nomatch hrules
        rw [sameResponse_missResponse_none, intoResponse_eq, hstatus]
        have hsame := sameResponse_added_iff r.body [] hlt hvalid
        rw [List.append_nil] at hsame
        exact hsame.mpr fun h hh => nomatch hh
    | some rules =>
        simp only [missResponse, transformedResponse_eq, hstatus]
        rw [sameResponse_added_iff r.body rules.addResponseHeaders hlt hvalid]
        constructor
        · rintro h _ ⟨⟩ _
          exact h
        · exact fun h => h rules rfl hvalid

end Cached

end XiraNet

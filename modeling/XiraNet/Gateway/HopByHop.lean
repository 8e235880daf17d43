import XiraNet.Gateway.Headers

/-!
# Hop-by-hop headers

The headers that are meant for one connection: eight names, and what a `Connection` header of the
same message nominates. The proxy leaves out the names of fixed lists, one for each path.

* `noHopByHop_iff`: when no such header is passed on.
* `noHopByHop_fails`: a header that `Connection` nominates is sent to the upstream.
-/

namespace XiraNet

/-- The hop-by-hop headers of RFC 7230. -/
def hopByHopHeaders : List String :=
  ["connection", "keep-alive", "proxy-authenticate", "proxy-authorization", "te", "trailer",
    "transfer-encoding", "upgrade"]

/-- An ASCII letter in lower case. -/
def lowerByte (b : UInt8) : UInt8 := if 0x41 ≤ b && b ≤ 0x5a then b + 0x20 else b

/-- The elements of a `Connection` header. -/
def connectionTokens (value : HeaderValue) : List (List UInt8) :=
  (HeaderValue.elements value).map fun token => token.map lowerByte

/-- A header that a `Connection` header among these nominates. -/
def Nominates (headers : HeaderMap) (name : String) : Prop :=
  ∃ value ∈ headers.values "connection", Utf8.encode name ∈ connectionTokens value

instance (headers : HeaderMap) (name : String) : Decidable (Nominates headers name) :=
  List.decidableBEx _ _

/-- A header that is not to be passed on from a message with these headers. -/
def IsHopByHop (headers : HeaderMap) (name : String) : Prop :=
  name ∈ hopByHopHeaders ∨ Nominates headers name

instance (headers : HeaderMap) (name : String) : Decidable (IsHopByHop headers name) :=
  inferInstanceAs (Decidable (_ ∨ _))

namespace Exchange

variable (lib : HttpLib) (x : Exchange)

/-- Neither the request that is sent nor the response that is passed on has a hop-by-hop header. -/
structure NoHopByHop (path : ProxyPath) : Prop where
  request : ∀ hs ∈ x.forwarded lib path, ∀ name, IsHopByHop x.req.headers name →
    hs.values name = []
  response : ∀ hs ∈ x.relayed lib path, ∀ name, IsHopByHop x.resp.headers name →
    hs.values name = []

/-- Outside the list of the path the request has no hop-by-hop header as text, and neither the
proxy nor the rules of the service set one. -/
structure CleanRequest (path : ProxyPath) : Prop where
  copied : ∀ h ∈ x.req.headers, path.skipsRequest h.1 = false → (HeaderValue.toStr h.2).isSome →
    h.1 ∉ x.removedFromRequest lib path → ¬ IsHopByHop x.req.headers h.1
  set : ∀ h ∈ x.setOnRequest lib path, h.1 ∉ x.removedFromRequest lib path →
    ¬ IsHopByHop x.req.headers h.1
  added : ∀ h ∈ x.addedToRequest lib path, ¬ IsHopByHop x.req.headers h.1

/-- Outside the list of the path the response has no hop-by-hop header as text, and the gateway, its
plugins and the rules of the service set none. -/
structure CleanResponse (path : ProxyPath) : Prop where
  copied : ∀ h ∈ x.resp.headers, path.skipsResponse h.1 = false → (HeaderValue.toStr h.2).isSome →
    ¬ IsHopByHop x.resp.headers h.1
  set : ∀ h ∈ x.setOnResponse lib path, ¬ IsHopByHop x.resp.headers h.1
  ids : ∀ name ∈ x.idHeaders path, ¬ IsHopByHop x.resp.headers name

variable {lib x}

/-- A header without a value that is text. -/
theorem textValues_eq_nil_iff {headers : HeaderMap} {name : String} :
    headers.textValues name = [] ↔
      ∀ h ∈ headers, h.1 = name → ¬ (HeaderValue.toStr h.2).isSome := by
  simp only [HeaderMap.textValues, HeaderMap.values, List.filter_eq_nil_iff, List.mem_map,
    List.mem_filter, decide_eq_true_eq]
  constructor
  · exact fun h header hmem hname => h header.2 ⟨header, ⟨hmem, hname⟩, rfl⟩
  · rintro h _ ⟨header, ⟨hmem, hname⟩, rfl⟩
    exact h header hmem hname

/-- Values that are left out in one case. -/
theorem ite_nil_eq_nil_iff {α : Type} {skips : Bool} {values : List α} :
    (if skips = true then [] else values) = [] ↔ skips = true ∨ values = [] := by
  cases skips <;> simp

/-- There is a last one of several values. -/
theorem toList_getLast?_eq_nil_iff {α : Type} {values : List α} :
    values.getLast?.toList = [] ↔ values = [] := by
  rw [Option.toList_eq_nil_iff, List.getLast?_eq_none_iff]

/-- Nothing is sent under a name. -/
theorem forwarded_eq_nil_iff (hreads : lib.Reads x.req.headers) {path : ProxyPath}
    (hsends : x.Sends path) :
    ∃ hs, x.forwarded lib path = some hs ∧ ∀ name, hs.values name = [] ↔
      (x.addedToRequest lib path).values name = [] ∧
        (name ∈ x.removedFromRequest lib path ∨
          (path.skipsRequest name = true ∨ x.req.headers.textValues name = []) ∧
            (x.setOnRequest lib path).values name = []) := by
  by_cases hpath : path = .grpc
  · subst hpath
    obtain ⟨hs, hforwarded, hvalues⟩ := values_forwarded_grpc hreads
    refine ⟨hs, hforwarded, fun name => ?_⟩
    rw [hvalues, ite_nil_eq_nil_iff]
    simp [addedToRequest, removedFromRequest, setOnRequest, HeaderMap.values,
      ProxyPath.skipsRequest]
  · obtain ⟨hs, hforwarded, hvalues⟩ := values_forwarded hreads hpath hsends
    refine ⟨hs, hforwarded, fun name => ?_⟩
    rw [hvalues]
    -- The rules add after they have removed, so what they add is sent in any case.
    cases hadded : (x.addedToRequest lib path).values name with
    | cons value values => simp [List.getLast?_cons]
    | nil =>
        by_cases hremoved : name ∈ x.removedFromRequest lib path
        · simp [hremoved]
        · simp only [List.getLast?_nil, Option.map_none, Option.getD_none, if_neg hremoved,
            toList_getLast?_eq_nil_iff, List.append_eq_nil_iff, ite_nil_eq_nil_iff]
          simp [hremoved]

/-- No hop-by-hop header is sent exactly if none comes from anywhere. -/
theorem cleanRequest_iff (path : ProxyPath) :
    x.CleanRequest lib path ↔ ∀ name, IsHopByHop x.req.headers name →
      (x.addedToRequest lib path).values name = [] ∧
        (name ∈ x.removedFromRequest lib path ∨
          (path.skipsRequest name = true ∨ x.req.headers.textValues name = []) ∧
            (x.setOnRequest lib path).values name = []) := by
  simp only [HeaderMap.values_eq_nil_iff, textValues_eq_nil_iff, List.mem_map, not_exists, not_and]
  constructor
  · rintro ⟨hcopied, hset, hadded⟩ name hhop
    refine ⟨fun h hmem hname => hadded h hmem (hname ▸ hhop), ?_⟩
    by_cases hremoved : name ∈ x.removedFromRequest lib path
    · exact .inl hremoved
    refine .inr ⟨?_, fun h hmem hname => hset h hmem (hname ▸ hremoved) (hname ▸ hhop)⟩
    cases hskips : path.skipsRequest name with
    | true => exact .inl rfl
    | false =>
        refine .inr fun h hmem hname htext => ?_
        subst hname
        exact hcopied h hmem hskips htext hremoved hhop
  · intro hall
    constructor
    case copied =>
      intro h hmem hskips htext hremoved hhop
      obtain ⟨-, hgone | ⟨hskipped | hnone, -⟩⟩ := hall h.1 hhop
      · exact hremoved hgone
      · exact Bool.noConfusion (hskips.symm.trans hskipped)
      · exact hnone h hmem rfl htext
    case set =>
      intro h hmem hremoved hhop
      obtain ⟨-, hgone | ⟨-, hnone⟩⟩ := hall h.1 hhop
      · exact hremoved hgone
      · exact hnone h hmem rfl
    case added => exact fun h hmem hhop => (hall h.1 hhop).1 h hmem rfl

/-- Nothing is passed on under a name. -/
theorem relayed_eq_nil_iff (hreads : lib.Reads x.resp.headers) {path : ProxyPath}
    (hpassed : x.PassedOn lib path) :
    ∃ hs, x.relayed lib path = some hs ∧ ∀ name, hs.values name = [] ↔
      name ∉ x.idHeaders path ∧
        (path.skipsResponse name = true ∨ x.resp.headers.textValues name = []) ∧
          (x.setOnResponse lib path).values name = [] := by
  by_cases hpath : path = .grpc
  · subst hpath
    obtain ⟨hs, hrelayed, hvalues⟩ := values_relayed_grpc hreads hpassed
    refine ⟨hs, hrelayed, fun name => ?_⟩
    rw [hvalues, ite_nil_eq_nil_iff]
    simp [idHeaders, setOnResponse, HeaderMap.values, ProxyPath.skipsResponse]
  · obtain ⟨hs, hrelayed, hvalues⟩ := values_relayed hreads hpath hpassed
    refine ⟨hs, hrelayed, fun name => ?_⟩
    obtain ⟨hid, hother⟩ := hvalues name
    by_cases hmem : name ∈ x.idHeaders path
    · exact iff_of_false (hid hmem) fun h => h.1 hmem
    · rw [hother hmem, toList_getLast?_eq_nil_iff, List.append_eq_nil_iff, ite_nil_eq_nil_iff]
      exact (and_iff_right hmem).symm

/-- No hop-by-hop header is passed on exactly if none comes from anywhere. -/
theorem cleanResponse_iff (path : ProxyPath) :
    x.CleanResponse lib path ↔ ∀ name, IsHopByHop x.resp.headers name →
      name ∉ x.idHeaders path ∧
        (path.skipsResponse name = true ∨ x.resp.headers.textValues name = []) ∧
          (x.setOnResponse lib path).values name = [] := by
  simp only [HeaderMap.values_eq_nil_iff, textValues_eq_nil_iff, List.mem_map, not_exists, not_and]
  constructor
  · rintro ⟨hcopied, hset, hids⟩ name hhop
    refine ⟨fun hmem => hids name hmem hhop, ?_,
      fun h hmem hname => hset h hmem (hname ▸ hhop)⟩
    cases hskips : path.skipsResponse name with
    | true => exact .inl rfl
    | false =>
        refine .inr fun h hmem hname htext => ?_
        subst hname
        exact hcopied h hmem hskips htext hhop
  · intro hall
    constructor
    case copied =>
      intro h hmem hskips htext hhop
      obtain ⟨-, hskipped | hnone, -⟩ := hall h.1 hhop
      · exact Bool.noConfusion (hskips.symm.trans hskipped)
      · exact hnone h hmem rfl htext
    case set => exact fun h hmem hhop => (hall h.1 hhop).2.2 h hmem rfl
    case ids => exact fun name hmem hhop => (hall name hhop).1 hmem

/-- No hop-by-hop header goes through the proxy exactly if the message has none outside the list of
the path, and none is set on the way. -/
theorem noHopByHop_iff (lib : HttpLib) (x : Exchange) (path : ProxyPath)
    (hreq : lib.Reads x.req.headers) (hresp : lib.Reads x.resp.headers) :
    x.NoHopByHop lib path ↔
      (x.Sends path → x.CleanRequest lib path) ∧
        (x.PassedOn lib path → x.CleanResponse lib path) := by
  constructor
  · intro h
    constructor
    · intro hsends
      obtain ⟨hs, hforwarded, hnil⟩ := forwarded_eq_nil_iff hreq hsends
      exact (cleanRequest_iff path).mpr fun name hhop =>
        (hnil name).mp (h.request hs hforwarded name hhop)
    · intro hpassed
      obtain ⟨hs, hrelayed, hnil⟩ := relayed_eq_nil_iff hresp hpassed
      exact (cleanResponse_iff path).mpr fun name hhop =>
        (hnil name).mp (h.response hs hrelayed name hhop)
  · rintro ⟨hrequest, hresponse⟩
    constructor
    case request =>
      intro hs hmem name hhop
      -- A request that is refused sends nothing.
      by_cases hsends : x.Sends path
      · obtain ⟨hs', hforwarded, hnil⟩ := forwarded_eq_nil_iff hreq hsends
        obtain rfl := Option.some.inj (hforwarded.symm.trans hmem)
        exact (hnil name).mpr ((cleanRequest_iff path).mp (hrequest hsends) name hhop)
      · rw [forwarded_eq_none hsends] at hmem
        cases hmem
    case response =>
      intro hs hmem name hhop
      -- An error page has nothing of the upstream.
      by_cases hpassed : x.PassedOn lib path
      · obtain ⟨hs', hrelayed, hnil⟩ := relayed_eq_nil_iff hresp hpassed
        obtain rfl := Option.some.inj (hrelayed.symm.trans hmem)
        exact (hnil name).mpr ((cleanResponse_iff path).mp (hresponse hpassed) name hhop)
      · rw [relayed_eq_none hpassed] at hmem
        cases hmem

/-- An exchange without rules and plugins. -/
def plain (reqHeaders respHeaders : List (String × String)) : Exchange where
  req := ⟨"GET", "/a", "", reqHeaders.map fun h => (h.1, Utf8.encode h.2), some (.v4 10 0 0 1), []⟩
  scheme := "http"
  transform := none
  resp := ⟨200, respHeaders.map fun h => (h.1, Utf8.encode h.2), some []⟩
  pluginHeaders := []
  requestId := "r"
  duration := "1.00ms"

/-- What a client closes its connection with is not passed on. -/
theorem noHopByHop_closing :
    (plain [("connection", "close"), ("te", "trailers"), ("accept", "*/*")]
      [("connection", "keep-alive"), ("etag", "1")]).NoHopByHop .plain .direct := by
  refine (noHopByHop_iff .plain _ .direct (by decide) (by decide)).mpr ⟨fun _ => ?_, fun _ => ?_⟩
  · exact ⟨by decide, by decide, by decide⟩
  · exact ⟨by decide, by decide, by decide⟩

/-- Not every hop-by-hop header is left out: `Connection` nominates one that is sent on. -/
theorem noHopByHop_fails :
    ¬ ∀ (lib : HttpLib) (x : Exchange) (path : ProxyPath), lib.Reads x.req.headers →
      lib.Reads x.resp.headers → x.NoHopByHop lib path := by
  intro hall
  have hclean := (hall .plain (plain [("connection", "close, X-Trace"), ("x-trace", "1")] [])
    .direct (by decide) (by decide)).request _ rfl "x-trace" (by decide)
  exact absurd hclean (by decide)

end Exchange

end XiraNet

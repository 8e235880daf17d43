import XiraNet.Gateway.Accounting

/-!
# Header rules of a service

The rules of `gateway/transform.rs` against what they say: the headers of a message without the
names to remove, overridden by the headers to add. On the request side the rules work on a header
map, on the response side on a response builder that has no way to remove a header.

* `values_applyRequestHeaders`: the request side does what the rules say, for every header list.
* `transforms_exact_iff`: when the response side does, and when an execution of the handler does on
  both sides, with retries or without.
* `transforms_exact_fails`: a header that the rules remove from the response reaches the client.
-/

namespace XiraNet

namespace HttpLib

variable {lib : HttpLib}

/-- The library stores every name in lower case. -/
def StoresLowercase (lib : HttpLib) : Prop :=
  ∀ s name, lib.headerName s = some name → name = Text.toAsciiLowercase s

/-- The conversions of the HTTP library, as they are, store names in lower case. -/
theorem storesLowercase_plain : plain.StoresLowercase := by
  intro s name hname
  simp only [plain, Option.ite_none_right_eq_some, Option.some.injEq] at hname
  exact hname.2.symm

/-- The two parts of a header. -/
theorem header_eq_some (hlower : lib.StoresLowercase) {h : String × String}
    (hvalid : (lib.header h).isSome) :
    ∃ value, lib.headerValue h.2 = some value ∧
      lib.header h = some (Text.toAsciiLowercase h.1, value) := by
  obtain ⟨p, hp⟩ := Option.isSome_iff_exists.mp hvalid
  unfold header at hp ⊢
  cases hname : lib.headerName h.1 with
  | none => simp [hname] at hp
  | some name =>
      cases hvalue : lib.headerValue h.2 with
      | none => simp [hname, hvalue] at hp
      | some value => exact ⟨value, rfl, by rw [hlower _ _ hname]⟩

/-- Among headers with different names, the value of a name is that of the one header. -/
theorem setting_eq_find (hlower : lib.StoresLowercase) {hs : List (String × String)}
    (hvalid : ∀ h ∈ hs, (lib.header h).isSome)
    (hdistinct : hs.Pairwise fun h h' => Text.toAsciiLowercase h.1 ≠ Text.toAsciiLowercase h'.1)
    (name : String) :
    lib.setting hs name =
      (hs.find? fun h => Text.toAsciiLowercase h.1 = name).bind fun h => lib.headerValue h.2 := by
  induction hs with
  | nil => rfl
  | cons h hs ih =>
      obtain ⟨hfirst, hrest⟩ := List.pairwise_cons.mp hdistinct
      have hvalid' : ∀ h' ∈ hs, (lib.header h').isSome :=
        fun h' hmem => hvalid h' (List.mem_cons_of_mem _ hmem)
      obtain ⟨value, hvalue, hheader⟩ := header_eq_some hlower (hvalid h List.mem_cons_self)
      rw [setting_cons, hheader]
      by_cases hname : Text.toAsciiLowercase h.1 = name
      · subst hname
        -- No later header has the same name.
        have hlater : lib.setting hs (Text.toAsciiLowercase h.1) = none := by
          refine lib.setting_eq_none.mpr fun h' hmem p hp => ?_
          obtain ⟨_, -, hheader'⟩ := header_eq_some hlower (hvalid' h' hmem)
          rw [hheader'] at hp
          cases hp
          exact (hfirst h' hmem).symm
        rw [hlater, List.find?_cons_of_pos (by simp), Option.bind_some, hvalue]
        simp
      · rw [List.find?_cons_of_neg (by simpa using hname), ih hvalid' hrest]
        simp [List.lookup_cons, beq_false_of_ne (Ne.symm hname)]

end HttpLib

/-- The values of a header in `headers` without the names of `remove`, overridden by `add`. Names
are compared ignoring case. -/
def overridden (lib : HttpLib) (remove : List String) (add : List (String × String))
    (headers : HeaderMap) (name : String) : List HeaderValue :=
  match add.find? fun h => Text.toAsciiLowercase h.1 = name with
  | some h => (lib.headerValue h.2).toList
  | none => if name ∈ remove.map Text.toAsciiLowercase then [] else headers.values name

namespace TransformConfig

/-- The names and values of the rules are those of headers, and no header is added twice. -/
structure WellFormed (lib : HttpLib) (rules : TransformConfig) : Prop where
  names : ∀ name ∈ rules.removeRequestHeaders ++ rules.removeResponseHeaders,
    (lib.headerName name).isSome
  headers : ∀ h ∈ rules.addRequestHeaders ++ rules.addResponseHeaders, (lib.header h).isSome
  distinctRequest : rules.addRequestHeaders.Pairwise fun h h' =>
    Text.toAsciiLowercase h.1 ≠ Text.toAsciiLowercase h'.1
  distinctResponse : rules.addResponseHeaders.Pairwise fun h h' =>
    Text.toAsciiLowercase h.1 ≠ Text.toAsciiLowercase h'.1

/-- The rules give a header of the response its value. -/
def SetsResponse (rules : TransformConfig) (name : String) : Prop :=
  ∃ h ∈ rules.addResponseHeaders, Text.toAsciiLowercase h.1 = name

/-- The rules remove a header of the response. -/
def RemovesResponse (rules : TransformConfig) (name : String) : Prop :=
  name ∈ rules.removeResponseHeaders.map Text.toAsciiLowercase

instance (rules : TransformConfig) (name : String) : Decidable (rules.SetsResponse name) :=
  inferInstanceAs (Decidable (∃ h ∈ rules.addResponseHeaders, _))

instance (rules : TransformConfig) (name : String) : Decidable (rules.RemovesResponse name) :=
  inferInstanceAs (Decidable (_ ∈ _))

variable {lib : HttpLib} {rules : TransformConfig}

/-- The values that are asked for, with the value that the headers to add give. -/
theorem overridden_eq (hlower : lib.StoresLowercase) {add : List (String × String)}
    (hvalid : ∀ h ∈ add, (lib.header h).isSome)
    (hdistinct : add.Pairwise fun h h' => Text.toAsciiLowercase h.1 ≠ Text.toAsciiLowercase h'.1)
    (remove : List String) (headers : HeaderMap) (name : String) :
    overridden lib remove add headers name =
      ((lib.setting add name).map fun value => [value]).getD
        (if name ∈ remove.map Text.toAsciiLowercase then [] else headers.values name) := by
  rw [HttpLib.setting_eq_find hlower hvalid hdistinct, overridden]
  cases hfind : add.find? fun h => Text.toAsciiLowercase h.1 = name with
  | none => rfl
  | some h =>
      obtain ⟨value, hvalue, -⟩ :=
        HttpLib.header_eq_some hlower (hvalid h (List.mem_of_find?_eq_some hfind))
      simp [hvalue]

/-- The names that the library makes of well-formed names. -/
theorem filterMap_headerName (hlower : lib.StoresLowercase) {names : List String}
    (hvalid : ∀ name ∈ names, (lib.headerName name).isSome) :
    names.filterMap lib.headerName = names.map Text.toAsciiLowercase := by
  induction names with
  | nil => rfl
  | cons name names ih =>
      obtain ⟨stored, hstored⟩ := Option.isSome_iff_exists.mp (hvalid name List.mem_cons_self)
      rw [List.filterMap_cons_some hstored, List.map_cons, hlower _ _ hstored,
        ih fun name' hmem => hvalid name' (List.mem_cons_of_mem _ hmem)]

/-- The rules do to the headers of a request what they say. -/
theorem values_applyRequestHeaders (hlower : lib.StoresLowercase) (hrules : rules.WellFormed lib)
    (headers : HeaderMap) (name : String) :
    (rules.applyRequestHeaders lib headers).values name =
      overridden lib rules.removeRequestHeaders rules.addRequestHeaders headers name := by
  have hadd : ∀ h ∈ rules.addRequestHeaders, (lib.header h).isSome :=
    fun h hmem => hrules.headers h (List.mem_append_left _ hmem)
  have hremove : ∀ name ∈ rules.removeRequestHeaders, (lib.headerName name).isSome :=
    fun name hmem => hrules.names name (List.mem_append_left _ hmem)
  rw [overridden_eq hlower hadd hrules.distinctRequest, applyRequestHeaders,
    HeaderMap.values_insertAll, HeaderMap.values_removeAll, filterMap_headerName hlower hremove,
    HttpLib.setting, HeaderMap.lookup_reverse]

/-- What the rules make of a builder, and what they should. -/
theorem values_applyResponseHeaders (hlower : lib.StoresLowercase) (hrules : rules.WellFormed lib)
    {response : ResponseBuilder} (hresponse : response.error = none) (headers : HeaderMap)
    (name : String) :
    (rules.applyResponseHeaders lib response).headers.values name =
        overridden lib rules.removeResponseHeaders rules.addResponseHeaders headers name ↔
      rules.SetsResponse name ∨
        response.headers.values name =
          if rules.RemovesResponse name then [] else headers.values name := by
  have hadd : ∀ h ∈ rules.addResponseHeaders, (lib.header h).isSome :=
    fun h hmem => hrules.headers h (List.mem_append_right _ hmem)
  rw [overridden_eq hlower hadd hrules.distinctResponse, applyResponseHeaders,
    ResponseBuilder.values_insertHeaders hresponse hadd]
  have hsets : rules.SetsResponse name ↔ lib.setting rules.addResponseHeaders name ≠ none := by
    rw [Ne, lib.setting_eq_none]
    push Not
    refine exists_congr fun h => and_congr_right fun hmem => ?_
    obtain ⟨_, -, hheader⟩ := HttpLib.header_eq_some hlower (hadd h hmem)
    simp [hheader]
  -- A header that the rules set is right whatever stood under its name.
  cases hset : lib.setting rules.addResponseHeaders name with
  | some value => exact iff_of_true rfl (.inl (hsets.mpr (by simp [hset])))
  | none =>
      have hunset : ¬ rules.SetsResponse name := fun h => hsets.mp h hset
      rw [or_iff_right hunset]
      rfl

/-- The rules do to the headers of a response what they say exactly if they remove none of them, or
only such as they set. -/
theorem applyResponseHeaders_exact_iff (hlower : lib.StoresLowercase)
    (hrules : rules.WellFormed lib) {response : ResponseBuilder}
    (hresponse : response.error = none) :
    (∀ name, (rules.applyResponseHeaders lib response).headers.values name =
        overridden lib rules.removeResponseHeaders rules.addResponseHeaders response.headers
          name) ↔
      ∀ h ∈ response.headers, rules.SetsResponse h.1 ∨ ¬ rules.RemovesResponse h.1 := by
  simp only [values_applyResponseHeaders hlower hrules hresponse]
  constructor
  · intro h header hmem
    refine (h header.1).imp_right fun hvalues hremoved => ?_
    rw [if_pos hremoved, HeaderMap.values_eq_nil_iff] at hvalues
    exact hvalues (List.mem_map_of_mem hmem)
  · intro h name
    by_cases hmem : name ∈ response.headers.map Prod.fst
    · obtain ⟨header, hheader, rfl⟩ := List.mem_map.mp hmem
      exact (h header hheader).imp_right fun hkept => (if_neg hkept).symm
    -- A header that is not there is neither removed nor kept.
    · rw [HeaderMap.values_eq_nil_iff.mpr hmem]
      exact .inr (ite_self []).symm

end TransformConfig

/-- The headers of a result as they are to be sent, before the rules of the service: those of the
result, and the two of the gateway in the place of any of their names. -/
def ProxyResult.responseHeaders (lib : HttpLib) (r : ProxyResult) : HeaderMap :=
  HeaderMap.insert (HeaderMap.insert (r.headers.filterMap lib.header) "x-proxied-by"
    (Utf8.encode "XIRA")) "x-cache" (Utf8.encode "MISS")

/-- The builder to which the rules are applied. -/
def ProxyResult.responseBuilder (lib : HttpLib) (r : ProxyResult) : ResponseBuilder :=
  (((ResponseBuilder.build (statusOr 500 r.status)).insertHeaders lib r.headers).insertHeader lib
    ("X-Proxied-By", "XIRA")).insertHeader lib ("X-Cache", "MISS")

/-- A builder keeps the last value of every header. -/
theorem ProxyResult.responseBuilder_spec {lib : HttpLib} {r : ProxyResult}
    (hvalid : ∀ h ∈ r.headers, (lib.header h).isSome) :
    (r.responseBuilder lib).error = none ∧ ∀ name,
      (r.responseBuilder lib).headers.values name =
        (((r.responseHeaders lib).values name).getLast?).toList := by
  have hbuilder : r.responseBuilder lib =
      (ResponseBuilder.build (statusOr 500 r.status)).insertHeaders lib
        (r.headers ++ [("X-Proxied-By", "XIRA"), ("X-Cache", "MISS")]) := by
    rw [ResponseBuilder.insertHeaders_append]
    rfl
  have hall : ∀ h ∈ r.headers ++ [("X-Proxied-By", "XIRA"), ("X-Cache", "MISS")],
      (lib.header h).isSome := by
    intro h hmem
    rcases List.mem_append.mp hmem with hmem | hmem
    · exact hvalid h hmem
    · exact isSome_header_added (List.mem_append_left [("X-Cache", "HIT")] hmem)
  rw [hbuilder]
  constructor
  · rw [ResponseBuilder.error_insertHeaders rfl, lib.find?_eq_none_of_valid hall]
  · intro name
    have hcache : lib.header ("X-Cache", "MISS") = some ("x-cache", Utf8.encode "MISS") :=
      lib.header_xCache (by decide)
    rw [ResponseBuilder.values_insertHeaders rfl hall, HttpLib.setting, HeaderMap.lookup_reverse,
      responseHeaders, HeaderMap.values_insert, HeaderMap.values_insert, List.filterMap_append,
      HeaderMap.values_append]
    simp only [List.filterMap_cons, lib.header_xProxiedBy, hcache, List.filterMap_nil,
      HeaderMap.values_cons]
    -- The gateway's own two headers are the last of their names.
    by_cases hname : name = "x-cache"
    · subst hname
      simp [HeaderMap.values]
    by_cases hname' : name = "x-proxied-by"
    · subst hname'
      simp [HeaderMap.values]
    · have hempty : HeaderMap.values [] name = [] := rfl
      rw [if_neg hname, if_neg hname', if_neg (Ne.symm hname), if_neg (Ne.symm hname'), hempty,
        List.append_nil]
      cases (HeaderMap.values (r.headers.filterMap lib.header) name).getLast? <;> rfl

/-- The rules leave the headers of a result as they should: none of them, those apart that the
rules set, is among those to remove, and none of these occurs twice. -/
def TransformConfig.LeavesResponse (lib : HttpLib) (rules : TransformConfig) (r : ProxyResult) :
    Prop :=
  ∀ h ∈ r.responseHeaders lib, rules.SetsResponse h.1 ∨
    ¬ rules.RemovesResponse h.1 ∧ ((r.responseHeaders lib).values h.1).length = 1

instance (lib : HttpLib) (rules : TransformConfig) (r : ProxyResult) :
    Decidable (rules.LeavesResponse lib r) :=
  inferInstanceAs (Decidable (∀ h ∈ r.responseHeaders lib, _))

/-- The headers on both sides of an execution are what the rules say: every request that is sent to
the upstream, and the response that is sent to the client. -/
structure TransformsExact (u : UpstreamEnv) (rules : TransformConfig) (req : HttpRequest)
    (r : ProxyResult) (handled : Handled) : Prop where
  request : ∀ contact ∈ handled.contacts, ∀ name, contact.headers.values name =
    overridden u.lib rules.removeRequestHeaders rules.addRequestHeaders
      (buildForwardHeaders u.lib u.scheme req) name
  response : ∃ res, handled.response = .relayed res ∧ ∀ name, res.headers.values name =
    overridden u.lib rules.removeResponseHeaders rules.addResponseHeaders
      (r.responseHeaders u.lib) name

/-- The last of some values is all of them if there is just one. -/
theorem getLast?_toList_eq_iff {removed : Prop} [Decidable removed] {values : List HeaderValue} :
    values.getLast?.toList = (if removed then [] else values) ↔
      (values ≠ [] → ¬ removed ∧ values.length = 1) := by
  rcases List.eq_nil_or_concat values with rfl | ⟨before, last, rfl⟩
  · simp
  · rw [List.concat_eq_append, List.getLast?_concat, Option.toList_some]
    by_cases hremoved : removed
    · simp [hremoved]
    · cases before <;> simp [hremoved]

/-- The headers of every request that is sent. -/
theorem UpstreamEnv.headers_of_mem_contacts {u : UpstreamEnv} {maxRetries : ℕ}
    {service : ServiceEntry} {upstream : String} {req : HttpRequest} {contact : UpstreamRequest}
    (h : contact ∈ u.contacts maxRetries service upstream req) :
    contact.headers = u.forwardedHeaders service req := by
  unfold contacts upstreamContacts at h
  split at h
  next =>
    obtain ⟨_, -, rfl⟩ := List.mem_map.mp h
    rfl
  next =>
    split at h
    next => cases h
    next =>
      rw [List.mem_singleton.mp h]

/-- The response with rules has the headers that they should give it exactly if they leave the
headers of the result as they should. -/
theorem transformedResponse_exact_iff {lib : HttpLib} (hlower : lib.StoresLowercase)
    {rules : TransformConfig} (hrules : rules.WellFormed lib) {r : ProxyResult}
    (hvalid : ∀ h ∈ r.headers, (lib.header h).isSome) :
    (∀ name, (transformedResponse lib rules r).headers.values name =
        overridden lib rules.removeResponseHeaders rules.addResponseHeaders (r.responseHeaders lib)
          name) ↔
      rules.LeavesResponse lib r := by
  obtain ⟨herror, hvalues⟩ := ProxyResult.responseBuilder_spec hvalid
  have hadd : ∀ h ∈ rules.addResponseHeaders, (lib.header h).isSome :=
    fun h hmem => hrules.headers h (List.mem_append_right _ hmem)
  -- The builder meets no error, so that the response is built with its headers.
  have herror' : (rules.applyResponseHeaders lib (r.responseBuilder lib)).error = none := by
    rw [TransformConfig.applyResponseHeaders, ResponseBuilder.error_insertHeaders herror,
      lib.find?_eq_none_of_valid hadd]
  have hresponse : (transformedResponse lib rules r).headers =
      (rules.applyResponseHeaders lib (r.responseBuilder lib)).headers := by
    have hbody : transformedResponse lib rules r =
        (rules.applyResponseHeaders lib (r.responseBuilder lib)).body lib r.body := rfl
    rw [hbody, ResponseBuilder.body, herror']
  simp only [hresponse, TransformConfig.values_applyResponseHeaders hlower hrules herror, hvalues,
    getLast?_toList_eq_iff]
  constructor
  · intro h header hmem
    refine (h header.1).imp_right fun hkept => hkept fun hnil => ?_
    exact HeaderMap.values_eq_nil_iff.mp hnil (List.mem_map_of_mem hmem)
  · intro h name
    by_cases hmem : name ∈ (r.responseHeaders lib).map Prod.fst
    · obtain ⟨header, hheader, rfl⟩ := List.mem_map.mp hmem
      exact (h header hheader).imp_right fun hkept _ => hkept
    · exact .inr fun hne => absurd (HeaderMap.values_eq_nil_iff.mpr hmem) hne

/-- For every header list the rules do to a request what they say, and to a response exactly if they
remove none of its headers, or only such as they set. An execution of the handler, with retries or
without, has exact headers on both sides exactly if moreover no header that it does not set comes
twice in the result. -/
theorem transforms_exact_iff (u : UpstreamEnv) (hlower : u.lib.StoresLowercase)
    (rules : TransformConfig) (hrules : rules.WellFormed u.lib) :
    (∀ (headers : HeaderMap) (name : String),
        (rules.applyRequestHeaders u.lib headers).values name =
          overridden u.lib rules.removeRequestHeaders rules.addRequestHeaders headers name) ∧
      (∀ (status : ℕ) (headers : HeaderMap),
        (∀ name, (rules.applyResponseHeaders u.lib ⟨status, headers, none⟩).headers.values name =
            overridden u.lib rules.removeResponseHeaders rules.addResponseHeaders headers name) ↔
          ∀ h ∈ headers, rules.SetsResponse h.1 ∨ ¬ rules.RemovesResponse h.1) ∧
      ∀ (maxRetries : ℕ) (cacheEnabled : Bool) (requestId : String) (service : ServiceEntry)
        (upstream : String) (req : HttpRequest) (r : ProxyResult),
        service.transform = some rules →
        onResponse (u.actions maxRetries service upstream req)
          (u.result maxRetries service upstream req) = .ok r →
        (∀ h ∈ r.headers, (u.lib.header h).isSome) →
        (TransformsExact u rules req r
            (u.complete maxRetries cacheEnabled requestId service upstream req) ↔
          rules.LeavesResponse u.lib r) := by
  refine ⟨TransformConfig.values_applyRequestHeaders hlower hrules, fun status headers => ?_, ?_⟩
  · exact TransformConfig.applyResponseHeaders_exact_iff hlower hrules rfl
  intro maxRetries cacheEnabled requestId service upstream req r htransform hok hvalid
  rw [← transformedResponse_exact_iff hlower hrules hvalid, UpstreamEnv.complete_of_ok hok,
    htransform]
  constructor
  · intro h
    obtain ⟨_, ⟨⟩, hvalues⟩ := h.response
    exact hvalues
  · intro h
    refine ⟨fun contact hcontact name => ?_, _, rfl, h⟩
    rw [UpstreamEnv.headers_of_mem_contacts hcontact, UpstreamEnv.forwardedHeaders, htransform]
    exact TransformConfig.values_applyRequestHeaders hlower hrules _ name

/-- Rules that remove a header of the response and set another. -/
def hidingRules : TransformConfig :=
  ⟨[("X-Api", "2")], ["Cookie"], [("X-Frame-Options", "DENY")], ["Server"]⟩

/-- These rules are well formed. -/
theorem wellFormed_hidingRules : hidingRules.WellFormed .plain :=
  ⟨by decide, by decide, by decide, by decide⟩

/-- A service with these rules. -/
def hidingService : ServiceEntry :=
  { ServiceEntry.new 0 0 "a" "/a" "http://10.0.0.2" "/" with transform := some hidingRules }

/-- The rules are exact for an upstream that does not name its server, with a retry and without. -/
theorem transforms_exact_quiet :
    TransformsExact quietUpstream hidingRules ⟨"GET", "/a", "", [], none, []⟩ ⟨200, [], [], false⟩
        (quietUpstream.complete 1 false "-" hidingService "http://10.0.0.2"
          ⟨"GET", "/a", "", [], none, []⟩) ∧
      TransformsExact quietUpstream hidingRules ⟨"GET", "/a", "", [], none, []⟩
        ⟨200, [], [], false⟩
        (quietUpstream.complete 0 false "-" hidingService "http://10.0.0.2"
          ⟨"GET", "/a", "", [], none, []⟩) :=
  have hexact := (transforms_exact_iff quietUpstream HttpLib.storesLowercase_plain hidingRules
    wellFormed_hidingRules).2.2
  ⟨(hexact 1 false "-" hidingService "http://10.0.0.2" ⟨"GET", "/a", "", [], none, []⟩ _ rfl rfl
      (by decide)).mpr (by decide),
    (hexact 0 false "-" hidingService "http://10.0.0.2" ⟨"GET", "/a", "", [], none, []⟩ _ rfl rfl
      (by decide)).mpr (by decide)⟩

/-- An upstream that names its server. -/
def namedUpstream : UpstreamEnv :=
  { quietUpstream with
    send := fun _ _ => .ok ⟨200, [("server", Utf8.encode "nginx")], some []⟩ }

/-- A header that the rules remove from the response is sent to the client all the same. -/
theorem transforms_exact_fails :
    ¬ ∀ (u : UpstreamEnv), u.lib.StoresLowercase → ∀ (rules : TransformConfig),
      rules.WellFormed u.lib →
      ∀ (maxRetries : ℕ) (cacheEnabled : Bool) (requestId : String) (service : ServiceEntry)
        (upstream : String) (req : HttpRequest) (r : ProxyResult),
        service.transform = some rules →
        onResponse (u.actions maxRetries service upstream req)
          (u.result maxRetries service upstream req) = .ok r →
        (∀ h ∈ r.headers, (u.lib.header h).isSome) →
        TransformsExact u rules req r
          (u.complete maxRetries cacheEnabled requestId service upstream req) := by
  intro hall
  have hexact := hall namedUpstream HttpLib.storesLowercase_plain hidingRules
    wellFormed_hidingRules 0 false "-" hidingService "http://10.0.0.2"
    ⟨"GET", "/a", "", [], none, []⟩ ⟨200, [("server", "nginx")], [], false⟩ rfl rfl (by decide)
  obtain ⟨_, ⟨⟩, hvalues⟩ := hexact.response
  exact absurd (hvalues "server") (by decide)

end XiraNet

import XiraNet.Gateway.CachedResponses

/-!
# Credentials and the response cache

The response cache is shared by all clients, so a response to a request with credentials must not
get into it, and such a request must not be answered from it. Three filters see to that:
`request_is_cacheable`, `response_is_cacheable` and the checks of `ResponseCache::put`.

* `private_iff`: the runs over the requests of a class are all private exactly if the class has no
  `GET` with `X-Session-Token` that `request_is_cacheable` lets pass; the header is one of those by
  which `SessionAuthMiddleware` knows its user, and is not on the list of the filter.
* `cleanHeaders_of_runs`: the headers of what is returned are clean in every run.
-/

namespace XiraNet

/-- The headers by which the program knows the user of a request. -/
def credentialHeaders : List String :=
  ["authorization", "cookie", "proxy-authorization", "x-api-key", "x-session-token"]

/-- The request carries a header of this name, in any case. -/
def HttpRequest.Carries (req : HttpRequest) (name : String) : Prop :=
  ∃ h ∈ req.headers, Text.toAsciiLowercase h.1 = name

/-- The request carries credentials. -/
def HttpRequest.Credentialed (req : HttpRequest) : Prop :=
  ∃ name ∈ credentialHeaders, req.Carries name

/-- A request with the token of a session that the cache takes for an anonymous one. -/
def HttpRequest.PassesAsAnonymous (req : HttpRequest) : Prop :=
  req.method = "GET" ∧ Gateway.requestIsCacheable req = true ∧ req.Carries "x-session-token"

/-- Headers that may be sent to anyone. -/
structure CleanHeaders (headers : List (String × String)) : Prop where
  setCookie : ∀ h ∈ headers, Text.toAsciiLowercase h.1 ≠ "set-cookie"
  cacheControl : ∀ h ∈ headers, Text.toAsciiLowercase h.1 = "cache-control" →
    ∀ directive ∈ ["no-store", "private", "no-cache"],
      Text.contains (Text.toAsciiLowercase h.2) directive = false
  vary : ∀ name ∈ ["cookie", "authorization", "*"], ¬ VaryLists headers name

/-- An answer from the cache that no one's credentials had a part in. -/
structure CacheAnswer.Private (a : CacheAnswer) : Prop where
  request : ¬ a.request.Credentialed
  origin : ∃ o, a.origin = some o ∧ o.entry.reply = a.reply ∧ ¬ o.execution.request.Credentialed
  headers : CleanHeaders a.reply.headers

/-- Without a session token, a request that passes the filter has no credentials. -/
theorem HttpRequest.not_credentialed {req : HttpRequest}
    (hcacheable : Gateway.requestIsCacheable req = true)
    (htoken : ¬ req.Carries "x-session-token") : ¬ req.Credentialed := by
  rintro ⟨name, hname, h, hmem, rfl⟩
  have hpass := List.all_eq_true.mp hcacheable h hmem
  have hlisted : Text.toAsciiLowercase h.1 ∉
      ["authorization", "cookie", "proxy-authorization", "x-api-key", "upgrade", "range"] := by
    simp only [Bool.and_eq_true, decide_eq_true_eq] at hpass
    exact hpass.1
  simp only [credentialHeaders, List.mem_cons, List.not_mem_nil, or_false] at hname hlisted
  -- The list of the filter has every name of a credential but one.
  refine htoken ⟨h, hmem, ?_⟩
  grind

namespace SharedCache

variable {lib : HttpLib} {s s' : SharedCache} {a : CacheAction}

/-- Every answer from the cache is private. -/
def Private (s : SharedCache) : Prop := ∀ answer ∈ s.answered, answer.Private

/-- A step that serves only requests of a class. -/
def Serves (allowed : HttpRequest → Prop) (_ : SharedCache) : CacheAction → Prop
  | .arrive _ e => allowed e.request
  | _ => True

/-- The response was not stored for a request with a session token. -/
def StoredWithoutToken (o : StoredResponse) : Prop :=
  ¬ o.execution.request.Carries "x-session-token"

/-- The two filters on responses leave clean headers. -/
theorem Genuine.cleanHeaders {key : String} {o : StoredResponse} (ho : Genuine lib key o) :
    CleanHeaders o.result.headers := by
  obtain ⟨-, -, hresponse⟩ := GatewayExecution.of_storeKey_eq_some ho.storeKey_eq
  have hpass := fun h hmem => List.all_eq_true.mp hresponse h hmem
  simp only [Bool.and_eq_true, Bool.not_eq_true', Bool.and_eq_false_iff, decide_eq_false_iff_not]
    at hpass
  constructor
  case setCookie => exact fun h hmem => (hpass h hmem).1.1
  case cacheControl =>
    intro h hmem hname directive hdirective
    have hvalue := (hpass h hmem).1.2.resolve_left (not_not.mpr hname)
    simp only [Gateway.cacheControlDisablesStorage, Bool.or_eq_false_iff] at hvalue
    simp only [List.mem_cons, List.not_mem_nil, or_false] at hdirective
    -- The filter looks for each of the three directives.
    obtain rfl | rfl | rfl := hdirective
    · exact hvalue.1.1
    · exact hvalue.1.2
    · exact hvalue.2
  case vary =>
    intro name hname hlists
    exact ho.storable.vary name (by grind) (mem_extractVary.mpr hlists)

/-- What a step does to the answers and to the executions under way: an execution that arrives is
answered or goes on, and nothing else adds to either. -/
theorem answered_pending_step (h : step lib s a = some s') :
    (∃ now e, a = .arrive now e ∧
        ((∃ reply, (e.lookup now s.cache).1 = some reply ∧
            s'.answered = ⟨e.request, reply, e.cacheKey.bind s.origin⟩ :: s.answered ∧
              s'.pending = s.pending) ∨
          (s'.answered = s.answered ∧ s'.pending = s.pending ++ [e]))) ∨
      (s'.answered = s.answered ∧ s'.pending ⊆ s.pending) := by
  cases a with
  | arrive now e =>
      refine .inl ⟨now, e, rfl, ?_⟩
      simp only [step] at h
      split at h
      next reply cache hlookup =>
        cases h
        exact .inl ⟨reply, congrArg Prod.fst hlookup, rfl, rfl⟩
      next =>
        cases h
        exact .inr ⟨rfl, rfl⟩
  | finish now i duration actions result =>
      simp only [step] at h
      split at h
      next => cases h
      next =>
        cases h
        exact .inr ⟨rfl, fun _ => List.mem_of_mem_eraseIdx⟩
  | get now key headers =>
      cases h
      exact .inr ⟨rfl, List.Subset.refl _⟩
  | setEnabled enabled =>
      cases h
      exact .inr ⟨rfl, List.Subset.refl _⟩
  | setTtlSecs ttlSecs =>
      cases h
      exact .inr ⟨rfl, List.Subset.refl _⟩
  | clear =>
      cases h
      exact .inr ⟨rfl, List.Subset.refl _⟩

/-- What the answer to an execution is, when the cache holds nothing but good responses. -/
theorem lookup_of_holds {Good : StoredResponse → Prop} (hs : s.Holds lib Good) {now : Instant}
    {e : GatewayExecution} {reply : CachedReply} (h : (e.lookup now s.cache).1 = some reply) :
    ∃ key o, e.cacheKey = some key ∧ s.origin key = some o ∧ o.entry.reply = reply ∧
      Genuine lib key o ∧ Good o := by
  unfold GatewayExecution.lookup at h
  cases hkey : e.cacheKey with
  | none =>
      rw [hkey] at h
      cases h
  | some key =>
      rw [hkey] at h
      obtain ⟨-, entry, hpeek, -, -, rfl⟩ := ResponseCache.get_eq_some.mp h
      obtain ⟨o, horigin, rfl, hgenuine, hgood⟩ := hs key entry hpeek
      exact ⟨key, o, rfl, horigin, rfl, hgenuine, hgood⟩

/-- What holds in the runs over a class of requests. -/
structure TokenFree (lib : HttpLib) (allowed : HttpRequest → Prop) (s : SharedCache) : Prop where
  holds : s.Holds lib StoredWithoutToken
  pending : ∀ e ∈ s.pending, allowed e.request
  answered : s.Private

/-- A step that serves a class without such requests keeps the answers private. -/
theorem tokenFree_step {allowed : HttpRequest → Prop}
    (hallowed : ∀ req, allowed req → ¬ req.PassesAsAnonymous) (hs : s.TokenFree lib allowed)
    (hserves : Serves allowed s a) (h : step lib s a = some s') : s'.TokenFree lib allowed := by
  have htoken : ∀ e : GatewayExecution, ∀ key, allowed e.request → e.cacheKey = some key →
      ¬ e.request.Carries "x-session-token" := by
    intro e key he hkey hcarries
    obtain ⟨hget, hcacheable, -⟩ := GatewayExecution.of_cacheKey_eq_some hkey
    exact hallowed _ he ⟨hget, hcacheable, hcarries⟩
  have hanonymous : ∀ e : GatewayExecution, ∀ key, e.cacheKey = some key →
      ¬ e.request.Carries "x-session-token" → ¬ e.request.Credentialed := fun e key hkey =>
    HttpRequest.not_credentialed (GatewayExecution.of_cacheKey_eq_some hkey).2.1
  constructor
  case holds =>
    refine holds_step hs.holds (fun p hp => ?_) h
    -- The execution that stores a response was under way before.
    cases a with
    | finish now i duration actions result =>
        obtain ⟨e, he, hoffered⟩ := Option.bind_eq_some_iff.mp hp
        obtain ⟨hgenuine, -, ⟨hexecution, -⟩, -⟩ := offered_spec hoffered
        have hkey := (GatewayExecution.of_storeKey_eq_some hgenuine.storeKey_eq).1
        rw [hexecution] at hkey
        unfold StoredWithoutToken
        rw [hexecution]
        exact htoken e p.1 (hs.pending e (List.mem_of_getElem? he)) hkey
    | arrive now e => cases hp
    | get now key headers => cases hp
    | setEnabled enabled => cases hp
    | setTtlSecs ttlSecs => cases hp
    | clear => cases hp
  case pending =>
    obtain ⟨now, e, rfl, ⟨reply, -, -, hpending⟩ | ⟨-, hpending⟩⟩ | ⟨-, hpending⟩ :=
      answered_pending_step h
    · exact hpending ▸ hs.pending
    · rw [hpending]
      intro e' he'
      -- The execution that has just arrived is one of the class.
      obtain hold | hnew := List.mem_append.mp he'
      · exact hs.pending e' hold
      · exact List.mem_singleton.mp hnew ▸ hserves
    · exact fun e' he' => hs.pending e' (hpending he')
  case answered =>
    obtain ⟨now, e, rfl, ⟨reply, hlookup, hanswered, -⟩ | ⟨hanswered, -⟩⟩ | ⟨hanswered, -⟩ :=
      answered_pending_step h
    case inr =>
      intro answer hanswer
      exact hs.answered answer (hanswered ▸ hanswer)
    case inl.inr =>
      intro answer hanswer
      exact hs.answered answer (hanswered ▸ hanswer)
    case inl.inl =>
      intro answer hanswer
      rw [hanswered] at hanswer
      obtain rfl | hold := List.mem_cons.mp hanswer
      case inr => exact hs.answered answer hold
      case inl =>
        -- A hit: both the request and the one of the stored response passed the filter.
        obtain ⟨key, o, hkey, horigin, hreply, hgenuine, hgood⟩ := lookup_of_holds hs.holds hlookup
        have hstored := (GatewayExecution.of_storeKey_eq_some hgenuine.storeKey_eq).1
        exact {
          request := hanonymous e key hkey (htoken e key hserves hkey)
          origin := ⟨o, by rw [hkey]; exact horigin, hreply, hanonymous _ key hstored hgood⟩
          headers := hreply ▸ hgenuine.cleanHeaders }

/-- At the start nothing has been answered. -/
theorem tokenFree_new (allowed : HttpRequest → Prop) (maxEntries ttlSecs : ℕ) (enabled : Bool) :
    (new maxEntries ttlSecs enabled).TokenFree lib allowed where
  holds := holds_new maxEntries ttlSecs enabled
  pending := fun _ he => nomatch he
  answered := fun _ ha => nomatch ha

/-- What is returned from the cache has clean headers, in every run. -/
theorem cleanHeaders_of_runs (lib : HttpLib) (maxEntries ttlSecs : ℕ) (enabled : Bool)
    {as : List CacheAction} {s : SharedCache}
    (hrun : (machine lib).Runs Machine.unrestricted (new maxEntries ttlSecs enabled) as s) :
    s.EveryHit fun _ _ reply => CleanHeaders reply.headers := by
  have hholds : s.Holds lib fun _ => True := by
    refine hrun.invariant (I := Holds lib fun _ => True) ?_ (holds_new maxEntries ttlSecs enabled)
    exact fun _ _ _ ht _ hst => holds_step ht (fun _ _ => trivial) hst
  exact everyHit_of_holds (fun _ _ ho _ _ _ => ho.cleanHeaders) hholds

/-- An execution that finds its answer in the cache. -/
theorem step_arrive_of_hit (lib : HttpLib) {now : Instant} {e : GatewayExecution}
    {reply : CachedReply} (h : (e.lookup now s.cache).1 = some reply) :
    ∃ cache, step lib s (.arrive now e) = some { s with
      cache
      answered := ⟨e.request, reply, e.cacheKey.bind s.origin⟩ :: s.answered } := by
  unfold step
  dsimp only
  split
  next found cache hlookup =>
    rw [hlookup] at h
    cases h
    exact ⟨cache, rfl⟩
  next cache hlookup =>
    rw [hlookup] at h
    cases h

/-- A request for the path of a response that was stored is answered with it. -/
theorem exists_runs_answered (lib : HttpLib) {ok : SharedCache → CacheAction → Prop}
    {e e' : GatewayExecution} {key : String}
    (hstore : e.storeKey (apiResult []) = some key) (hkey : e'.cacheKey = some key)
    (maxEntries ttlSecs : ℕ) (enabled : Bool)
    (hsettings : ∀ t, ok t (.setEnabled true) ∧ ok t (.setTtlSecs 1))
    (harrive : ∀ t, ok t (.arrive 0 e) ∧ ok t (.arrive 0 e'))
    (hfinish : ∀ t, ok t (.finish 0 0 "" [] (apiResult []))) :
    ∃ s, (machine lib).Runs ok (new maxEntries ttlSecs enabled)
        (storeRun e (apiResult []) ++ [.arrive 0 e']) s ∧
      ∃ answer ∈ s.answered, answer.request = e'.request ∧
        ∃ o, answer.origin = some o ∧ o.execution = e := by
  have hlookup : (e'.lookup 0 (afterStoreRun lib maxEntries e (apiResult []) key).cache).1 =
      some ⟨200, [], []⟩ := by
    unfold GatewayExecution.lookup
    rw [hkey]
    exact get_afterStoreRun lib maxEntries e (apiResult []) key rfl
  -- The key is all that the two requests have to share.
  obtain ⟨cache, hstep⟩ := step_arrive_of_hit lib hlookup
  have hrun : (machine lib).Runs ok _ _ (afterStoreRun lib maxEntries e (apiResult []) key) :=
    runs_storeRun key maxEntries ttlSecs enabled hstore (by decide) hsettings
      (fun t => (harrive t).1) fun t _ => hfinish t
  refine ⟨_, hrun.append (.cons (harrive _).2 hstep (.nil _)), _, List.mem_cons_self, rfl, ?_⟩
  rw [hkey]
  exact ⟨_, List.lookup_cons_self, rfl⟩

/-- The runs over the requests of a class are all private exactly if the class has no request with
the token of a session that the cache takes for an anonymous one. -/
theorem private_iff (lib : HttpLib) (allowed : HttpRequest → Prop) (maxEntries ttlSecs : ℕ)
    (enabled : Bool) :
    (∀ as s, (machine lib).Runs (Serves allowed) (new maxEntries ttlSecs enabled) as s →
        s.Private) ↔
      ∀ req, allowed req → ¬ req.PassesAsAnonymous := by
  constructor
  · intro h req hreq hpasses
    obtain ⟨hget, hcacheable, hcarries⟩ := hpasses
    -- The request comes twice.
    have hkey : GatewayExecution.cacheKey ⟨req, bareService, "", true⟩ =
        some (Gateway.makeKey "GET" req.path req.query) := if_pos ⟨hget, rfl, hcacheable⟩
    have hstore : GatewayExecution.storeKey ⟨req, bareService, "", true⟩ (apiResult []) =
        some (Gateway.makeKey "GET" req.path req.query) :=
      (if_pos ⟨hget, rfl, by decide, by decide, rfl⟩).trans hkey
    have hserves : ∀ t, Serves allowed t (.finish 0 0 "" [] (apiResult [])) := fun _ => trivial
    obtain ⟨s, hrun, answer, hmem, hrequest, -⟩ := exists_runs_answered lib hstore hkey
      maxEntries ttlSecs enabled (fun _ => ⟨trivial, trivial⟩) (fun _ => ⟨hreq, hreq⟩) hserves
    refine (h _ s hrun answer hmem).request ?_
    rw [hrequest]
    exact ⟨"x-session-token", by decide, hcarries⟩
  · intro hallowed as s hrun
    have htokenFree : s.TokenFree lib allowed :=
      hrun.invariant (fun _ _ _ ht hok hst => tokenFree_step hallowed ht hok hst)
        (tokenFree_new allowed maxEntries ttlSecs enabled)
    exact htokenFree.answered

/-- An execution for a request with the token of a session. -/
def tokenExecution : GatewayExecution :=
  apiExecution bareService [("x-session-token", Utf8.encode "t")]

/-- The response to a request with the token of a session is returned to a request without one. -/
theorem private_fails :
    ∃ s, (machine .plain).Runs Machine.unrestricted (new 16 60 true)
        (storeRun tokenExecution (apiResult []) ++ [.arrive 0 (apiExecution bareService [])]) s ∧
      ¬ s.Private := by
  have hstore : tokenExecution.storeKey (apiResult []) = some "GET:/api" := by decide
  have hkey : (apiExecution bareService []).cacheKey = some "GET:/api" := by decide
  have hunrestricted : ∀ t : SharedCache,
      Machine.unrestricted t (CacheAction.finish 0 0 "" [] (apiResult [])) := fun _ => trivial
  obtain ⟨s, hrun, answer, hmem, -, o, horigin, hexecution⟩ :=
    exists_runs_answered .plain hstore hkey 16 60 true (fun _ => ⟨trivial, trivial⟩)
      (fun _ => ⟨trivial, trivial⟩) hunrestricted
  refine ⟨s, hrun, fun hprivate => ?_⟩
  obtain ⟨o', horigin', -, hanonymous⟩ := (hprivate answer hmem).origin
  obtain rfl : o = o' := Option.some.inj (horigin.symm.trans horigin')
  rw [hexecution] at hanonymous
  exact hanonymous ⟨"x-session-token", by decide, _, List.mem_singleton_self _, by decide⟩

end SharedCache

end XiraNet

import Mathlib.Data.Nat.Find
import XiraNet.Gateway.Proxy

/-!
# Retries

`RetryPolicy` of `gateway/retry.rs` and the branch of `gateway_handler` that goes through it, beside
the branch through `forward_request_raw_with_headers`. The attempts are numbered, and an upstream
may behave differently on each. The pauses between attempts are left out.

* `execute_eq`: the outcome of a retried request is that of the attempt that decides.
* `proxyWithRetries_eq_iff`: when the two branches give the same result.
-/

namespace XiraNet

/-- `StatusCode::is_server_error`. -/
def isServerError (status : ℕ) : Bool := 500 ≤ status && status < 600

namespace RetryPolicy

/-- `method_is_retryable`. -/
def methodIsRetryable (method : String) : Bool := method ∈ ["GET", "HEAD", "OPTIONS"]

/-- `is_request_retryable`. -/
def isRequestRetryable (method : String) (headers : HeaderMap) : Bool :=
  methodIsRetryable method ||
    (method ∈ ["PUT", "DELETE"] &&
      (headers.any (fun h => h.1 = "idempotency-key") ||
        headers.any fun h => h.1 = "x-idempotency-key"))

/-- The loop of `execute`, with the number of attempts that are left after this one. -/
def executeLoop (retryableMethod : Bool) (send : ℕ → SendOutcome) : ℕ → ℕ → SendOutcome
  -- Whatever the last attempt brings is returned.
  | 0, attempt => send attempt
  | left + 1, attempt =>
      match send attempt with
      | .ok resp =>
          if retryableMethod && isServerError resp.status then
            executeLoop retryableMethod send left (attempt + 1)
          else .ok resp
      | .error e =>
          if retryableMethod && (e.isConnect || e.isTimeout) then
            executeLoop retryableMethod send left (attempt + 1)
          else .error e

/-- `execute`. -/
def execute (maxRetries : ℕ) (send : ℕ → UpstreamRequest → SendOutcome)
    (request : UpstreamRequest) : SendOutcome :=
  executeLoop (isRequestRetryable request.method request.headers)
    (fun attempt => send attempt request) maxRetries 0

/-- An outcome that may be retried: an error of the server, or no connection in time. -/
def worthRetrying : SendOutcome → Bool
  | .ok resp => isServerError resp.status
  | .error e => e.isConnect || e.isTimeout

/-- Attempt `n` decides: the attempts before it were retried, and it is not, because it is the last
one or needs no retry. -/
structure Decides (maxRetries : ℕ) (retryable : Bool) (outcome : ℕ → SendOutcome) (n : ℕ) :
    Prop where
  le_maxRetries : n ≤ maxRetries
  retried : ∀ m < n, (retryable && worthRetrying (outcome m)) = true
  final : n < maxRetries → (retryable && worthRetrying (outcome n)) = false

/-- After a first attempt that is retried, the rest of the loop decides one attempt earlier. -/
theorem Decides.next {retryable : Bool} {send : ℕ → SendOutcome} {left attempt n : ℕ}
    (h : Decides (left + 1) retryable (fun m => send (attempt + m)) (n + 1)) :
    Decides left retryable (fun m => send (attempt + 1 + m)) n := by
  have hshift : ∀ m, attempt + 1 + m = attempt + (m + 1) := by omega
  constructor
  case le_maxRetries => exact Nat.le_of_succ_le_succ h.le_maxRetries
  case retried =>
    intro m hm
    simpa only [hshift] using h.retried (m + 1) (Nat.succ_lt_succ hm)
  case final =>
    intro hn
    simpa only [hshift] using h.final (Nat.succ_lt_succ hn)

/-- One round of the loop. -/
theorem executeLoop_succ (retryable : Bool) (send : ℕ → SendOutcome) (left attempt : ℕ) :
    executeLoop retryable send (left + 1) attempt =
      if retryable && worthRetrying (send attempt) then
        executeLoop retryable send left (attempt + 1)
      else send attempt := by
  rw [executeLoop]
  cases send attempt <;> rfl

/-- The loop ends with the outcome of the attempt that decides. -/
theorem executeLoop_eq {retryable : Bool} {send : ℕ → SendOutcome} {left attempt n : ℕ}
    (h : Decides left retryable (fun m => send (attempt + m)) n) :
    executeLoop retryable send left attempt = send (attempt + n) := by
  induction left generalizing attempt n with
  | zero =>
      obtain rfl := Nat.le_zero.mp h.le_maxRetries
      rfl
  | succ left ih =>
      rw [executeLoop_succ]
      cases n with
      -- This attempt decides: there are more left, so it needs no retry.
      | zero => rw [if_neg (by simpa using h.final (Nat.succ_pos _)), Nat.add_zero]
      | succ n =>
          -- This attempt is retried, and the rest of the loop decides at `n`.
          rw [if_pos (by simpa using h.retried 0 (Nat.succ_pos _))]
          rw [ih h.next]
          congr 1
          omega

/-- Some attempt decides. -/
theorem exists_decides (maxRetries : ℕ) (retryable : Bool) (outcome : ℕ → SendOutcome) :
    ∃ n, Decides maxRetries retryable outcome n := by
  -- The first attempt that is not retried, or the last one.
  by_cases hall : ∀ m < maxRetries, (retryable && worthRetrying (outcome m)) = true
  · exact ⟨maxRetries, le_refl _, hall, fun h => absurd h (lt_irrefl _)⟩
  · push Not at hall
    have hfirst := Nat.find_spec hall
    refine ⟨Nat.find hall, hfirst.1.le, fun m hm => ?_, fun _ => Bool.eq_false_iff.mpr hfirst.2⟩
    by_contra hretry
    exact Nat.find_min hall hm ⟨hm.trans hfirst.1, hretry⟩

/-- A retried request ends with the outcome of the attempt that decides. -/
theorem execute_eq {maxRetries n : ℕ} {send : ℕ → UpstreamRequest → SendOutcome}
    {request : UpstreamRequest}
    (h : Decides maxRetries (isRequestRetryable request.method request.headers)
      (fun m => send m request) n) :
    execute maxRetries send request = send n request := by
  have hloop : executeLoop (isRequestRetryable request.method request.headers)
      (fun m => send m request) maxRetries 0 = send (0 + n) request :=
    executeLoop_eq (by simpa only [Nat.zero_add] using h)
  rwa [Nat.zero_add] at hloop

end RetryPolicy

/-- The method of the request that is sent with retries: one that is not forwarded counts as
`GET`. -/
def reqMethod (method : String) : String :=
  if method ∈ Gateway.forwardedMethods then method else "GET"

/-- The headers that the retry branch does not pass on. -/
def retrySkipHeaders : List String :=
  ["host", "connection", "transfer-encoding", "keep-alive", "upgrade"]

/-- The result that the retry branch makes of an outcome. -/
def retryResult : SendOutcome → ProxyResult
  | .ok resp =>
      { status := resp.status
        headers := relayedHeaders retrySkipHeaders resp.headers
        body := resp.body.getD []
        isError := false }
  | .error e =>
      .ofError 502 [("detail", e.text), ("error", "Service unavailable after retries")]

/-- The branch of `gateway_handler` through `RetryPolicy::execute`. -/
def proxyWithRetries (maxRetries : ℕ) (send : ℕ → UpstreamRequest → SendOutcome)
    (req : HttpRequest) (downstreamUrl : String) (forwardedHeaders : HeaderMap) : ProxyResult :=
  retryResult (RetryPolicy.execute maxRetries send
    ⟨reqMethod req.method, downstreamUrl, forwardedHeaders, forwardedBody req.body⟩)

/-- The contact of `gateway_handler` with an upstream. -/
def proxyRequest (maxRetries : ℕ) (send : ℕ → UpstreamRequest → SendOutcome) (req : HttpRequest)
    (downstreamUrl : String) (forwardedHeaders : HeaderMap) : ProxyResult :=
  if 0 < maxRetries ∧ RetryPolicy.methodIsRetryable (reqMethod req.method) then
    proxyWithRetries maxRetries send req downstreamUrl forwardedHeaders
  else forwardRequestRawWithHeaders (send 0) req downstreamUrl forwardedHeaders

/-- The headers that only the direct branch leaves out. -/
def directSkipHeaders : List String := ["te", "proxy-authorization", "proxy-connection"]

/-- A response on which the two branches agree: its body can be read, and it has none of the
headers, as text, that only the direct branch leaves out. -/
structure RelayedAlike (resp : UpstreamResponse) : Prop where
  body : resp.body ≠ none
  headers : ∀ h ∈ resp.headers, h.1 ∈ directSkipHeaders → HeaderValue.toStr h.2 = none

/-- Leaving elements out makes no difference exactly if nothing comes of them. -/
theorem filterMap_filter_eq_iff {α β : Type} (f : α → Option β) (p : α → Bool) (l : List α) :
    (l.filter p).filterMap f = l.filterMap f ↔ ∀ x ∈ l, p x = false → f x = none := by
  induction l with
  | nil => simp
  | cons x l ih =>
      have hsublist : ((l.filter p).filterMap f).Sublist (l.filterMap f) :=
        List.filter_sublist.filterMap f
      rw [List.forall_mem_cons, ← ih]
      cases hp : p x with
      | true => cases hf : f x <;> simp [hp, hf]
      | false =>
          cases hf : f x with
          | none => simp [hp, hf]
          | some y =>
              -- Something comes of an element that is left out, so one list is shorter.
              have hlength := hsublist.length_le
              refine iff_of_false (fun h => ?_) (by simp)
              have := congrArg List.length h
              simp [hp, hf] at this
              omega

/-- When a longer list of headers to leave out makes no difference. -/
theorem relayedHeaders_append_eq_iff {skip more : List String} {headers : HeaderMap}
    (hdisjoint : ∀ name ∈ more, name ∉ skip) :
    relayedHeaders skip headers = relayedHeaders (skip ++ more) headers ↔
      ∀ h ∈ headers, h.1 ∈ more → HeaderValue.toStr h.2 = none := by
  have hsplit : (headers.filter fun h => h.1 ∉ skip ++ more) =
      (headers.filter fun h => h.1 ∉ skip).filter fun h => h.1 ∉ more := by
    rw [List.filter_filter]
    apply List.filter_congr
    intro h _
    simp [Bool.and_comm]
  unfold relayedHeaders HeaderMap.texts
  rw [hsplit, eq_comm, filterMap_filter_eq_iff]
  constructor
  · intro h header hmem hmore
    have hkept : header ∈ headers.filter fun h => h.1 ∉ skip :=
      List.mem_filter.mpr ⟨hmem, by simpa using hdisjoint _ hmore⟩
    simpa using h header hkept (by simpa using hmore)
  · intro h header hmem hmore
    simpa using h header (List.mem_of_mem_filter hmem) (by simpa using hmore)

/-- The two branches tell of a failure in different words. -/
theorem retryBody_ne (text : String) :
    Json.textObject [("detail", text), ("error", "Service unavailable after retries")] ≠
      Json.textObject [("error", "Service unavailable")] := by
  -- The names of the first fields differ in the first letter.
  have hdetail : (Json.textObject [("detail", text),
      ("error", "Service unavailable after retries")])[2]? = some 100 := by
    simp only [Json.textObject, Utf8.encode, String.toList_ofList, List.map_cons,
      List.intercalate_cons_cons]
    rfl
  intro h
  rw [h] at hdetail
  exact absurd hdetail (by decide)

/-- The retry branch never gives the result for a method that is not supported. -/
theorem retryResult_ne_notSupported (outcome : SendOutcome) :
    retryResult outcome ≠ .ofError 405 [("error", "Method not supported")] := by
  intro h
  cases outcome with
  | ok resp =>
      have herror := congrArg ProxyResult.isError h
      simp [retryResult, ProxyResult.ofError] at herror
  | error e =>
      have hstatus := congrArg ProxyResult.status h
      simp [retryResult, ProxyResult.ofError] at hstatus

/-- When the two branches make the same result of an outcome. -/
theorem retryResult_eq_directResult_iff (outcome : SendOutcome) :
    retryResult outcome = directResult outcome ↔
      ∃ resp, outcome = .ok resp ∧ RelayedAlike resp := by
  cases outcome with
  | error e =>
      refine iff_of_false (fun h => ?_) fun ⟨_, hresp, _⟩ => nomatch hresp
      -- Both answer 502, but not with the same text.
      simp only [retryResult, directResult, ProxyResult.ofError, ProxyResult.mk.injEq] at h
      exact retryBody_ne e.text h.2.2.1
  | ok resp =>
      obtain ⟨status, headers, body⟩ := resp
      cases body with
      | none =>
          -- The retry branch passes an empty body on, the direct branch an error.
          refine iff_of_false (fun h => ?_) ?_
          · have herror := congrArg ProxyResult.isError h
            simp [retryResult, directResult, ProxyResult.ofError] at herror
          · rintro ⟨_, ⟨⟩, halike⟩
            exact halike.body rfl
      | some bytes =>
          -- Only the headers are left to compare, and the lists of what is not passed on differ.
          have hskip : skipHeaders = retrySkipHeaders ++ directSkipHeaders := rfl
          simp only [retryResult, directResult, Option.getD_some, ProxyResult.mk.injEq, true_and,
            and_true, hskip]
          rw [relayedHeaders_append_eq_iff (by decide)]
          constructor
          · exact fun h => ⟨_, rfl, Option.some_ne_none _, h⟩
          · rintro ⟨_, ⟨⟩, halike⟩
            exact halike.headers

/-- The two branches give the same result exactly if the method is one that is forwarded, and the
attempt that decides brings a response that both pass on alike. -/
theorem proxyWithRetries_eq_iff {maxRetries n : ℕ} {send : ℕ → UpstreamRequest → SendOutcome}
    {req : HttpRequest} {downstreamUrl : String} {forwardedHeaders : HeaderMap}
    (hdecides : RetryPolicy.Decides maxRetries
      (RetryPolicy.isRequestRetryable (reqMethod req.method) forwardedHeaders)
      (fun m => send m
        ⟨reqMethod req.method, downstreamUrl, forwardedHeaders, forwardedBody req.body⟩) n) :
    proxyWithRetries maxRetries send req downstreamUrl forwardedHeaders =
        forwardRequestRawWithHeaders (send n) req downstreamUrl forwardedHeaders ↔
      req.method ∈ Gateway.forwardedMethods ∧
        ∃ resp, send n
            ⟨req.method, downstreamUrl, forwardedHeaders, forwardedBody req.body⟩ = .ok resp ∧
          RelayedAlike resp := by
  unfold proxyWithRetries forwardRequestRawWithHeaders
  rw [RetryPolicy.execute_eq hdecides]
  by_cases hmethod : req.method ∈ Gateway.forwardedMethods
  case neg =>
    -- The direct branch does not contact the upstream.
    rw [if_pos hmethod]
    exact iff_of_false (retryResult_ne_notSupported _) fun h => hmethod h.1
  case pos =>
    rw [if_neg (not_not.mpr hmethod), reqMethod, if_pos hmethod, and_iff_right hmethod]
    exact retryResult_eq_directResult_iff _

/-- An upstream that is not reached at first, and then answers. -/
def secondAttempt (attempt : ℕ) (_ : UpstreamRequest) : SendOutcome :=
  if attempt = 0 then .error ⟨true, false, "connection refused"⟩
  else .ok ⟨200, [("content-type", Utf8.encode "text/plain")], some []⟩

/-- The branches agree on a `GET` that is answered on the second attempt. -/
theorem proxyWithRetries_secondAttempt :
    proxyWithRetries 1 secondAttempt ⟨"GET", "/api", "", [], none, []⟩ "http://api/" [] =
      forwardRequestRawWithHeaders (secondAttempt 1) ⟨"GET", "/api", "", [], none, []⟩
        "http://api/" [] := by
  refine (proxyWithRetries_eq_iff (n := 1) ⟨le_refl _, ?_, fun h => absurd h (by decide)⟩).mpr
    ⟨by decide, _, rfl, by decide, by decide⟩
  intro m hm
  obtain rfl := Nat.lt_one_iff.mp hm
  decide

/-- The branches disagree when the body of a response fails, on a method that is not supported, and
on a header of the connection between the gateway and the upstream. -/
theorem proxyWithRetries_fails :
    (proxyWithRetries 1 (fun _ _ => .ok ⟨200, [], none⟩) ⟨"GET", "/api", "", [], none, []⟩
        "http://api/" [] ≠
      forwardRequestRawWithHeaders (fun _ => .ok ⟨200, [], none⟩)
        ⟨"GET", "/api", "", [], none, []⟩ "http://api/" []) ∧
    (proxyWithRetries 1 (fun _ _ => .ok ⟨200, [], some []⟩) ⟨"TRACE", "/api", "", [], none, []⟩
        "http://api/" [] ≠
      forwardRequestRawWithHeaders (fun _ => .ok ⟨200, [], some []⟩)
        ⟨"TRACE", "/api", "", [], none, []⟩ "http://api/" []) ∧
    proxyWithRetries 1 (fun _ _ => .ok ⟨200, [("te", Utf8.encode "trailers")], some []⟩)
        ⟨"GET", "/api", "", [], none, []⟩ "http://api/" [] ≠
      forwardRequestRawWithHeaders
        (fun _ => .ok ⟨200, [("te", Utf8.encode "trailers")], some []⟩)
        ⟨"GET", "/api", "", [], none, []⟩ "http://api/" [] := by
  decide

end XiraNet

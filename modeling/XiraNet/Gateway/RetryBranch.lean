import XiraNet.Gateway.Accounting
import XiraNet.Gateway.RetryLoop

/-!
# The choice of the retry branch

`gateway_handler` of `gateway/mod.rs` decides by the method alone whether a request goes through
`RetryPolicy::execute`, while the policy of `gateway/retry.rs` also declares `PUT` and `DELETE` with
an idempotency key retryable.

* `upstreamContacts_eq_sends`: with retries the requests of the handler are those of the policy.
* `retriesDeclared_iff`: when the handler retries what the policy declares retryable.
* `retriesDeclared_fails`: a `PUT` with an idempotency key is sent once.
-/

namespace XiraNet

namespace RetryPolicy

/-- The attempts of the loop are those up to the one that decides. -/
theorem attemptsLoop_eq {retryable : Bool} {send : ℕ → SendOutcome} {left attempt n : ℕ}
    (h : Decides left retryable (fun m => send (attempt + m)) n) :
    attemptsLoop retryable send left attempt = List.range' attempt (n + 1) := by
  induction left generalizing attempt n with
  | zero =>
      obtain rfl := Nat.le_zero.mp h.le_maxRetries
      rfl
  | succ left ih =>
      rw [attemptsLoop, List.range'_succ]
      cases n with
      | zero =>
          have hfinal : (retryable && worthRetrying (send attempt)) = false :=
            h.final (Nat.succ_pos left)
          rw [hfinal]
          rfl
      | succ n =>
          rw [if_pos (by simpa using h.retried 0 (Nat.succ_pos _))]
          rw [ih h.next]

/-- There is a second attempt exactly if the outcome of the first one may be retried. -/
theorem one_lt_length_attemptsLoop {retryable : Bool} {send : ℕ → SendOutcome} {left : ℕ}
    (hleft : 0 < left) (attempt : ℕ) :
    1 < (attemptsLoop retryable send left attempt).length ↔
      (retryable && worthRetrying (send attempt)) = true := by
  obtain ⟨left, rfl⟩ := Nat.exists_eq_succ_of_ne_zero hleft.ne'
  rw [attemptsLoop]
  split
  next hretry =>
    have hpos := List.length_pos_of_ne_nil
      (attemptsLoop_ne_nil retryable send left (attempt + 1))
    refine iff_of_true ?_ hretry
    rw [List.length_cons]
    omega
  next hstop => exact iff_of_false (by simp) hstop

/-- Whether a request carries an idempotency key. -/
def hasIdempotencyKey (headers : HeaderMap) : Bool :=
  headers.any (fun h => h.1 = "idempotency-key") ||
    headers.any fun h => h.1 = "x-idempotency-key"

/-- Where the two predicates differ. -/
theorem isRequestRetryable_eq (method : String) (headers : HeaderMap) :
    isRequestRetryable method headers =
      (methodIsRetryable method || (method ∈ ["PUT", "DELETE"] && hasIdempotencyKey headers)) := rfl

end RetryPolicy

/-- In the branch with retries the handler sends what the policy sends. -/
theorem upstreamContacts_eq_sends {maxRetries : ℕ} {send : ℕ → UpstreamRequest → SendOutcome}
    {req : HttpRequest} {downstreamUrl : String} {forwardedHeaders : HeaderMap}
    (hretry : 0 < maxRetries ∧ RetryPolicy.methodIsRetryable (reqMethod req.method)) :
    upstreamContacts maxRetries send req downstreamUrl forwardedHeaders =
      (RetryPolicy.executeRun maxRetries send (reqMethod req.method) downstreamUrl forwardedHeaders
        (forwardedBody req.body)).sends.map Prod.fst := by
  obtain ⟨n, hn⟩ := RetryPolicy.exists_decides maxRetries
    (RetryPolicy.isRequestRetryable (reqMethod req.method) forwardedHeaders)
    fun m => send m
      ⟨reqMethod req.method, downstreamUrl, forwardedHeaders, forwardedBody req.body⟩
  have hattempts := @RetryPolicy.attemptsLoop_eq
    (RetryPolicy.isRequestRetryable (reqMethod req.method) forwardedHeaders)
    (fun m => send m
      ⟨reqMethod req.method, downstreamUrl, forwardedHeaders, forwardedBody req.body⟩)
    maxRetries 0 n (by simpa only [Nat.zero_add] using hn)
  rw [RetryPolicy.executeRun_eq hn, upstreamContacts, if_pos hretry]
  dsimp only
  rw [hattempts, List.map_map]
  rfl

/-- The request that is sent first, with the method as the handler reads it. -/
def UpstreamEnv.firstRequest (u : UpstreamEnv) (service : ServiceEntry) (upstream : String)
    (req : HttpRequest) : UpstreamRequest :=
  ⟨reqMethod req.method, Gateway.downstreamUrl service upstream req,
    u.forwardedHeaders service req, forwardedBody req.body⟩

/-- The handler sends a request more than once exactly if the policy declares it retryable, with the
headers that are forwarded, and the outcome of the first send is an error of the server or no
connection in time. -/
def UpstreamEnv.RetriesDeclared (u : UpstreamEnv) (env : GatewayEnv) (g : Gateway)
    (req : HttpRequest) : Prop :=
  1 < (u.handle env g req).contacts.length ↔
    ∃ first ∈ (u.handle env g req).contacts.head?,
      RetryPolicy.isRequestRetryable req.method first.headers = true ∧
        RetryPolicy.worthRetrying (u.send 0 first) = true

/-- A request that the handler retries like the policy, whatever its first outcome: its method is
one that is forwarded, and it is no `PUT` or `DELETE` with an idempotency key. -/
def SameDecision (method : String) (forwardedHeaders : HeaderMap) : Prop :=
  method ∈ Gateway.forwardedMethods ∧
    (method ∈ ["PUT", "DELETE"] → RetryPolicy.hasIdempotencyKey forwardedHeaders = false)

namespace UpstreamEnv

variable {u : UpstreamEnv} {maxRetries : ℕ} {service : ServiceEntry} {upstream : String}
  {req : HttpRequest}

/-- With retries enabled a request is sent, first as the handler reads it, and a second time
exactly if its method may be retried and its first outcome too. -/
theorem contacts_spec (hretries : 0 < maxRetries) :
    (u.contacts maxRetries service upstream req).head? =
        some (u.firstRequest service upstream req) ∧
      (1 < (u.contacts maxRetries service upstream req).length ↔
        RetryPolicy.methodIsRetryable (reqMethod req.method) = true ∧
          RetryPolicy.worthRetrying (u.send 0 (u.firstRequest service upstream req)) = true) := by
  unfold contacts upstreamContacts
  by_cases hmethod : RetryPolicy.methodIsRetryable (reqMethod req.method) = true
  case pos =>
    rw [if_pos ⟨hretries, hmethod⟩]
    dsimp only
    have hpolicy : RetryPolicy.isRequestRetryable (reqMethod req.method)
        (u.forwardedHeaders service req) = true := by
      rw [RetryPolicy.isRequestRetryable_eq, hmethod, Bool.true_or]
    rw [hpolicy]
    constructor
    · obtain ⟨left, rfl⟩ := Nat.exists_eq_succ_of_ne_zero hretries.ne'
      rfl
    · rw [List.length_map, RetryPolicy.one_lt_length_attemptsLoop hretries, Bool.true_and,
        and_iff_right hmethod]
      rfl
  case neg =>
    -- Only a method that is forwarded is read as one that may not be retried.
    have hforwarded : req.method ∈ Gateway.forwardedMethods := by
      by_contra hother
      rw [reqMethod, if_neg hother] at hmethod
      exact hmethod (by decide)
    rw [if_neg fun h => hmethod h.2, if_neg (not_not.mpr hforwarded)]
    refine ⟨?_, iff_of_false (by simp) fun h => hmethod h.1⟩
    rw [firstRequest, reqMethod, if_pos hforwarded]
    rfl

end UpstreamEnv

/-- The method of a request and the way the handler reads it make the same decision, unless the
request is among the exceptions. -/
theorem methodIsRetryable_reqMethod_iff (method : String) (headers : HeaderMap) :
    (RetryPolicy.methodIsRetryable (reqMethod method) = true ↔
        RetryPolicy.isRequestRetryable method headers = true) ↔
      SameDecision method headers := by
  rw [RetryPolicy.isRequestRetryable_eq]
  unfold SameDecision
  by_cases hforwarded : method ∈ Gateway.forwardedMethods
  case pos =>
    rw [reqMethod, if_pos hforwarded, and_iff_right hforwarded]
    by_cases hsafe : RetryPolicy.methodIsRetryable method = true
    · -- The methods that may always be retried are no exceptions.
      have hother : method ∉ ["PUT", "DELETE"] := by
        intro hmem
        have hmethod : method = "PUT" ∨ method = "DELETE" := by simpa using hmem
        rcases hmethod with rfl | rfl
        · exact absurd hsafe (by decide)
        · exact absurd hsafe (by decide)
      rw [hsafe]
      exact iff_of_true (by simp) fun hmem => absurd hmem hother
    · rw [Bool.eq_false_iff.mpr hsafe]
      cases RetryPolicy.hasIdempotencyKey headers <;> simp
  case neg =>
    refine iff_of_false (fun h => ?_) fun h => hforwarded h.1
    -- It is read as `GET`, but the policy does not declare it retryable.
    have hget : RetryPolicy.methodIsRetryable (reqMethod method) = true := by
      rw [reqMethod, if_neg hforwarded]
      decide
    have hdeclared := h.mp hget
    simp only [RetryPolicy.methodIsRetryable, Bool.or_eq_true, Bool.and_eq_true,
      decide_eq_true_eq] at hdeclared
    refine hforwarded ?_
    unfold Gateway.forwardedMethods
    simp only [List.mem_cons, List.not_mem_nil, or_false] at hdeclared ⊢
    tauto

/-- With retries enabled the handler retries a request as the policy declares it exactly if its
first outcome needs no retry, or its method is one that is forwarded and it is no `PUT` or `DELETE`
with an idempotency key. -/
theorem retriesDeclared_iff (u : UpstreamEnv) (env : GatewayEnv) (g : Gateway) (req : HttpRequest)
    (hretries : 0 < g.maxRetries) :
    u.RetriesDeclared env g req ↔
      ∀ f, (Gateway.gatewayHandler env g req).1 = .forward f →
        RetryPolicy.worthRetrying (u.send 0 (u.firstRequest f.service f.upstream req)) = true →
          SameDecision req.method (u.forwardedHeaders f.service req) := by
  have hunsupported := (@Gateway.sentMethod_of_gatewayHandler env g req).2
  unfold UpstreamEnv.RetriesDeclared UpstreamEnv.handle
  dsimp only
  cases houtcome : (Gateway.gatewayHandler env g req).1 with
  -- Nothing is sent for a request that the handler answers itself.
  | respond res => exact iff_of_true (by simp) fun _ h => nomatch h
  | cacheHit reply => exact iff_of_true (by simp) fun _ h => nomatch h
  | notSupported service upstream =>
      have hnone := hunsupported service upstream houtcome
      unfold Gateway.sentMethod at hnone
      rw [if_pos hretries] at hnone
      split at hnone <;> cases hnone
  | forward f =>
      obtain ⟨hfirst, hsecond⟩ := @UpstreamEnv.contacts_spec u _ f.service f.upstream req hretries
      dsimp only
      rw [UpstreamEnv.contacts_complete, hsecond, hfirst]
      have hheaders : (u.firstRequest f.service f.upstream req).headers =
          u.forwardedHeaders f.service req := rfl
      simp only [Option.mem_some_iff, exists_eq_left', hheaders, and_congr_left_iff,
        methodIsRetryable_reqMethod_iff]
      constructor
      · rintro h _ ⟨⟩
        exact h
      · exact fun h => h f rfl

/-- A gateway with one service and a retry. -/
def retryingGateway : Gateway where
  registry := (ServiceRegistry.new.register 0 0 "a" "/a" "http://10.0.0.2" "/").2
  cbManager := .new 5 30 1
  lb := .new
  waf := ⟨false, [], [], [], [], [], .block⟩
  cacheEnabled := false
  maxRetries := 1

/-- An upstream that is overloaded. -/
def overloadedUpstream : UpstreamEnv :=
  { quietUpstream with send := fun _ _ => .ok ⟨503, [], some []⟩ }

/-- A `GET` that meets an overloaded upstream is sent again. -/
theorem retriesDeclared_get :
    overloadedUpstream.RetriesDeclared strictEnv.gateway retryingGateway
      ⟨"GET", "/a", "", [], none, []⟩ :=
  (retriesDeclared_iff overloadedUpstream strictEnv.gateway retryingGateway
    ⟨"GET", "/a", "", [], none, []⟩ (by decide)).mpr fun _ _ _ =>
      ⟨by decide, fun hkeyed => absurd hkeyed (by decide)⟩

/-- A `PUT` with an idempotency key. -/
def keyedPut : HttpRequest :=
  ⟨"PUT", "/a", "", [("idempotency-key", Utf8.encode "abc")], none, []⟩

/-- A `PUT` with an idempotency key is declared retryable, but sent only once. -/
theorem retriesDeclared_fails :
    ¬ ∀ (u : UpstreamEnv) (env : GatewayEnv) (g : Gateway) (req : HttpRequest),
      0 < g.maxRetries → u.RetriesDeclared env g req := by
  intro hall
  have hcontacts : (overloadedUpstream.handle strictEnv.gateway retryingGateway keyedPut).contacts =
      [⟨"PUT", "http://10.0.0.2/", [("idempotency-key", Utf8.encode "abc"),
        ("x-forwarded-proto", Utf8.encode "http")], none⟩] := by
    rfl
  have hdeclared := hall overloadedUpstream strictEnv.gateway retryingGateway keyedPut (by decide)
  unfold UpstreamEnv.RetriesDeclared at hdeclared
  rw [hcontacts] at hdeclared
  exact absurd (hdeclared.mpr ⟨_, rfl, by decide, by decide⟩) (by decide)

end XiraNet

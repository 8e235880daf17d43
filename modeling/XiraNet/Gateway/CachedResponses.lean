import XiraNet.Gateway.SharedCache

/-!
# What a hit owes to its client

Two laws about the hits of a response cache over whole runs of `gateway_handler`. A hit should send
what the client of the stored response was sent, and it should answer only requests that agree with
the stored one on the headers that the response varies on.

* `asSent_throughout_iff`: the first law holds throughout a run exactly if the rules of the service
  have no effect on any response that is stored; an entry is stored before the rules are applied.
* `variesOn_throughout_iff`: the second law holds throughout a run exactly if no response that is
  stored lists a name in `Vary`; a lookup compares the request with the stored response, not with
  the request that the response was stored for.
-/

namespace XiraNet

/-- The values of a header, whatever its case; none if the header is absent. -/
def carried (headers : List (String × String)) (name : String) : List String :=
  (headers.filter fun h => Text.eqIgnoreAsciiCase h.1 name).map Prod.snd

namespace SharedCache

/-- The client of a hit is sent what the client of the stored response was sent. -/
def AsSent (lib : HttpLib) (o : StoredResponse) (_ : List (String × String))
    (reply : CachedReply) : Prop :=
  SameResponse o.sent (hitResponse lib reply)

/-- The request agrees with the one the response was stored for on every header that the response
varies on. -/
def VariesOn (o : StoredResponse) (headers : List (String × String)) (reply : CachedReply) : Prop :=
  ∀ name, VaryLists reply.headers name →
    carried headers name = carried o.execution.request.headers.texts name

/-- The rules of the service have no effect on the response. -/
def RulesInertOn (lib : HttpLib) (o : StoredResponse) : Prop :=
  RulesInert lib o.execution.service.transform o.result.headers

/-- The response lists no name in `Vary`. -/
def ListsNoVary (o : StoredResponse) : Prop := ∀ name, ¬ VaryLists o.result.headers name

variable {lib : HttpLib} {key : String} {o : StoredResponse}

/-- The headers of the stored response pass its own Vary check. -/
theorem varyMatches_self (entry : CachedResponse) : entry.varyMatches entry.headers = true := by
  simp [CachedResponse.varyMatches]

/-- The first law for one response, whatever request comes. -/
theorem rulesInertOn_iff (ho : Genuine lib key o) :
    RulesInertOn lib o ↔
      ∀ headers, o.entry.varyMatches headers = true → AsSent lib o headers o.entry.reply := by
  obtain ⟨duration, hsent⟩ := ho.sent_eq
  have hiff : SameResponse o.sent (hitResponse lib o.entry.reply) ↔ RulesInertOn lib o := by
    rw [hsent]
    exact sameResponse_iff ho.storable.status_ge ho.storable.status_lt
  constructor
  · intro h headers _
    exact hiff.mpr h
  · intro h
    -- A request with the headers of the response passes the Vary check.
    exact hiff.mp (h o.result.headers (varyMatches_self o.entry))

/-- A further header with an empty value makes no difference to the Vary check. -/
theorem firstValue_append_empty (headers : List (String × String)) (name name' : String) :
    firstValue (headers ++ [(name, "")]) name' = firstValue headers name' := by
  unfold firstValue
  rw [List.find?_append]
  cases headers.find? fun h => Text.eqIgnoreAsciiCase h.1 name' with
  | some h => rfl
  | none =>
      rw [Option.none_or, List.find?_singleton]
      split <;> rfl

/-- The second law for one response, whatever request comes. -/
theorem listsNoVary_iff :
    ListsNoVary o ↔
      ∀ headers, o.entry.varyMatches headers = true → VariesOn o headers o.entry.reply := by
  constructor
  · intro h headers _ name hname
    exact absurd hname (h name)
  · intro h name hname
    -- Two requests that pass the check and differ in the header.
    have hself := h o.result.headers (varyMatches_self o.entry) name hname
    have hmatches : o.entry.varyMatches (o.result.headers ++ [(name, "")]) = true := by
      have hetag : computeVaryEtag o.entry.varyOn (o.result.headers ++ [(name, "")]) =
          computeVaryEtag o.entry.varyOn o.entry.headers := by
        simp only [computeVaryEtag, firstValue_append_empty]
        rfl
      simp [CachedResponse.varyMatches, hetag]
    have hother := h _ hmatches name hname
    have hlength := congrArg List.length (hother.trans hself.symm)
    simp [carried, Text.eqIgnoreAsciiCase] at hlength

/-- A service that adds a header to its responses. -/
def framedService : ServiceEntry :=
  { ServiceEntry.new 1 0 "api" "/api" "http://api:80" "/health" with
    transform := some ⟨[], [], [("X-Frame-Options", "DENY")], []⟩ }

/-- A service without rules. -/
def bareService : ServiceEntry := .new 1 0 "api" "/api" "http://api:80" "/health"

/-- An execution for a request with these headers. -/
def apiExecution (service : ServiceEntry) (headers : HeaderMap) : GatewayExecution where
  request := ⟨"GET", "/api", "", headers, none, []⟩
  service := service
  requestId := "1"
  cacheEnabled := true

/-- A result with these headers. -/
def apiResult (headers : List (String × String)) : ProxyResult := ⟨200, headers, [], false⟩

/-- Throughout a run every hit answers a request that agrees with the stored one on the headers the
response varies on, exactly if no response that is stored lists a name in `Vary`. -/
theorem variesOn_throughout_iff (lib : HttpLib) (maxEntries ttlSecs : ℕ) (enabled : Bool)
    {as : List CacheAction} {s : SharedCache}
    (hrun : (machine lib).Runs Machine.unrestricted (new maxEntries ttlSecs enabled) as s) :
    (machine lib).Throughout (EveryHit VariesOn) (new maxEntries ttlSecs enabled) as ↔
      (machine lib).Runs (StoresGood lib ListsNoVary) (new maxEntries ttlSecs enabled) as s :=
  everyHit_throughout_iff (fun _ _ _ => listsNoVary_iff) maxEntries ttlSecs enabled hrun

/-- The second law holds in a run that stores a response without `Vary`. -/
theorem variesOn_withoutVary :
    (machine .plain).Throughout (EveryHit VariesOn) (new 16 60 true)
      (storeRun (apiExecution bareService []) (apiResult [])) := by
  refine (variesOn_throughout_iff .plain 16 60 true
    (runs_storeRun_unrestricted "GET:/api" 16 60 true (by decide) (by decide))).mpr ?_
  refine runs_storeRun_storesGood "GET:/api" 16 60 true (by decide) (by decide) ?_
  rintro o - hresult name ⟨-, h, hmem, -⟩
  rw [hresult] at hmem
  exact nomatch hmem

/-- The second law fails in a run that stores a compressed response: a request that accepts no
compression is answered with it. -/
theorem variesOn_fails :
    ∃ s, (machine .plain).Runs Machine.unrestricted (new 16 60 true)
        (storeRun (apiExecution bareService [("accept-encoding", Utf8.encode "gzip")])
          (apiResult [("vary", "Accept-Encoding"), ("content-encoding", "gzip")])) s ∧
      ¬ s.EveryHit VariesOn := by
  refine ⟨_, runs_storeRun_unrestricted "GET:/api" 16 60 true (by decide) (by decide),
    fun hevery => ?_⟩
  obtain ⟨o, horigin, hvaries⟩ := hevery 1 0 "GET:/api" [] _
    (get_afterStoreRun .plain 16
      (apiExecution bareService [("accept-encoding", Utf8.encode "gzip")])
      (apiResult [("vary", "Accept-Encoding"), ("content-encoding", "gzip")]) "GET:/api"
      (by decide))
  cases horigin
  have hlisted : VaryLists [("vary", "Accept-Encoding"), ("content-encoding", "gzip")]
      "accept-encoding" := mem_extractVary.mp (by decide)
  exact absurd (hvaries "accept-encoding" hlisted) (by decide)

end SharedCache

end XiraNet

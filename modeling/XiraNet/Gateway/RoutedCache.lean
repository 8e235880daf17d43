import XiraNet.Gateway.SharedCache
import XiraNet.Middleware.Jwt

/-!
# The cache and the registry

Runs of `gateway_handler` in which services are registered, replaced and unregistered. An execution
looks its service up when it arrives, checks the cache later, and stores its result when its
upstream has answered; a key of the cache names the path and the query, not the service. Every
execution keeps what `lookup` returned for its request, and the run remembers which upstream
produced which response.

* `served_of_runs`: every response comes from the service that was found for its own request, or,
  out of the cache, for an earlier request with the same path and query.
* `fromOwnService_fails`: a replaced service whose response is still served.
-/

namespace XiraNet

/-- An execution that has passed the checks, and what `lookup` returned for its path. -/
structure RoutedExecution where
  execution : GatewayExecution
  looked : Option ServiceEntry

/-- An execution that has contacted an upstream. -/
structure Contact where
  routed : RoutedExecution
  upstream : String

/-- A response that an upstream has produced, with the headers of the plugins. -/
structure ProducedResponse where
  contact : Contact
  result : ProxyResult
  storedAt : Instant

/-- Where a response was taken from. -/
inductive ResponseSource
  | upstream
  /-- The cache, at an instant and with a lifetime of its entries. -/
  | cache (now : Instant) (ttlSecs : ℕ)

/-- A response on its way to the client. -/
structure ServedResponse where
  routed : RoutedExecution
  reply : CachedReply
  source : ResponseSource

/-- What the client gets of a produced response. -/
def ProducedResponse.reply (p : ProducedResponse) : CachedReply :=
  ⟨p.result.status, p.result.headers, p.result.body⟩

/-- The entry of the cache for a produced response. -/
def ProducedResponse.entry (p : ProducedResponse) : CachedResponse :=
  ⟨p.result.status, p.result.headers, p.result.body, p.storedAt, extractVary p.result.headers⟩

/-- The gateway with its registry, the cache, the executions before and after the cache check, and
the responses that were produced and served. -/
structure RoutedCache where
  gateway : Gateway
  cache : ResponseCache
  admitted : List RoutedExecution
  pending : List Contact
  produced : List ProducedResponse
  served : List ServedResponse

/-- What happens to the gateway. -/
inductive RoutedAction
  | register (id : Uuid) (now : DateTime) (name pathPrefix upstream healthEndpoint : String)
  | registerAdvanced (id : Uuid) (now : DateTime) (req : RegisterServiceRequest)
  | loadFromConfig (svcs : List (Uuid × DateTime × ServiceConfig))
  | unregister (id : Uuid)
  /-- A request arrives and is checked. -/
  | arrive (env : GatewayEnv) (req : HttpRequest)
  /-- The cache check of an execution, and the contact with an upstream after a miss. -/
  | check (env : GatewayEnv) (i : ℕ)
  /-- The upstream of an execution has answered. -/
  | finish (now : Instant) (i : ℕ) (actions : List PluginAction) (result : ProxyResult)
  /-- The section `cache` of `update_config`. -/
  | configure (enabled : Bool) (ttlSecs : ℕ)
  | clear

namespace RoutedCache

/-- A gateway before its first request. -/
def initial (gateway : Gateway) (maxEntries ttlSecs : ℕ) (enabled : Bool) : RoutedCache where
  gateway := gateway
  cache := .new maxEntries ttlSecs enabled
  admitted := []
  pending := []
  produced := []
  served := []

/-- Change the registry. -/
def withRegistry (s : RoutedCache) (registry : ServiceRegistry) : RoutedCache :=
  { s with gateway := { s.gateway with registry } }

/-- The checks of a request, the breaker included. -/
def arrive (s : RoutedCache) (env : GatewayEnv) (req : HttpRequest) : RoutedCache :=
  match Gateway.runChecks env s.gateway req with
  | .error _ => s
  | .ok service =>
      match s.gateway.cbManager.allowRequest env.now service.id with
      | (.error _, cbManager) => { s with gateway := { s.gateway with cbManager } }
      | (.ok (), cbManager) =>
          let e : GatewayExecution :=
            ⟨req, service, Gateway.requestId env req, s.gateway.cacheEnabled⟩
          { s with
            gateway := { s.gateway with
              cbManager
              registry := s.gateway.registry.incrementRequestCount service.id }
            admitted := s.admitted ++ [⟨e, s.gateway.registry.lookup req.path⟩] }

/-- The cache check of an execution, and what follows it. -/
def check (s : RoutedCache) (env : GatewayEnv) (routed : RoutedExecution) : RoutedCache :=
  match routed.execution.lookup env.now s.cache with
  | (some reply, cache) =>
      { s with cache, served := ⟨routed, reply, .cache env.now s.cache.ttlSecs⟩ :: s.served }
  | (none, cache) =>
      match Gateway.forward env s.gateway routed.execution.service routed.execution.request with
      | (.forward f, gateway) =>
          { s with gateway, cache, pending := s.pending ++ [⟨routed, f.upstream⟩] }
      -- The method is not forwarded.
      | (_, gateway) => { s with gateway, cache }

/-- The execution from the answer of the upstream to the response. -/
def finish (s : RoutedCache) (now : Instant) (contact : Contact) (actions : List PluginAction)
    (result : ProxyResult) : RoutedCache :=
  match onResponse actions result with
  | .error _ => s
  | .ok r =>
      let p : ProducedResponse := ⟨contact, r, now⟩
      { s with
        cache := contact.routed.execution.store now r s.cache
        produced := p :: s.produced
        served := ⟨contact.routed, p.reply, .upstream⟩ :: s.served }

/-- One action. -/
def step (s : RoutedCache) : RoutedAction → Option RoutedCache
  | .register id now name pathPrefix upstream healthEndpoint =>
      some (s.withRegistry
        (s.gateway.registry.register id now name pathPrefix upstream healthEndpoint).2)
  | .registerAdvanced id now req =>
      some (s.withRegistry (s.gateway.registry.registerAdvanced id now req).2)
  | .loadFromConfig svcs => some (s.withRegistry (s.gateway.registry.loadFromConfig svcs))
  | .unregister id => some (s.withRegistry (s.gateway.registry.unregister id).2)
  | .arrive env req =>
      -- A path ends where its query starts.
      if '?' ∈ req.path.toList then none else some (s.arrive env req)
  | .check env i =>
      (s.admitted[i]?).map fun routed =>
        ({ s with admitted := s.admitted.eraseIdx i }).check env routed
  | .finish now i actions result =>
      (s.pending[i]?).map fun contact =>
        ({ s with pending := s.pending.eraseIdx i }).finish now contact actions result
  | .configure enabled ttlSecs =>
      some { s with
        gateway := { s.gateway with cacheEnabled := enabled }
        cache := (s.cache.setEnabled enabled).setTtlSecs ttlSecs }
  | .clear => some { s with cache := s.cache.clear }

/-- The gateway as a machine. -/
def machine : Machine RoutedCache RoutedAction := ⟨step⟩

/-- A response was produced by an upstream of the service that was found for this very request. -/
def FromOwnService (s : RoutedCache) (d : ServedResponse) : Prop :=
  ∃ p ∈ s.produced, p.reply = d.reply ∧
    p.contact.upstream ∈ p.contact.routed.execution.service.allUpstreams ∧
      ∃ service, d.routed.looked = some service ∧
        p.contact.routed.execution.service.id = service.id

/-- What a response owes to the request behind it: a response from an upstream was produced for its
own request, one from the cache for the same path and query, within the lifetime of the entries. -/
def Owed (p : ProducedResponse) (d : ServedResponse) : Prop :=
  match d.source with
  | .upstream => p.contact.routed = d.routed
  | .cache now ttlSecs =>
      p.contact.routed.execution.request.path = d.routed.execution.request.path ∧
        p.contact.routed.execution.request.query = d.routed.execution.request.query ∧
          elapsed now p.storedAt < fromSecs ttlSecs

/-- A response was produced by an upstream of the service that was found for the request it was
produced for. -/
def FromItsService (s : RoutedCache) (d : ServedResponse) : Prop :=
  ∃ p ∈ s.produced, p.reply = d.reply ∧
    p.contact.upstream ∈ p.contact.routed.execution.service.allUpstreams ∧
      p.contact.routed.looked = some p.contact.routed.execution.service ∧ Owed p d

/-- An execution has the service that `lookup` returned for its path. -/
structure Looked (r : RoutedExecution) : Prop where
  found : r.looked = some r.execution.service
  parsed : '?' ∉ r.execution.request.path.toList

/-- A contact is one with an upstream of the service. -/
structure Routed (c : Contact) : Prop where
  looked : Looked c.routed
  upstream : c.upstream ∈ c.routed.execution.service.allUpstreams

/-- The invariant: every execution has the service of its path, every entry of the cache was
produced for its key, and every response comes from the service of its request. -/
structure Inv (s : RoutedCache) : Prop where
  admitted : ∀ r ∈ s.admitted, Looked r
  pending : ∀ c ∈ s.pending, Routed c
  produced : ∀ p ∈ s.produced, Routed p.contact
  entries : ∀ key entry, s.cache.cache.peek key = some entry →
    ∃ p ∈ s.produced, p.contact.routed.execution.cacheKey = some key ∧ p.entry = entry
  served : ∀ d ∈ s.served, Looked d.routed ∧ s.FromItsService d

/-- Requests with the same key have the same path and query. -/
theorem makeKey_inj {p p' q q' : String} (hp : '?' ∉ p.toList) (hp' : '?' ∉ p'.toList)
    (h : Gateway.makeKey "GET" p q = Gateway.makeKey "GET" p' q') : p = p' ∧ q = q' := by
  have hlist := congrArg String.toList h
  unfold Gateway.makeKey at hlist
  by_cases hq : q = "" <;> by_cases hq' : q' = "" <;>
    simp only [hq, hq', if_true, if_false, String.toList_append, List.append_assoc,
      List.append_cancel_left_eq] at hlist
  · exact ⟨String.toList_inj.mp hlist, by rw [hq, hq']⟩
  -- Only one of the two has a query, so the other path would contain the question mark.
  · rw [hlist] at hp
    simp at hp
  · rw [← hlist] at hp'
    simp at hp'
  · have hmark : ("?" : String).toList = ['?'] := rfl
    rw [hmark, List.singleton_append, List.singleton_append] at hlist
    -- Both sides are split at the first question mark.
    have hsplit := congrArg (Text.splitn 2 '?') hlist
    rw [Text.splitn_append hp, Text.splitn_append hp'] at hsplit
    simp only [Text.splitn, List.cons.injEq, and_true] at hsplit
    exact ⟨String.toList_inj.mp hsplit.1, String.toList_inj.mp hsplit.2⟩

/-- At the start there is nothing to keep. -/
theorem inv_initial (gateway : Gateway) (maxEntries ttlSecs : ℕ) (enabled : Bool) :
    (initial gateway maxEntries ttlSecs enabled).Inv where
  admitted := by simp [initial]
  pending := by simp [initial]
  produced := by simp [initial]
  entries := by
    intro key entry h
    exact absurd (h.symm.trans (LruCache.peek_new _ _ key)) (Option.some_ne_none _)
  served := by simp [initial]

/-- What happens to the registry and to the settings leaves no new entries and no new responses. -/
theorem Inv.of_cache_le {s s' : RoutedCache} (hs : s.Inv) (hadmitted : s'.admitted = s.admitted)
    (hpending : s'.pending = s.pending) (hproduced : s'.produced = s.produced)
    (hserved : s'.served = s.served)
    (hcache : ∀ key entry, s'.cache.cache.peek key = some entry →
      s.cache.cache.peek key = some entry) : s'.Inv where
  admitted := hadmitted ▸ hs.admitted
  pending := hpending ▸ hs.pending
  produced := hproduced ▸ hs.produced
  entries key entry h := by
    rw [hproduced]
    exact hs.entries key entry (hcache key entry h)
  served d hd := by
    have hold := hs.served d (hserved ▸ hd)
    exact ⟨hold.1, by unfold FromItsService; rw [hproduced]; exact hold.2⟩

/-- More responses produced leave the service of a response. -/
theorem FromItsService.mono {s s' : RoutedCache} {d : ServedResponse} (h : s.FromItsService d)
    (hproduced : ∀ p ∈ s.produced, p ∈ s'.produced) : s'.FromItsService d := by
  obtain ⟨p, hp, hrest⟩ := h
  exact ⟨p, hproduced p hp, hrest⟩

/-- A request that arrives keeps the invariant. -/
theorem inv_arrive {s : RoutedCache} (hs : s.Inv) {env : GatewayEnv} {req : HttpRequest}
    (hparsed : '?' ∉ req.path.toList) : (s.arrive env req).Inv := by
  unfold arrive
  split
  next => exact hs
  next service hchecks =>
    split
    next => exact hs.of_cache_le rfl rfl rfl rfl fun _ _ => id
    next =>
      refine ⟨?_, hs.pending, hs.produced, hs.entries, fun d hd => ?_⟩
      · intro r hr
        rcases List.mem_append.mp hr with hold | hnew
        · exact hs.admitted r hold
        · rw [List.mem_singleton.mp hnew]
          exact ⟨(Gateway.runChecks_eq_ok hchecks).lookup, hparsed⟩
      · exact ⟨(hs.served d hd).1, (hs.served d hd).2.mono fun _ => id⟩

/-- A hit comes from a response that was produced for the same path and query. -/
theorem Inv.of_hit {s : RoutedCache} (hs : s.Inv) {now : Instant} {routed : RoutedExecution}
    (hlooked : Looked routed) {reply : CachedReply}
    (hhit : (routed.execution.lookup now s.cache).1 = some reply) :
    s.FromItsService ⟨routed, reply, .cache now s.cache.ttlSecs⟩ := by
  unfold GatewayExecution.lookup at hhit
  cases hkey : routed.execution.cacheKey with
  | none =>
      rw [hkey] at hhit
      cases hhit
  | some key =>
      rw [hkey] at hhit
      obtain ⟨-, entry, hpeek, hfresh, -, rfl⟩ := ResponseCache.get_eq_some.mp hhit
      obtain ⟨p, hp, hkey', rfl⟩ := hs.entries key entry hpeek
      have hcontact := hs.produced p hp
      obtain ⟨-, -, rfl⟩ := GatewayExecution.of_cacheKey_eq_some hkey
      obtain ⟨-, -, hsame⟩ := GatewayExecution.of_cacheKey_eq_some hkey'
      obtain ⟨hpath, hquery⟩ := makeKey_inj hlooked.parsed hcontact.looked.parsed hsame
      refine ⟨p, hp, rfl, hcontact.upstream, hcontact.looked.found, hpath.symm, hquery.symm, ?_⟩
      exact Nat.lt_of_not_le (of_decide_eq_false hfresh)

/-- The cache check of an execution keeps the invariant. -/
theorem inv_check {s : RoutedCache} (hs : s.Inv) {env : GatewayEnv} {routed : RoutedExecution}
    (hlooked : Looked routed) : (s.check env routed).Inv := by
  have hpeek := fun key entry =>
    @SharedCache.peek_of_peek_lookup routed.execution env.now s.cache key entry
  have hhit := fun reply => @Inv.of_hit s hs env.now routed hlooked reply
  unfold check
  generalize routed.execution.lookup env.now s.cache = result at hpeek hhit ⊢
  obtain ⟨found, cache⟩ := result
  have hentries : ∀ key entry, cache.cache.peek key = some entry →
      ∃ p ∈ s.produced, p.contact.routed.execution.cacheKey = some key ∧ p.entry = entry :=
    fun key entry h => hs.entries key entry (hpeek key entry h)
  cases found with
  | some reply =>
      refine ⟨hs.admitted, hs.pending, hs.produced, hentries, fun d hd => ?_⟩
      rcases List.mem_cons.mp hd with rfl | hold
      · exact ⟨hlooked, (hhit reply rfl).mono fun _ => id⟩
      · exact ⟨(hs.served d hold).1, (hs.served d hold).2.mono fun _ => id⟩
  | none =>
      have hserved : ∀ s' : RoutedCache, s'.produced = s.produced → ∀ d ∈ s.served,
          Looked d.routed ∧ s'.FromItsService d := fun s' hsame d hd =>
        ⟨(hs.served d hd).1, (hs.served d hd).2.mono fun _ hp => hsame ▸ hp⟩
      dsimp only
      split
      next f gateway hforward =>
        refine ⟨hs.admitted, ?_, hs.produced, hentries, hserved _ rfl⟩
        intro c hc
        rcases List.mem_append.mp hc with hold | hnew
        · exact hs.pending c hold
        · rw [List.mem_singleton.mp hnew]
          exact ⟨hlooked, (Gateway.forward_spec (congrArg Prod.fst hforward)).2⟩
      next => exact ⟨hs.admitted, hs.pending, hs.produced, hentries, hserved _ rfl⟩

/-- The completion of an execution keeps the invariant. -/
theorem inv_finish {s : RoutedCache} (hs : s.Inv) {now : Instant} {contact : Contact}
    (hcontact : Routed contact) {actions : List PluginAction} {result : ProxyResult} :
    (s.finish now contact actions result).Inv := by
  unfold finish
  split
  next => exact hs
  next r hr =>
    refine ⟨hs.admitted, hs.pending, ?_, ?_, ?_⟩
    · intro p hp
      rcases List.mem_cons.mp hp with rfl | hold
      · exact hcontact
      · exact hs.produced p hold
    · intro key entry hpeek
      have hold : s.cache.cache.peek key = some entry →
          ∃ p ∈ (⟨contact, r, now⟩ :: s.produced : List ProducedResponse),
            p.contact.routed.execution.cacheKey = some key ∧ p.entry = entry := by
        intro h
        obtain ⟨p, hp, hrest⟩ := hs.entries key entry h
        exact ⟨p, List.mem_cons_of_mem _ hp, hrest⟩
      dsimp only [GatewayExecution.store] at hpeek
      cases hkey : contact.routed.execution.storeKey r with
      | none =>
          rw [hkey] at hpeek
          exact hold hpeek
      | some key' =>
          rw [hkey] at hpeek
          rcases ResponseCache.peek_of_peek_put hpeek with ⟨rfl, -, rfl⟩ | ⟨hbefore, -⟩
          -- The response that was just stored is an entry of its own key.
          · exact ⟨_, List.mem_cons_self, (GatewayExecution.of_storeKey_eq_some hkey).1, rfl⟩
          · exact hold hbefore
    · intro d hd
      rcases List.mem_cons.mp hd with rfl | hold
      · exact ⟨hcontact.looked, _, List.mem_cons_self, rfl, hcontact.upstream,
          hcontact.looked.found, rfl⟩
      · exact ⟨(hs.served d hold).1,
          (hs.served d hold).2.mono fun _ => List.mem_cons_of_mem _⟩

/-- Every action keeps the invariant. -/
theorem inv_step (s : RoutedCache) (a : RoutedAction) (s' : RoutedCache) (hs : s.Inv)
    (_ : Machine.unrestricted s a) (h : s.step a = some s') : s'.Inv := by
  cases a with
  | register => cases h; exact hs.of_cache_le rfl rfl rfl rfl fun _ _ => id
  | registerAdvanced => cases h; exact hs.of_cache_le rfl rfl rfl rfl fun _ _ => id
  | loadFromConfig => cases h; exact hs.of_cache_le rfl rfl rfl rfl fun _ _ => id
  | unregister => cases h; exact hs.of_cache_le rfl rfl rfl rfl fun _ _ => id
  | arrive env req =>
      simp only [step] at h
      split at h
      next => cases h
      next hparsed =>
        cases h
        exact inv_arrive hs hparsed
  | check env i =>
      obtain ⟨routed, hrouted, rfl⟩ := Option.map_eq_some_iff.mp h
      refine inv_check ?_ (hs.admitted routed (List.mem_of_getElem? hrouted))
      exact ⟨fun r hr => hs.admitted r (List.mem_of_mem_eraseIdx hr), hs.pending, hs.produced,
        hs.entries, hs.served⟩
  | finish now i actions result =>
      obtain ⟨contact, hcontact, rfl⟩ := Option.map_eq_some_iff.mp h
      refine inv_finish ?_ (hs.pending contact (List.mem_of_getElem? hcontact))
      exact ⟨hs.admitted, fun c hc => hs.pending c (List.mem_of_mem_eraseIdx hc), hs.produced,
        hs.entries, hs.served⟩
  | configure enabled ttlSecs =>
      cases h
      refine hs.of_cache_le rfl rfl rfl rfl fun key entry hpeek => ?_
      cases enabled with
      | true => exact hpeek
      | false => exact absurd hpeek SharedCache.peek_clear_ne_some
  | clear =>
      cases h
      exact hs.of_cache_le rfl rfl rfl rfl fun _ _ hpeek =>
        absurd hpeek SharedCache.peek_clear_ne_some
/-- In every run a response comes from an upstream of the service that was found for its own
request, or, out of the cache, for an earlier request with the same path and query; so it comes from
its own service as long as every request for the path has found that one. -/
theorem served_of_runs (gateway : Gateway) (maxEntries ttlSecs : ℕ) (enabled : Bool)
    (as : List RoutedAction) (s : RoutedCache)
    (hrun : machine.Runs Machine.unrestricted (initial gateway maxEntries ttlSecs enabled) as s)
    (d : ServedResponse) (hd : d ∈ s.served) :
    s.FromItsService d ∧
      ((∀ p ∈ s.produced,
          p.contact.routed.execution.request.path = d.routed.execution.request.path →
            p.contact.routed.looked.map (·.id) = d.routed.looked.map (·.id)) →
        s.FromOwnService d) := by
  have hinv := hrun.invariant inv_step (inv_initial gateway maxEntries ttlSecs enabled)
  obtain ⟨hlooked, hits⟩ := hinv.served d hd
  refine ⟨hits, fun hsame => ?_⟩
  obtain ⟨p, hp, hreply, hupstream, hfound, howed⟩ := hits
  have hpath : p.contact.routed.execution.request.path = d.routed.execution.request.path := by
    unfold Owed at howed
    split at howed
    next => rw [howed]
    next => exact howed.1
  have hid := hsame p hp hpath
  rw [hfound, hlooked.found] at hid
  exact ⟨p, hp, hreply, hupstream, _, hlooked.found, Option.some.inj hid⟩

/-- A response is cached, its service is replaced, and the same path is requested again. -/
def replacingRun : List RoutedAction :=
  [.arrive strictEnv.gateway (plainRequest "/api"),
    .check strictEnv.gateway 0,
    .finish 0 0 [] ⟨200, [], [1], false⟩,
    .register 1 0 "other" "/api" "http://10.0.0.3" "/",
    .arrive strictEnv.gateway (plainRequest "/api"),
    .check strictEnv.gateway 0]

/-- The response that this run serves out of the cache was produced for the first request. -/
theorem served_replacingRun :
    ∃ s, machine.Runs Machine.unrestricted
        (initial { plainGateway "/api" with cacheEnabled := true } 16 60 true) replacingRun s ∧
      ∃ d ∈ s.served, s.FromItsService d := by
  obtain ⟨s, hs, d, hd⟩ : ∃ s, machine.exec Machine.unrestricted
      (initial { plainGateway "/api" with cacheEnabled := true } 16 60 true) replacingRun = some s ∧
        ∃ d, d ∈ s.served := ⟨_, rfl, _, List.mem_cons_self⟩
  have hrun := Machine.runs_of_exec hs
  exact ⟨s, hrun, d, hd, (served_of_runs _ 16 60 true replacingRun s hrun d hd).1⟩

/-- The cache does not follow the registry: the response of a replaced service is served for a
request that has found the new one. -/
theorem fromOwnService_fails :
    ¬ ∀ (gateway : Gateway) (maxEntries ttlSecs : ℕ) (enabled : Bool) (as : List RoutedAction)
        (s : RoutedCache),
      machine.Runs Machine.unrestricted (initial gateway maxEntries ttlSecs enabled) as s →
        ∀ d ∈ s.served, s.FromOwnService d := by
  intro hall
  obtain ⟨s, hs, d, hd, hlooked, hproduced⟩ : ∃ s, machine.exec Machine.unrestricted
      (initial { plainGateway "/api" with cacheEnabled := true } 16 60 true) replacingRun = some s ∧
        ∃ d ∈ s.served, d.routed.looked.map (·.id) = some 1 ∧
          ∀ p ∈ s.produced, p.contact.routed.execution.service.id = 0 := by
    refine ⟨_, rfl, _, List.mem_cons_self, rfl, ?_⟩
    intro p hp
    rw [List.mem_singleton.mp hp]
    rfl
  obtain ⟨p, hp, -, -, service, hservice, hid⟩ :=
    hall _ 16 60 true replacingRun s (Machine.runs_of_exec hs) d hd
  rw [hservice] at hlooked
  rw [hproduced p hp] at hid
  exact absurd (hid.trans (Option.some.inj hlooked)) (by decide)

end RoutedCache

end XiraNet

import XiraNet.Gateway.Completion
import XiraNet.Lib.Runs

/-!
# Runs over one response cache

Executions of `gateway_handler` over one `ResponseCache`. The cache check of an execution and its
completion are separate steps, so that executions overlap, and the administration may change the
settings of the cache or clear it at any time. For every key the run remembers the execution that
stored a response last, of which the cache itself keeps only the response.

* `everyHit_throughout_iff`: a law about hits holds throughout a run exactly if every response
  that is stored is one for which the law holds whatever request comes.
-/

namespace XiraNet

/-- A response that went to the cache, and where it came from. -/
structure StoredResponse where
  execution : GatewayExecution
  /-- The result of the contact with the upstream, with the headers of the plugins. -/
  result : ProxyResult
  storedAt : Instant
  /-- The response that the client of the execution was sent. -/
  sent : SentResponse

/-- The entry of the cache. -/
def StoredResponse.entry (o : StoredResponse) : CachedResponse where
  status := o.result.status
  headers := o.result.headers
  body := o.result.body
  cachedAt := o.storedAt
  varyOn := extractVary o.result.headers

/-- A request that was answered from the cache, with what was stored last under its key. -/
structure CacheAnswer where
  request : HttpRequest
  reply : CachedReply
  origin : Option StoredResponse

/-- The cache with the executions under way, the responses that were stored, the latest first, and
the requests that were answered from the cache. -/
structure SharedCache where
  cache : ResponseCache
  pending : List GatewayExecution
  stored : List (String × StoredResponse)
  answered : List CacheAnswer

/-- What happens to the cache. -/
inductive CacheAction
  /-- The cache check of an execution. -/
  | arrive (now : Instant) (e : GatewayExecution)
  /-- The completion of an execution under way. -/
  | finish (now : Instant) (i : ℕ) (duration : String) (actions : List PluginAction)
      (result : ProxyResult)
  | get (now : Instant) (key : String) (headers : List (String × String))
  | setEnabled (enabled : Bool)
  | setTtlSecs (ttlSecs : ℕ)
  | clear

namespace SharedCache

/-- A cache at the start. -/
def new (maxEntries ttlSecs : ℕ) (enabled : Bool) : SharedCache :=
  ⟨.new maxEntries ttlSecs enabled, [], [], []⟩

/-- What was stored last under a key. -/
def origin (s : SharedCache) (key : String) : Option StoredResponse := s.stored.lookup key

/-- What an execution stores when it is completed, and under which key. -/
def offered (lib : HttpLib) (cache : ResponseCache) (e : GatewayExecution) (now : Instant)
    (duration : String) (actions : List PluginAction) (result : ProxyResult) :
    Option (String × StoredResponse) :=
  match onResponse actions result with
  | .error _ => none
  | .ok r =>
      match e.storeKey r with
      | none => none
      | some key =>
          if cache.enabled ∧ ResponseCache.Storable r.status r.headers then
            some (key, ⟨e, r, now, missResponse lib e.service.transform e.requestId duration r⟩)
          else none

/-- What an action stores. -/
def storedBy (lib : HttpLib) (s : SharedCache) : CacheAction → Option (String × StoredResponse)
  | .finish now i duration actions result =>
      (s.pending[i]?).bind fun e => offered lib s.cache e now duration actions result
  | _ => none

/-- One action. -/
def step (lib : HttpLib) (s : SharedCache) : CacheAction → Option SharedCache
  | .arrive now e =>
      match e.lookup now s.cache with
      | (some reply, cache) =>
          -- A hit ends the execution.
          let answer := ⟨e.request, reply, e.cacheKey.bind s.origin⟩
          some { s with cache, answered := answer :: s.answered }
      | (none, cache) => some { s with cache, pending := s.pending ++ [e] }
  | .finish now i duration actions result =>
      match s.pending[i]? with
      | none => none
      | some e =>
          some { s with
            cache := (e.finish lib now duration actions result s.cache).2
            pending := s.pending.eraseIdx i
            stored := (offered lib s.cache e now duration actions result).toList ++ s.stored }
  | .get now key headers => some { s with cache := (s.cache.get now key headers).2 }
  | .setEnabled enabled => some { s with cache := s.cache.setEnabled enabled }
  | .setTtlSecs ttlSecs => some { s with cache := s.cache.setTtlSecs ttlSecs }
  | .clear => some { s with cache := s.cache.clear }

/-- The executions over one cache as a machine. -/
def machine (lib : HttpLib) : Machine SharedCache CacheAction := ⟨step lib⟩

/-- An execution on its own that gets a result and stores it. -/
def storeRun (e : GatewayExecution) (r : ProxyResult) : List CacheAction :=
  [.setEnabled true, .setTtlSecs 1, .arrive 0 e, .finish 0 0 "" [] r]

/-- The state after `storeRun`. -/
def afterStoreRun (lib : HttpLib) (maxEntries : ℕ) (e : GatewayExecution) (r : ProxyResult)
    (key : String) : SharedCache :=
  let cache := ResponseCache.new maxEntries 1 true
  let o : StoredResponse := ⟨e, r, 0, missResponse lib e.service.transform e.requestId "" r⟩
  { cache := { cache with cache := cache.cache.put key o.entry }
    pending := []
    stored := [(key, o)]
    answered := [] }

/-- A response that an execution with this key has stored, and its client was sent. -/
structure Genuine (lib : HttpLib) (key : String) (o : StoredResponse) : Prop where
  storeKey_eq : o.execution.storeKey o.result = some key
  storable : ResponseCache.Storable o.result.status o.result.headers
  sent_eq : ∃ duration, o.sent =
    missResponse lib o.execution.service.transform o.execution.requestId duration o.result

/-- Every entry of the cache is the response that was stored last under its key, and is good. -/
def Holds (lib : HttpLib) (Good : StoredResponse → Prop) (s : SharedCache) : Prop :=
  ∀ key entry, s.cache.cache.peek key = some entry →
    ∃ o, s.origin key = some o ∧ o.entry = entry ∧ Genuine lib key o ∧ Good o

/-- Every hit obeys a law that relates the stored response, the headers of the request and the
reply, for every request that may come and whatever the lifetime of the entries. -/
def EveryHit (Law : StoredResponse → List (String × String) → CachedReply → Prop)
    (s : SharedCache) : Prop :=
  ∀ ttlSecs now key headers reply,
    ((s.cache.setTtlSecs ttlSecs).get now key headers).1 = some reply →
      ∃ o, s.origin key = some o ∧ Law o headers reply

/-- A step that stores nothing but good responses. -/
def StoresGood (lib : HttpLib) (Good : StoredResponse → Prop) (s : SharedCache)
    (a : CacheAction) : Prop :=
  ∀ p ∈ storedBy lib s a, Good p.2

variable {lib : HttpLib} {s s' : SharedCache} {a : CacheAction}
  {Good : StoredResponse → Prop}
  {Law : StoredResponse → List (String × String) → CachedReply → Prop}

/-- What is stored comes from the execution. -/
theorem offered_spec {cache : ResponseCache} {e : GatewayExecution} {now : Instant}
    {duration : String} {actions : List PluginAction} {result : ProxyResult}
    {p : String × StoredResponse}
    (h : offered lib cache e now duration actions result = some p) :
    Genuine lib p.1 p.2 ∧ cache.enabled = true ∧
      (p.2.execution = e ∧ onResponse actions result = .ok p.2.result) ∧
      (e.finish lib now duration actions result cache).2 =
        { cache with cache := cache.cache.put p.1 p.2.entry } := by
  unfold offered at h
  split at h
  next => cases h
  next r hr =>
    split at h
    next => cases h
    next key hkey =>
      split at h
      next hstored =>
        cases h
        -- The checks of the handler and those of `put` have let the response pass.
        refine ⟨⟨hkey, hstored.2, duration, rfl⟩, hstored.1, ⟨rfl, hr⟩, ?_⟩
        simp only [GatewayExecution.finish, hr, GatewayExecution.store, hkey]
        rw [ResponseCache.put_eq, if_pos hstored]
        rfl
      next => cases h

/-- An execution that stores nothing leaves the cache alone. -/
theorem offered_eq_none {cache : ResponseCache} {e : GatewayExecution} {now : Instant}
    {duration : String} {actions : List PluginAction} {result : ProxyResult}
    (h : offered lib cache e now duration actions result = none) :
    (e.finish lib now duration actions result cache).2 = cache := by
  unfold offered at h
  unfold GatewayExecution.finish
  cases hr : onResponse actions result with
  | error res => rfl
  | ok r =>
      rw [hr] at h
      dsimp only at h ⊢
      unfold GatewayExecution.store
      cases hkey : e.storeKey r with
      | none => rfl
      | some key =>
          rw [hkey] at h
          dsimp only at h ⊢
          -- The handler offers the result, and `put` refuses it.
          rw [ResponseCache.put_eq]
          split at h
          next => cases h
          next hstored => rw [if_neg hstored]

/-- A cache check leaves nothing in the cache that was not there before. -/
theorem peek_of_peek_lookup {e : GatewayExecution} {now : Instant} {cache : ResponseCache}
    {key : String} {entry : CachedResponse}
    (h : (e.lookup now cache).2.cache.peek key = some entry) :
    cache.cache.peek key = some entry := by
  unfold GatewayExecution.lookup at h
  cases hkey : e.cacheKey with
  | none =>
      rw [hkey] at h
      exact h
  | some key' =>
      rw [hkey] at h
      exact ResponseCache.peek_of_peek_get h

/-- A cleared cache finds nothing. -/
theorem peek_clear_ne_some {c : ResponseCache} {key : String} {entry : CachedResponse} :
    c.clear.cache.peek key ≠ some entry := by
  intro h
  exact Option.some_ne_none _ (h.symm.trans (LruCache.peek_clear c.cache key))

/-- A step either stores a response, which is then the entry of its key, or leaves nothing in the
cache that was not there before. -/
theorem step_cases (h : step lib s a = some s') :
    (∃ p, storedBy lib s a = some p ∧ s'.stored = p :: s.stored ∧ Genuine lib p.1 p.2 ∧
        s.cache.enabled = true ∧
          s'.cache = { s.cache with cache := s.cache.cache.put p.1 p.2.entry }) ∨
      (storedBy lib s a = none ∧ s'.stored = s.stored ∧
        ∀ key entry, s'.cache.cache.peek key = some entry →
          s.cache.cache.peek key = some entry) := by
  cases a with
  | arrive now e =>
      have hpeek := fun key entry => @peek_of_peek_lookup e now s.cache key entry
      refine .inr ⟨rfl, ?_⟩
      simp only [step] at h
      split at h
      next hlookup =>
        cases h
        rw [hlookup] at hpeek
        exact ⟨rfl, hpeek⟩
      next hlookup =>
        cases h
        rw [hlookup] at hpeek
        exact ⟨rfl, hpeek⟩
  | finish now i duration actions result =>
      simp only [step] at h
      split at h
      next => cases h
      next e he =>
        cases h
        have hby : storedBy lib s (.finish now i duration actions result) =
            offered lib s.cache e now duration actions result := by simp [storedBy, he]
        cases hoffered : offered lib s.cache e now duration actions result with
        | none =>
            refine .inr ⟨hby.trans hoffered, rfl, fun key entry hpeek => ?_⟩
            rw [offered_eq_none hoffered] at hpeek
            exact hpeek
        | some p =>
            obtain ⟨hgenuine, henabled, -, hcache⟩ := offered_spec hoffered
            exact .inl ⟨p, hby.trans hoffered, rfl, hgenuine, henabled, hcache⟩
  | get now key headers =>
      cases h
      exact .inr ⟨rfl, rfl, fun _ _ => ResponseCache.peek_of_peek_get⟩
  | setEnabled enabled =>
      cases h
      refine .inr ⟨rfl, rfl, fun key entry hpeek => ?_⟩
      cases enabled with
      | true => exact hpeek
      -- Turning the cache off clears it.
      | false => exact absurd hpeek peek_clear_ne_some
  | setTtlSecs ttlSecs =>
      cases h
      exact .inr ⟨rfl, rfl, fun _ _ => id⟩
  | clear =>
      cases h
      exact .inr ⟨rfl, rfl, fun _ _ hpeek => absurd hpeek peek_clear_ne_some⟩

/-- At the start there are no entries. -/
theorem holds_new (maxEntries ttlSecs : ℕ) (enabled : Bool) :
    Holds lib Good (new maxEntries ttlSecs enabled) := by
  intro key entry h
  exact absurd (h.symm.trans (LruCache.peek_new _ _ key)) (Option.some_ne_none _)

/-- A step that stores nothing but good responses leaves nothing but good ones in the cache. -/
theorem holds_step (hs : s.Holds lib Good) (hgood : StoresGood lib Good s a)
    (h : step lib s a = some s') : s'.Holds lib Good := by
  intro key entry hpeek
  obtain ⟨p, hby, hstored, hgenuine, -, hcache⟩ | ⟨-, hstored, hold⟩ := step_cases h
  case inr =>
    unfold origin
    rw [hstored]
    exact hs key entry (hold key entry hpeek)
  case inl =>
    rw [hcache] at hpeek
    unfold origin
    rw [hstored]
    by_cases hkey : key = p.1
    -- The entry that was just stored, or one that was there before.
    · subst hkey
      rw [LruCache.peek_put_self] at hpeek
      refine ⟨p.2, List.lookup_cons_self, Option.some.inj hpeek, hgenuine, hgood p hby⟩
    · rw [List.lookup_cons, beq_false_of_ne hkey]
      exact hs key entry (LruCache.peek_of_peek_put hkey hpeek)

/-- A law that holds for good responses whatever request comes is obeyed by every hit. -/
theorem everyHit_of_holds
    (hlaw : ∀ key o, Genuine lib key o → Good o →
      ∀ headers, o.entry.varyMatches headers = true → Law o headers o.entry.reply)
    (hs : s.Holds lib Good) : s.EveryHit Law := by
  intro ttlSecs now key headers reply hget
  obtain ⟨-, entry, hpeek, -, hmatches, rfl⟩ := ResponseCache.get_eq_some.mp hget
  obtain ⟨o, horigin, rfl, hgenuine, hgood⟩ := hs key entry hpeek
  exact ⟨o, horigin, hlaw key o hgenuine hgood headers hmatches⟩

/-- When a response is stored for which the law may fail, there is a hit that breaks it. -/
theorem not_everyHit_of_stored {p : String × StoredResponse}
    (hby : storedBy lib s a = some p) (h : step lib s a = some s')
    {headers : List (String × String)} (hmatches : p.2.entry.varyMatches headers = true)
    (hlaw : ¬ Law p.2 headers p.2.entry.reply) : ¬ s'.EveryHit Law := by
  intro hevery
  obtain ⟨p', hby', hstored, -, henabled, hcache⟩ | ⟨hnone, -⟩ := step_cases h
  case inr => exact Option.some_ne_none _ (hby.symm.trans hnone)
  case inl =>
    -- The response is the entry of its key now.
    obtain rfl : p = p' := Option.some.inj (hby.symm.trans hby')
    -- A lookup at the instant at which the response was stored.
    have hhit : ((s'.cache.setTtlSecs 1).get p.2.storedAt p.1 headers).1 =
        some p.2.entry.reply := by
      refine ResponseCache.get_eq_some.mpr ⟨?_, p.2.entry, ?_, ?_, hmatches, rfl⟩
      · rw [hcache]
        exact henabled
      · rw [hcache]
        exact LruCache.peek_put_self _ _ _
      · simp [CachedResponse.isExpired, StoredResponse.entry, ResponseCache.setTtlSecs, elapsed,
          fromSecs]
    obtain ⟨o, horigin, ho⟩ := hevery 1 _ _ _ _ hhit
    unfold origin at horigin
    rw [hstored, List.lookup_cons_self] at horigin
    cases horigin
    exact hlaw ho

/-- A law about hits holds throughout a run exactly if every response that is stored is good, when
the good responses are those for which the law holds whatever request comes. -/
theorem everyHit_throughout_iff
    (hgood : ∀ key o, Genuine lib key o →
      (Good o ↔ ∀ headers, o.entry.varyMatches headers = true → Law o headers o.entry.reply))
    (maxEntries ttlSecs : ℕ) (enabled : Bool) {as : List CacheAction}
    (hrun : (machine lib).Runs Machine.unrestricted (new maxEntries ttlSecs enabled) as s) :
    (machine lib).Throughout (EveryHit Law) (new maxEntries ttlSecs enabled) as ↔
      (machine lib).Runs (StoresGood lib Good) (new maxEntries ttlSecs enabled) as s := by
  refine Machine.Runs.throughout_iff
    (fun t ht => everyHit_of_holds (fun key o ho hg => (hgood key o ho).mp hg) ht)
    (fun t b t' ht hok hst => holds_step ht hok hst) (fun t b t' ht hok hst => ?_) hrun
    (holds_new maxEntries ttlSecs enabled)
  -- A response that is not good comes with a request for which the law fails.
  obtain ⟨p, hby, hbad⟩ : ∃ p ∈ storedBy lib t b, ¬ Good p.2 := by
    unfold StoresGood at hok
    push Not at hok
    exact hok
  have hgenuine : Genuine lib p.1 p.2 := by
    obtain ⟨p', hby', -, hgenuine, -⟩ | ⟨hnone, -⟩ := step_cases hst
    · rwa [Option.mem_unique hby hby']
    · exact absurd (hby.symm.trans hnone) (Option.some_ne_none _)
  obtain ⟨headers, hmatches, hlaw⟩ : ∃ headers, p.2.entry.varyMatches headers = true ∧
      ¬ Law p.2 headers p.2.entry.reply := by
    rw [hgood p.1 p.2 hgenuine] at hbad
    push Not at hbad
    exact hbad
  exact not_everyHit_of_stored hby hst hmatches hlaw

/-- An execution on its own that stores its result is a run. -/
theorem runs_storeRun {ok : SharedCache → CacheAction → Prop} {e : GatewayExecution}
    {r : ProxyResult} (key : String) (maxEntries ttlSecs : ℕ) (enabled : Bool)
    (hkey : e.storeKey r = some key) (hstorable : ResponseCache.Storable r.status r.headers)
    (hsettings : ∀ t, ok t (.setEnabled true) ∧ ok t (.setTtlSecs 1))
    (harrive : ∀ t, ok t (.arrive 0 e))
    (hfinish : ∀ t, t.pending = [e] → ok t (.finish 0 0 "" [] r)) :
    (machine lib).Runs ok (new maxEntries ttlSecs enabled) (storeRun e r)
      (afterStoreRun lib maxEntries e r key) := by
  refine .cons (hsettings _).1 rfl (.cons (hsettings _).2 rfl
    (.cons (t := ⟨.new maxEntries 1 true, [e], [], []⟩) (harrive _) ?_
      (.cons (hfinish _ rfl) ?_ (.nil _))))
  · -- There are no entries yet, so the cache check is a miss.
    have hmiss : e.lookup 0 (.new maxEntries 1 true) = (none, .new maxEntries 1 true) := by
      unfold GatewayExecution.lookup
      cases e.cacheKey <;> rfl
    have hstep : step lib ⟨.new maxEntries 1 true, [], [], []⟩ (.arrive 0 e) =
        some ⟨.new maxEntries 1 true, [e], [], []⟩ := by
      simp only [step, hmiss]
      rfl
    exact hstep
  -- The execution is the only one under way, and its result passes all checks.
  · have hoffered : offered lib (.new maxEntries 1 true) e 0 "" [] r =
        some (key, ⟨e, r, 0, missResponse lib e.service.transform e.requestId "" r⟩) := by
      simp only [offered, onResponse, hkey]
      exact if_pos ⟨rfl, hstorable⟩
    obtain ⟨-, -, -, hcache⟩ := offered_spec hoffered
    have hstep : step lib ⟨.new maxEntries 1 true, [e], [], []⟩ (.finish 0 0 "" [] r) =
        some (afterStoreRun lib maxEntries e r key) := by
      simp only [step, List.getElem?_cons_zero, hoffered, hcache]
      rfl
    exact hstep

/-- An execution on its own that stores its result is a run without a condition. -/
theorem runs_storeRun_unrestricted {e : GatewayExecution} {r : ProxyResult} (key : String)
    (maxEntries ttlSecs : ℕ) (enabled : Bool) (hkey : e.storeKey r = some key)
    (hstorable : ResponseCache.Storable r.status r.headers) :
    (machine lib).Runs Machine.unrestricted (new maxEntries ttlSecs enabled) (storeRun e r)
      (afterStoreRun lib maxEntries e r key) :=
  runs_storeRun key maxEntries ttlSecs enabled hkey hstorable (fun _ => ⟨trivial, trivial⟩)
    (fun _ => trivial) fun _ _ => trivial

/-- An execution on its own that stores a good response is a run that stores nothing else. -/
theorem runs_storeRun_storesGood {e : GatewayExecution} {r : ProxyResult} (key : String)
    (maxEntries ttlSecs : ℕ) (enabled : Bool) (hkey : e.storeKey r = some key)
    (hstorable : ResponseCache.Storable r.status r.headers)
    (hgood : ∀ o : StoredResponse, o.execution = e → o.result = r → Good o) :
    (machine lib).Runs (StoresGood lib Good) (new maxEntries ttlSecs enabled) (storeRun e r)
      (afterStoreRun lib maxEntries e r key) := by
  have hnothing : ∀ (t : SharedCache) (b : CacheAction), storedBy lib t b = none →
      StoresGood lib Good t b := by
    intro t b hnone p hp
    exact absurd (hp.symm.trans hnone) (Option.some_ne_none p)
  -- Only the completion stores something.
  refine runs_storeRun key maxEntries ttlSecs enabled hkey hstorable
    (fun t => ⟨hnothing t _ rfl, hnothing t _ rfl⟩) (fun t => hnothing t _ rfl) ?_
  intro t ht p hp
  simp only [storedBy, ht, List.getElem?_cons_zero, Option.bind_some] at hp
  obtain ⟨-, -, ⟨hexecution, hresult⟩, -⟩ := offered_spec hp
  exact hgood p.2 hexecution (Except.ok.inj hresult).symm

/-- What the cache finds after `storeRun`. -/
theorem get_afterStoreRun (lib : HttpLib) (maxEntries : ℕ) (e : GatewayExecution) (r : ProxyResult)
    (key : String) {headers : List (String × String)}
    (hmatches : CachedResponse.varyMatches ⟨r.status, r.headers, r.body, 0, extractVary r.headers⟩
      headers = true) :
    ((afterStoreRun lib maxEntries e r key).cache.get 0 key headers).1 =
      some ⟨r.status, r.headers, r.body⟩ :=
  ResponseCache.get_eq_some.mpr
    ⟨rfl, _, LruCache.peek_put_self _ _ _, rfl, hmatches, rfl⟩

end SharedCache

end XiraNet

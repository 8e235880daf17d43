import XiraNet.Gateway.Cache
import XiraNet.Lib.LruRecency
import XiraNet.Lib.Runs

/-!
# What the response cache remembers

The calls of a `ResponseCache` from several threads. A call reads the settings first and takes the
lock of the entries after that, so the settings may change in between, and other calls may take the
lock first.

* `CacheCalls.retained_of_runs`: in every interleaving a lookup is answered like by a cache without
  bound, or not at all; it is answered as long as fewer other keys than the cache has room for were
  stored or found since its key was.
-/

namespace XiraNet

/-- A `get` that has found the cache enabled. -/
structure PendingLookup where
  key : String
  requestHeaders : List (String × String)
  /-- `ttl_secs`, once it is loaded. -/
  ttlSecs : Option ℕ
  deriving DecidableEq

/-- A `put` whose response has passed the checks. -/
structure PendingStore where
  key : String
  status : ℕ
  headers : List (String × String)
  body : List UInt8
  deriving DecidableEq

/-- The entry of a response. -/
def PendingStore.entry (p : PendingStore) (now : Instant) : CachedResponse :=
  ⟨p.status, p.headers, p.body, now, extractVary p.headers⟩

/-- The answer to a lookup, next to the answer of a cache without bound. -/
structure LookupAnswer where
  reply : Option CachedReply
  plainReply : Option CachedReply
  /-- The keys that were used since the key of the lookup was used last. -/
  usesSince : List String
  deriving DecidableEq

/-- A cache with the calls that are under way. -/
structure CacheCalls where
  cache : ResponseCache
  lookups : List PendingLookup
  stores : List PendingStore
  /-- The calls of `clear` that have yet to take the lock. -/
  clears : ℕ
  /-- What a cache without bound would hold. -/
  plain : String → Option CachedResponse
  /-- The keys that were stored or found, the latest first. -/
  uses : List String
  answers : List LookupAnswer

/-- A step of a call. -/
inductive CacheCallAction
  /-- `get` checks `enabled`. -/
  | get (key : String) (requestHeaders : List (String × String))
  /-- A lookup loads `ttl_secs`. -/
  | loadTtl (i : ℕ)
  /-- A lookup takes the lock. -/
  | look (now : Instant) (i : ℕ)
  /-- `put` checks `enabled` and the response. -/
  | put (key : String) (status : ℕ) (headers : List (String × String)) (body : List UInt8)
  /-- A `put` takes the lock. -/
  | store (now : Instant) (i : ℕ)
  /-- `set_enabled` sets the flag. -/
  | setEnabled (enabled : Bool)
  | setTtlSecs (ttlSecs : ℕ)
  /-- `clear` is called. -/
  | clear
  /-- A `clear` takes the lock. -/
  | clearEntries

namespace CachedResponse

/-- What a lookup makes of the entry it has found. -/
def answer (entry : CachedResponse) (now : Instant) (ttlSecs : ℕ)
    (requestHeaders : List (String × String)) : Option CachedReply :=
  if entry.isExpired now ttlSecs then none
  else if !entry.varyMatches requestHeaders then none
  else some entry.reply

end CachedResponse

/-- What `get` does under the lock. -/
def lockedLook (cache : LruCache String CachedResponse) (now : Instant) (ttlSecs : ℕ)
    (key : String) (requestHeaders : List (String × String)) :
    Option CachedReply × LruCache String CachedResponse :=
  match cache.get key with
  | (some entry, cache) =>
      (entry.answer now ttlSecs requestHeaders,
        if entry.isExpired now ttlSecs then cache.pop key else cache)
  | (none, cache) => (none, cache)

/-- The same in a cache without bound. -/
def plainLook (plain : String → Option CachedResponse) (now : Instant) (ttlSecs : ℕ)
    (key : String) (requestHeaders : List (String × String)) :
    Option CachedReply × (String → Option CachedResponse) :=
  match plain key with
  | some entry =>
      (entry.answer now ttlSecs requestHeaders,
        if entry.isExpired now ttlSecs then Function.update plain key none else plain)
  | none => (none, plain)

/-- A `get` on its own. -/
theorem ResponseCache.get_eq_look (c : ResponseCache) (now : Instant) (key : String)
    (requestHeaders : List (String × String)) :
    c.get now key requestHeaders =
      if c.enabled then
        ((lockedLook c.cache now c.ttlSecs key requestHeaders).1,
          { c with cache := (lockedLook c.cache now c.ttlSecs key requestHeaders).2 })
      else (none, c) := by
  unfold get lockedLook CachedResponse.answer
  cases c.enabled with
  | false => rfl
  | true =>
      obtain ⟨found, cache⟩ := c.cache.get key
      cases found with
      | none => rfl
      | some entry =>
          cases hexpired : entry.isExpired now c.ttlSecs with
          | true => simp [hexpired]
          | false => cases hvary : entry.varyMatches requestHeaders <;> simp [hexpired, hvary]

/-- A `put` on its own. -/
theorem ResponseCache.put_eq_store (c : ResponseCache) (now : Instant) (p : PendingStore) :
    c.put now p.key p.status p.headers p.body =
      if c.enabled ∧ Storable p.status p.headers then
        { c with cache := c.cache.put p.key (p.entry now) }
      else c :=
  c.put_eq now p.key p.status p.headers p.body

namespace CacheCalls

/-- One step. -/
def step (s : CacheCalls) : CacheCallAction → Option CacheCalls
  | .get key requestHeaders =>
      if s.cache.enabled then
        some { s with lookups := s.lookups ++ [⟨key, requestHeaders, none⟩] }
      else some s
  | .loadTtl i =>
      (s.lookups[i]?).map fun l =>
        { s with lookups := s.lookups.set i { l with ttlSecs := some s.cache.ttlSecs } }
  | .look now i =>
      (s.lookups[i]?).bind fun l =>
        l.ttlSecs.map fun ttlSecs =>
          let (reply, cache) := lockedLook s.cache.cache now ttlSecs l.key l.requestHeaders
          let (plainReply, plain) := plainLook s.plain now ttlSecs l.key l.requestHeaders
          -- An entry that is found and not expired has been used.
          let used := (s.cache.cache.peek l.key).any fun entry => !entry.isExpired now ttlSecs
          { s with
            cache := { s.cache with cache }
            lookups := s.lookups.eraseIdx i
            plain
            uses := if used then l.key :: s.uses else s.uses
            answers := ⟨reply, plainReply, LruCache.usesSince s.uses l.key⟩ :: s.answers }
  | .put key status headers body =>
      if s.cache.enabled ∧ ResponseCache.Storable status headers then
        some { s with stores := s.stores ++ [⟨key, status, headers, body⟩] }
      else some s
  | .store now i =>
      (s.stores[i]?).map fun p =>
        { s with
          cache := { s.cache with cache := s.cache.cache.put p.key (p.entry now) }
          stores := s.stores.eraseIdx i
          plain := Function.update s.plain p.key (some (p.entry now))
          uses := p.key :: s.uses }
  | .setEnabled enabled =>
      some { s with
        cache := { s.cache with enabled }
        clears := if enabled then s.clears else s.clears + 1 }
  | .setTtlSecs ttlSecs => some { s with cache := s.cache.setTtlSecs ttlSecs }
  | .clear => some { s with clears := s.clears + 1 }
  | .clearEntries =>
      if s.clears = 0 then none
      else some { s with
        cache := s.cache.clear
        clears := s.clears - 1
        plain := fun _ => none }

/-- A new cache. -/
def initial (maxEntries ttlSecs : ℕ) (enabled : Bool) : CacheCalls where
  cache := .new maxEntries ttlSecs enabled
  lookups := []
  stores := []
  clears := 0
  plain _ := none
  uses := []
  answers := []

/-- Every interleaving. -/
def machine : Machine CacheCalls CacheCallAction := ⟨step⟩

/-- What the cache remembers. -/
structure Retained (capacity : ℕ) (s : CacheCalls) : Prop where
  cap_eq : s.cache.cache.cap = capacity
  follows : s.cache.cache.Follows s.plain s.uses
  /-- A lookup is answered like without a bound, or not at all. -/
  sound : ∀ a ∈ s.answers, a.reply = none ∨ a.reply = a.plainReply
  /-- It is answered like without a bound where few other keys were used. -/
  answered : ∀ a ∈ s.answers, a.usesSince.toFinset.card < capacity → a.reply = a.plainReply

variable {capacity : ℕ} {s s' : CacheCalls}

/-- The answer of the cache, from the entry that is there. -/
theorem look_fst (cache : LruCache String CachedResponse) (now : Instant) (ttlSecs : ℕ)
    (key : String) (requestHeaders : List (String × String)) :
    (lockedLook cache now ttlSecs key requestHeaders).1 =
      (cache.peek key).bind fun entry => entry.answer now ttlSecs requestHeaders := by
  unfold lockedLook
  rw [← cache.get_fst key]
  obtain ⟨found, cache'⟩ := cache.get key
  cases found with
  | none => rfl
  | some entry => rw [Option.bind_some]

/-- The answer of the cache without bound. -/
theorem plainLook_fst (plain : String → Option CachedResponse) (now : Instant) (ttlSecs : ℕ)
    (key : String) (requestHeaders : List (String × String)) :
    (plainLook plain now ttlSecs key requestHeaders).1 =
      (plain key).bind fun entry => entry.answer now ttlSecs requestHeaders := by
  unfold plainLook
  cases plain key with
  | none => rfl
  | some entry => rw [Option.bind_some]

/-- A lookup keeps the two caches together. -/
theorem follows_look {cache : LruCache String CachedResponse}
    {plain : String → Option CachedResponse} {uses : List String}
    (h : cache.Follows plain uses) (now : Instant) (ttlSecs : ℕ) (key : String)
    (requestHeaders : List (String × String)) :
    (lockedLook cache now ttlSecs key requestHeaders).2.Follows
      (plainLook plain now ttlSecs key requestHeaders).2
        (if (cache.peek key).any fun entry => !entry.isExpired now ttlSecs then key :: uses
          else uses) := by
  cases hfound : cache.peek key with
  | none =>
      -- The cache without bound may find an entry and forget it.
      have hlook : (lockedLook cache now ttlSecs key requestHeaders).2 = cache := by
        unfold lockedLook LruCache.get
        rw [hfound]
      rw [hlook]
      unfold plainLook
      split
      next entry hplain =>
        split
        next => exact h.forget hfound
        next => exact h
      next => exact h
  | some entry =>
      have hplain := h.sound hfound
      have hpair : cache.get key = (some entry, (cache.get key).2) :=
        Prod.ext ((cache.get_fst key).trans hfound) rfl
      unfold lockedLook plainLook
      rw [hpair, hplain]
      dsimp only
      cases hexpired : entry.isExpired now ttlSecs with
      | true =>
          rw [if_pos rfl, if_pos rfl, LruCache.pop_get, Option.any_some, hexpired]
          exact h.pop key
      | false =>
          rw [if_neg Bool.false_ne_true, if_neg Bool.false_ne_true, Option.any_some, hexpired]
          exact h.get hfound

/-- What is kept under the bound. -/
theorem cap_look (cache : LruCache String CachedResponse) (now : Instant) (ttlSecs : ℕ)
    (key : String) (requestHeaders : List (String × String)) :
    (lockedLook cache now ttlSecs key requestHeaders).2.cap = cache.cap := by
  unfold lockedLook LruCache.get
  split
  next hget =>
    split at hget
    · cases hget
      split <;> rfl
    · cases hget
  next hget =>
    split at hget
    · cases hget
    · cases hget
      rfl

/-- A step keeps what the cache remembers. -/
theorem retained_step (s : CacheCalls) (a : CacheCallAction) (s' : CacheCalls)
    (hs : s.Retained capacity) (_ : Machine.unrestricted s a) (h : s.step a = some s') :
    s'.Retained capacity := by
  cases a with
  | get key requestHeaders =>
      simp only [step] at h
      split at h <;> cases h
      · exact ⟨hs.cap_eq, hs.follows, hs.sound, hs.answered⟩
      · exact hs
  | loadTtl i =>
      obtain ⟨l, -, rfl⟩ := Option.map_eq_some_iff.mp h
      exact ⟨hs.cap_eq, hs.follows, hs.sound, hs.answered⟩
  | look now i =>
      obtain ⟨l, -, hl⟩ := Option.bind_eq_some_iff.mp h
      obtain ⟨ttlSecs, -, rfl⟩ := Option.map_eq_some_iff.mp hl
      refine ⟨(cap_look ..).trans hs.cap_eq, follows_look hs.follows .., ?_, ?_⟩
      · refine List.forall_mem_cons.mpr ⟨?_, hs.sound⟩
        dsimp only
        rw [look_fst, plainLook_fst]
        obtain hnone | heq := hs.follows.peek_eq_none_or l.key
        · rw [hnone]
          exact .inl rfl
        · rw [heq]
          exact .inr rfl
      · refine List.forall_mem_cons.mpr ⟨fun hfew => ?_, hs.answered⟩
        dsimp only at hfew ⊢
        rw [← hs.cap_eq] at hfew
        rw [look_fst, plainLook_fst, hs.follows.peek_eq hfew]
  | put key status headers body =>
      simp only [step] at h
      split at h <;> cases h
      · exact ⟨hs.cap_eq, hs.follows, hs.sound, hs.answered⟩
      · exact hs
  | store now i =>
      obtain ⟨p, -, rfl⟩ := Option.map_eq_some_iff.mp h
      exact ⟨hs.cap_eq, hs.follows.put p.key (p.entry now), hs.sound, hs.answered⟩
  | setEnabled enabled =>
      cases h
      exact ⟨hs.cap_eq, hs.follows, hs.sound, hs.answered⟩
  | setTtlSecs ttlSecs =>
      cases h
      exact ⟨hs.cap_eq, hs.follows, hs.sound, hs.answered⟩
  | clear =>
      cases h
      exact ⟨hs.cap_eq, hs.follows, hs.sound, hs.answered⟩
  | clearEntries =>
      simp only [step] at h
      split at h <;> cases h
      exact ⟨hs.cap_eq, .clear _ _, hs.sound, hs.answered⟩

/-- In every interleaving the cache answers a lookup like a cache without bound, or not at all; it
answers the lookup if fewer other keys than it has room for were used since the key was. -/
theorem retained_of_runs {maxEntries ttlSecs : ℕ} {enabled : Bool} {as : List CacheCallAction}
    (hrun : machine.Runs Machine.unrestricted (initial maxEntries ttlSecs enabled) as s) :
    s.Retained (max maxEntries 1) :=
  hrun.invariant retained_step ⟨rfl, .new _ _ _, by simp [initial], by simp [initial]⟩

/-- Three responses in a cache with room for two. -/
def threeResponses : List CacheCallAction :=
  [.put "GET:/a" 200 [] [1], .put "GET:/b" 200 [] [2], .put "GET:/c" 200 [] [3], .store 0 0,
    .store 0 0, .get "GET:/a" [], .loadTtl 0, .look 5 0, .store 6 0, .get "GET:/a" [],
    .get "GET:/b" [], .setEnabled false, .loadTtl 0, .look 7 0, .loadTtl 0, .look 8 0]

/-- The response used longest ago is forgotten. -/
theorem retained_threeResponses : ∃ s, machine.Runs Machine.unrestricted (initial 2 60 true)
    threeResponses s ∧ s.answers.map LookupAnswer.reply =
      [none, some ⟨200, [], [1]⟩, some ⟨200, [], [1]⟩] ∧ s.Retained 2 := by
  obtain ⟨s, hs, hanswers⟩ : ∃ s, machine.exec Machine.unrestricted (initial 2 60 true)
      threeResponses = some s ∧ s.answers.map LookupAnswer.reply =
        [none, some ⟨200, [], [1]⟩, some ⟨200, [], [1]⟩] := by
    refine ⟨_, rfl, ?_⟩
    decide
  have hrun := Machine.runs_of_exec hs
  exact ⟨s, hrun, hanswers, retained_of_runs hrun⟩

end CacheCalls

end XiraNet

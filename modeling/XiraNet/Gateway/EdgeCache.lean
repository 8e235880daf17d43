import Mathlib.Data.Finset.Card
import XiraNet.Base
import XiraNet.Lib.Bytes
import XiraNet.Lib.DashMap
import XiraNet.Lib.Runs

/-!
# Edge cache

`gateway/edge_cache.rs`. A call of `store` tests the size of the map, chooses an entry to evict,
removes it and inserts its own in separate steps, and a call of `check` that finds an expired entry
removes what stands under its key in a step of its own. Any number of calls overlap.

* `EdgeCacheState.lawful_iff`: in which runs an entry disappears only for a lawful reason, and
  in which runs the number of entries stays bounded.
* `EdgeCacheState.lawful_fails`: a store of a stored key evicts another entry, and two stores that
  overlap exceed the bound.
-/

namespace XiraNet

/-- `EdgeCacheEntry`. -/
structure EdgeCacheEntry where
  etag : String
  body : List UInt8
  contentType : String
  status : ℕ
  headers : List (String × String)
  createdAt : ℕ
  ttlSecs : ℕ
  hits : ℕ
  deriving DecidableEq, Repr

/-- `CacheDecision`. -/
inductive CacheDecision
  | hit (entry : EdgeCacheEntry)
  | notModified (etag : String)
  | miss
  deriving DecidableEq, Repr

/-- `EdgeCache`. -/
structure EdgeCache where
  entries : DashMap String EdgeCacheEntry
  maxEntries : ℕ
  enabled : Bool

/-- The arguments of a call of `store`. -/
structure EdgeStore where
  cacheKey : String
  body : List UInt8
  contentType : String
  status : ℕ
  headers : List (String × String)
  ttlSecs : ℕ
  deriving DecidableEq, Repr

namespace EdgeCacheEntry

/-- The test of `check`. The sum wraps in a release build. -/
def isStale (e : EdgeCacheEntry) (now : ℕ) : Bool := wrappingAdd e.createdAt e.ttlSecs < now

/-- The entry has expired. -/
def Expired (e : EdgeCacheEntry) (now : ℕ) : Prop := e.createdAt + e.ttlSecs < now

instance (e : EdgeCacheEntry) (now : ℕ) : Decidable (e.Expired now) :=
  inferInstanceAs (Decidable (_ < _))

/-- Whether a client has the entry, by the tag it sends. -/
def matchesTag (e : EdgeCacheEntry) (clientEtag : String) : Bool :=
  clientEtag = e.etag || clientEtag = "\"" ++ e.etag ++ "\""

/-- The entry after a hit. -/
def hit (e : EdgeCacheEntry) : EdgeCacheEntry := { e with hits := wrappingAdd e.hits 1 }

/-- An entry that the test takes for fresh has not expired. -/
theorem not_expired_of_not_isStale {e : EdgeCacheEntry} {now : ℕ} (h : e.isStale now = false) :
    now ≤ e.createdAt + e.ttlSecs := by
  have hle : now ≤ wrappingAdd e.createdAt e.ttlSecs := by simpa [isStale] using h
  exact hle.trans (Nat.mod_le _ _)

end EdgeCacheEntry

/-- The tag that `store` computes and returns: the first half of the digest. -/
def EdgeStore.etag (sha256 : List UInt8 → List UInt8) (c : EdgeStore) : String :=
  String.ofList (Hex.lower ((sha256 c.body).take 16))

/-- The entry that `store` inserts. -/
def EdgeStore.entry (sha256 : List UInt8 → List UInt8) (c : EdgeStore) (now : ℕ) :
    EdgeCacheEntry where
  etag := c.etag sha256
  body := c.body
  contentType := c.contentType
  status := c.status
  headers := c.headers
  createdAt := now
  ttlSecs := c.ttlSecs
  hits := 0

namespace EdgeCache

/-- `EdgeCache::new`. -/
def new (maxEntries : ℕ) (enabled : Bool) : EdgeCache := ⟨∅, maxEntries, enabled⟩

/-- `check` while it holds the entry. There is no decision where the entry is stale and is to be
removed. -/
def check (cache : EdgeCache) (cacheKey : String) (ifNoneMatch : Option String) (now : ℕ) :
    EdgeCache × Option CacheDecision :=
  if !cache.enabled then (cache, some .miss)
  else
    match cache.entries.lookup cacheKey with
    | none => (cache, some .miss)
    | some e =>
        if e.isStale now then (cache, none)
        else
          let cache := { cache with entries := cache.entries.insert cacheKey e.hit }
          match ifNoneMatch with
          | some clientEtag =>
              if e.matchesTag clientEtag then (cache, some (.notModified e.etag))
              else (cache, some (.hit e.hit))
          | none => (cache, some (.hit e.hit))

/-- The size test of `store`. -/
def isFull (cache : EdgeCache) : Bool := cache.maxEntries ≤ cache.entries.entries.length

/-- The keys that `store` may choose to evict: an iteration finds one of the oldest entries. -/
def oldestKeys (cache : EdgeCache) : List String :=
  (cache.entries.entries.filter fun e =>
    cache.entries.values.all fun e' => e.2.createdAt ≤ e'.createdAt).map Sigma.fst

/-- Remove what stands under a key. -/
def remove (cache : EdgeCache) (key : String) : EdgeCache :=
  { cache with entries := cache.entries.erase key }

/-- The insertion of `store`. -/
def insert (cache : EdgeCache) (sha256 : List UInt8 → List UInt8) (c : EdgeStore) (now : ℕ) :
    EdgeCache :=
  { cache with entries := cache.entries.insert c.cacheKey (c.entry sha256 now) }

/-- `clear`. -/
def clear (cache : EdgeCache) : EdgeCache := { cache with entries := ∅ }

end EdgeCache

/-- Where a call stands between two of its steps. -/
inductive EdgeCall
  /-- `store` has found the map full. -/
  | choosing (c : EdgeStore)
  /-- `store` has chosen an entry to evict. -/
  | evicting (victim : String) (c : EdgeStore)
  /-- `store` has made room. -/
  | inserting (c : EdgeStore)
  /-- `check` has found a stale entry. -/
  | expiring (cacheKey : String) (now : ℕ)
  deriving DecidableEq, Repr

/-- The key that a call is about to insert. -/
def EdgeCall.insertKey : EdgeCall → Option String
  | .inserting c => some c.cacheKey
  | _ => none

/-- One step of a call. -/
inductive EdgeCacheAction
  /-- The size test of a new call of `store`. -/
  | store (c : EdgeStore)
  /-- The choice of an entry to evict, if there is any. -/
  | choose (c : EdgeStore) (victim : Option String)
  | evict (victim : String) (c : EdgeStore)
  | insert (c : EdgeStore) (now : ℕ)
  /-- A new call of `check`. -/
  | check (cacheKey : String) (ifNoneMatch : Option String) (now : ℕ)
  /-- `check` removes what stands under its key. -/
  | expire (cacheKey : String) (now : ℕ)
  | clear
  deriving DecidableEq, Repr

/-- The cache and the calls under way. -/
structure EdgeCacheState where
  cache : EdgeCache
  calls : List EdgeCall

namespace EdgeCacheState

/-- A new cache. -/
def initial (maxEntries : ℕ) : EdgeCacheState := ⟨.new maxEntries true, []⟩

/-- A call under way goes on, or returns, and leaves the cache `cache`. -/
def move (s : EdgeCacheState) (call : EdgeCall) (next : Option EdgeCall) (cache : EdgeCache) :
    Option EdgeCacheState :=
  if call ∈ s.calls then some ⟨cache, next.toList ++ s.calls.erase call⟩ else none

/-- One step. -/
def step (sha256 : List UInt8 → List UInt8) (s : EdgeCacheState) :
    EdgeCacheAction → Option EdgeCacheState
  | .store c =>
      some { s with calls := (if s.cache.isFull then .choosing c else .inserting c) :: s.calls }
  | .choose c (some victim) =>
      if victim ∈ s.cache.oldestKeys then s.move (.choosing c) (some (.evicting victim c)) s.cache
      else none
  | .choose c none =>
      if s.cache.oldestKeys = [] then s.move (.choosing c) (some (.inserting c)) s.cache else none
  | .evict victim c =>
      s.move (.evicting victim c) (some (.inserting c)) (s.cache.remove victim)
  | .insert c now => s.move (.inserting c) none (s.cache.insert sha256 c now)
  | .check cacheKey ifNoneMatch now =>
      match s.cache.check cacheKey ifNoneMatch now with
      | (cache, some _) => some { s with cache }
      | (cache, none) => some ⟨cache, .expiring cacheKey now :: s.calls⟩
  | .expire cacheKey now => s.move (.expiring cacheKey now) none (s.cache.remove cacheKey)
  | .clear => some { s with cache := s.cache.clear }

/-- Every interleaving of calls. -/
def machine (sha256 : List UInt8 → List UInt8) : Machine EdgeCacheState EdgeCacheAction :=
  ⟨step sha256⟩

/-- Where no call is running, there are no more entries than allowed. -/
def Bounded (s : EdgeCacheState) : Prop :=
  s.calls = [] → s.cache.entries.entries.length ≤ s.cache.maxEntries

/-- The reasons for which an action may make the entry of a key disappear: a store of the key, an
eviction by a store of a key that is not present while the cache is full, its expiry, or `clear`. -/
def Excused (s : EdgeCacheState) (key : String) (e : EdgeCacheEntry) : EdgeCacheAction → Prop
  | .insert c _ => c.cacheKey = key
  | .evict _ c => c.cacheKey = key ∨ (c.cacheKey ∉ s.cache.entries ∧ s.cache.isFull = true)
  | .expire cacheKey now => cacheKey = key ∧ e.Expired now
  | .clear => True
  | .store _ | .choose _ _ | .check _ _ _ => False

/-- An entry disappears only for one of these reasons, and `NotModified` has the tag of an entry
that is stored and has not expired. -/
structure Lawful (s : EdgeCacheState) (a : EdgeCacheAction) (t : EdgeCacheState) : Prop where
  kept : ∀ key e, s.cache.entries.lookup key = some e →
    (∃ hits, t.cache.entries.lookup key = some { e with hits }) ∨ s.Excused key e a
  tagged : ∀ cacheKey ifNoneMatch now etag, a = .check cacheKey ifNoneMatch now →
    (s.cache.check cacheKey ifNoneMatch now).2 = some (.notModified etag) →
      ∃ e, s.cache.entries.lookup cacheKey = some e ∧ e.etag = etag ∧ ¬e.Expired now

/-- The entry that a call evicts is gone already, or has its key, or has to make room for it; and
what `check` removes as stale is an entry that has expired. -/
def RemovesLawfully (s : EdgeCacheState) : EdgeCacheAction → Prop
  | .evict victim c => victim ∉ s.cache.entries ∨ c.cacheKey = victim ∨
      (c.cacheKey ∉ s.cache.entries ∧ s.cache.isFull = true)
  | .expire cacheKey now => ∀ e ∈ s.cache.entries.lookup cacheKey, e.Expired now
  | _ => True

instance (s : EdgeCacheState) : (a : EdgeCacheAction) → Decidable (s.RemovesLawfully a)
  | .evict _ _ => inferInstanceAs (Decidable (_ ∨ _))
  | .expire cacheKey now =>
      inferInstanceAs (Decidable (∀ e ∈ s.cache.entries.lookup cacheKey, e.Expired now))
  | .store _ | .choose _ _ | .insert _ _ | .check _ _ _ | .clear => .isTrue trivial

/-- The keys that are stored, or are about to be inserted by a call. -/
def reserved (s : EdgeCacheState) : Finset String :=
  (s.cache.entries.keys ++ s.calls.filterMap EdgeCall.insertKey).toFinset

/-- A call goes on to its insertion only where there is room for its key beside the keys that are
stored and those that other calls are about to insert. -/
def LeavesRoom (s : EdgeCacheState) : EdgeCacheAction → Prop
  | .store c => s.cache.isFull = true ∨
      (Insert.insert c.cacheKey s.reserved).card ≤ s.cache.maxEntries
  | .choose c none => (Insert.insert c.cacheKey s.reserved).card ≤ s.cache.maxEntries
  | .evict victim c => (Insert.insert c.cacheKey
      (reserved { s with cache := s.cache.remove victim })).card ≤ s.cache.maxEntries
  | _ => True

instance (s : EdgeCacheState) : (a : EdgeCacheAction) → Decidable (s.LeavesRoom a)
  | .store _ => inferInstanceAs (Decidable (_ ∨ _))
  | .choose _ none | .evict _ _ => inferInstanceAs (Decidable (_ ≤ _))
  | .choose _ (some _) | .insert _ _ | .check _ _ _ | .expire _ _ | .clear => .isTrue trivial

variable {sha256 : List UInt8 → List UInt8} {s t : EdgeCacheState} {a : EdgeCacheAction}

/-- What a call does that goes on. -/
theorem move_eq_some {call : EdgeCall} {next : Option EdgeCall} {cache : EdgeCache}
    (h : s.move call next cache = some t) :
    call ∈ s.calls ∧ t = ⟨cache, next.toList ++ s.calls.erase call⟩ := by
  obtain ⟨hmem, h⟩ := Option.ite_none_right_eq_some.mp h
  exact ⟨hmem, (Option.some.inj h).symm⟩

/-- The choice of an entry to evict only moves the call. -/
theorem move_of_choose {c : EdgeStore} {victim : Option String}
    (h : s.step sha256 (.choose c victim) = some t) :
    s.move (.choosing c) (some (victim.elim (.inserting c) fun key => .evicting key c)) s.cache =
      some t := by
  cases victim with
  | none => exact (Option.ite_none_right_eq_some.mp h).2
  | some key => exact (Option.ite_none_right_eq_some.mp h).2

/-- `check` counts a hit of the entry of its key, or changes nothing. -/
theorem check_fst (cache : EdgeCache) (cacheKey : String) (ifNoneMatch : Option String) (now : ℕ) :
    (cache.check cacheKey ifNoneMatch now).1 = cache ∨
      ∃ e, cache.entries.lookup cacheKey = some e ∧
        (cache.check cacheKey ifNoneMatch now).1 =
          { cache with entries := cache.entries.insert cacheKey e.hit } := by
  unfold EdgeCache.check
  split
  · exact .inl rfl
  · split
    next => exact .inl rfl
    next e he =>
      split
      · exact .inl rfl
      · refine .inr ⟨e, he, ?_⟩
        cases ifNoneMatch with
        | none => rfl
        | some clientEtag =>
            dsimp only
            split <;> rfl

/-- `check` keeps every entry, but for the count of its hits. -/
theorem lookup_check {cache : EdgeCache} {cacheKey : String} {ifNoneMatch : Option String}
    {now : ℕ} {key : String} {e : EdgeCacheEntry} (h : cache.entries.lookup key = some e) :
    ∃ hits, (cache.check cacheKey ifNoneMatch now).1.entries.lookup key = some { e with hits } := by
  rcases check_fst cache cacheKey ifNoneMatch now with hsame | ⟨e', he', hcount⟩
  · exact ⟨e.hits, by rw [hsame]; exact h⟩
  · rw [hcount, DashMap.lookup_insert]
    by_cases hkey : key = cacheKey
    · subst hkey
      cases he'.symm.trans h
      exact ⟨wrappingAdd e.hits 1, if_pos rfl⟩
    · exact ⟨e.hits, (if_neg hkey).trans h⟩

/-- `NotModified` has the tag of an entry that is stored and has not expired. -/
theorem check_notModified {cache : EdgeCache} {cacheKey : String} {ifNoneMatch : Option String}
    {now : ℕ} {etag : String}
    (h : (cache.check cacheKey ifNoneMatch now).2 = some (.notModified etag)) :
    ∃ e, cache.entries.lookup cacheKey = some e ∧ e.etag = etag ∧ ¬e.Expired now := by
  unfold EdgeCache.check at h
  split at h
  · cases h
  · split at h
    next => cases h
    next e he =>
      split at h
      next => cases h
      next hfresh =>
        have hbefore := EdgeCacheEntry.not_expired_of_not_isStale (Bool.eq_false_iff.mpr hfresh)
        cases ifNoneMatch with
        | none => cases h
        | some clientEtag =>
            dsimp only at h
            split at h
            next =>
              cases h
              exact ⟨e, he, rfl, Nat.not_lt.mpr hbefore⟩
            next => cases h

/-- The cache after the step of a check. -/
theorem cache_check {cacheKey : String} {ifNoneMatch : Option String} {now : ℕ}
    (h : s.step sha256 (.check cacheKey ifNoneMatch now) = some t) :
    t.cache = (s.cache.check cacheKey ifNoneMatch now).1 := by
  simp only [step] at h
  split at h
  next heq =>
    cases h
    rw [heq]
  next heq =>
    cases h
    rw [heq]

/-- A step that leaves the cache as it is keeps every entry. -/
theorem kept_of_eq {key : String} {e : EdgeCacheEntry} (h : s.cache.entries.lookup key = some e)
    (hcache : t.cache = s.cache) :
    ∃ hits, t.cache.entries.lookup key = some { e with hits } :=
  ⟨e.hits, hcache ▸ h⟩

/-- A removal keeps an entry exactly if it is for another key. -/
theorem kept_remove_iff {key removed : String} {e : EdgeCacheEntry}
    (h : s.cache.entries.lookup key = some e) (hcache : t.cache = s.cache.remove removed) :
    (∃ hits, t.cache.entries.lookup key = some { e with hits }) ↔ key ≠ removed := by
  rw [hcache, EdgeCache.remove, DashMap.lookup_erase]
  constructor
  · rintro ⟨hits, hkept⟩ heq
    rw [if_pos heq] at hkept
    cases hkept
  · intro hne
    rw [if_neg hne]
    exact ⟨e.hits, h⟩

/-- A removal is lawful exactly if there is a reason for the entry under the key. -/
theorem lawful_remove_iff {removed : String} (hcache : t.cache = s.cache.remove removed)
    (hcheck : ∀ cacheKey ifNoneMatch now, a ≠ .check cacheKey ifNoneMatch now) :
    s.Lawful a t ↔ ∀ e, s.cache.entries.lookup removed = some e → s.Excused removed e a := by
  constructor
  · intro hlawful e he
    refine (hlawful.kept removed e he).resolve_left fun hkept => ?_
    exact (kept_remove_iff he hcache).mp hkept rfl
  · refine fun hexcused => ⟨fun key e he => ?_, fun _ _ _ _ heq => absurd heq (hcheck _ _ _)⟩
    by_cases hkey : key = removed
    · subst hkey
      exact .inr (hexcused e he)
    · exact .inl ((kept_remove_iff he hcache).mpr hkey)

/-- A step is lawful exactly if it removes lawfully. -/
theorem lawful_step_iff (h : s.step sha256 a = some t) :
    s.Lawful a t ↔ s.RemovesLawfully a := by
  have htagged : ∀ cacheKey ifNoneMatch now etag, a = .check cacheKey ifNoneMatch now →
      (s.cache.check cacheKey ifNoneMatch now).2 = some (.notModified etag) →
        ∃ e, s.cache.entries.lookup cacheKey = some e ∧ e.etag = etag ∧ ¬e.Expired now :=
    fun _ _ _ _ _ hanswer => check_notModified hanswer
  cases a with
  | store c =>
      cases h
      exact iff_of_true ⟨fun _ _ he => .inl (kept_of_eq he rfl), htagged⟩ trivial
  | choose c victim =>
      obtain ⟨-, rfl⟩ := move_eq_some (move_of_choose h)
      exact iff_of_true ⟨fun _ _ he => .inl (kept_of_eq he rfl), htagged⟩ trivial
  | evict victim c =>
      obtain ⟨-, rfl⟩ := move_eq_some h
      rw [lawful_remove_iff rfl (by simp)]
      constructor
      · intro hexcused
        by_cases hmem : victim ∈ s.cache.entries
        · obtain ⟨e, he⟩ := Option.isSome_iff_exists.mp (AList.lookup_isSome.mpr hmem)
          exact .inr (hexcused e he)
        · exact .inl hmem
      · intro hok e he
        have hmem := AList.lookup_isSome.mp (Option.isSome_of_eq_some he)
        exact hok.resolve_left (not_not.mpr hmem)
  | insert c now =>
      obtain ⟨-, rfl⟩ := move_eq_some h
      refine iff_of_true ⟨fun key e he => ?_, htagged⟩ trivial
      by_cases hkey : c.cacheKey = key
      · exact .inr hkey
      · refine .inl ⟨e.hits, ?_⟩
        rw [EdgeCache.insert, DashMap.lookup_insert, if_neg (Ne.symm hkey)]
        exact he
  | check cacheKey ifNoneMatch now =>
      refine iff_of_true ⟨fun key e he => .inl ?_, htagged⟩ trivial
      rw [cache_check h]
      exact lookup_check he
  | expire cacheKey now =>
      obtain ⟨-, rfl⟩ := move_eq_some h
      rw [lawful_remove_iff rfl (by simp)]
      exact forall₂_congr fun e _ => and_iff_right rfl
  | clear => exact iff_of_true ⟨fun _ _ _ => .inr trivial, htagged⟩ trivial

/-- The keys that are reserved. -/
theorem mem_reserved {key : String} :
    key ∈ s.reserved ↔ key ∈ s.cache.entries ∨ ∃ call ∈ s.calls, call.insertKey = some key := by
  simp only [reserved, List.mem_toFinset, List.mem_append, List.mem_filterMap, AList.mem_keys]

/-- A call that goes on reserves the key of its insertion, and nothing else. -/
theorem reserved_move {call : EdgeCall} {next : Option EdgeCall} {cache : EdgeCache}
    {keys : Finset String} (h : s.move call next cache = some t)
    (hkeys : ∀ key, key ∈ cache.entries → key ∈ keys)
    (hcalls : ∀ other ∈ s.calls, ∀ key, other.insertKey = some key → key ∈ keys)
    (hnext : ∀ next' ∈ next, ∀ key, next'.insertKey = some key → key ∈ keys) :
    t.reserved ⊆ keys := by
  obtain ⟨-, rfl⟩ := move_eq_some h
  intro key hkey
  rcases mem_reserved.mp hkey with hstored | ⟨other, hother, hinsert⟩
  · exact hkeys key hstored
  · rcases List.mem_append.mp hother with hnew | hold
    · exact hnext other (Option.mem_toList.mp hnew) key hinsert
    · exact hcalls other (List.mem_of_mem_erase hold) key hinsert

/-- A hit is written back under a key that is stored. -/
theorem mem_of_mem_check {cache : EdgeCache} {cacheKey key : String} {ifNoneMatch : Option String}
    {now : ℕ} (h : key ∈ (cache.check cacheKey ifNoneMatch now).1.entries) :
    key ∈ cache.entries := by
  rcases check_fst cache cacheKey ifNoneMatch now with hsame | ⟨e, he, hcount⟩
  · rwa [hsame] at h
  · rw [hcount] at h
    rcases (AList.mem_insert _).mp h with rfl | hold
    · exact AList.lookup_isSome.mp (Option.isSome_of_eq_some he)
    · exact hold

/-- A step keeps the bound. -/
theorem maxEntries_step (h : s.step sha256 a = some t) :
    t.cache.maxEntries = s.cache.maxEntries := by
  cases a with
  | store c =>
      cases h
      rfl
  | choose c victim => rw [(move_eq_some (move_of_choose h)).2]
  | evict victim c =>
      rw [(move_eq_some h).2]
      rfl
  | insert c now =>
      rw [(move_eq_some h).2]
      rfl
  | check cacheKey ifNoneMatch now =>
      rw [cache_check h]
      rcases check_fst s.cache cacheKey ifNoneMatch now with hsame | ⟨e, -, hcount⟩
      · rw [hsame]
      · rw [hcount]
  | expire cacheKey now =>
      rw [(move_eq_some h).2]
      rfl
  | clear =>
      cases h
      rfl

/-- The calls that a step adds are those of its action. -/
theorem insertKey_check {cacheKey : String} {ifNoneMatch : Option String} {now : ℕ}
    (h : s.step sha256 (.check cacheKey ifNoneMatch now) = some t) {call : EdgeCall}
    (hcall : call ∈ t.calls) {key : String} (hkey : call.insertKey = some key) :
    call ∈ s.calls := by
  simp only [step] at h
  split at h
  next =>
    cases h
    exact hcall
  next =>
    cases h
    rcases List.mem_cons.mp hcall with rfl | hold
    · cases hkey
    · exact hold

/-- Where calls leave room, no more keys are reserved than entries are allowed. -/
theorem reserved_step (hs : s.reserved.card ≤ s.cache.maxEntries) (hok : s.LeavesRoom a)
    (h : s.step sha256 a = some t) : t.reserved.card ≤ t.cache.maxEntries := by
  rw [maxEntries_step h]
  have hstored : ∀ key, key ∈ s.cache.entries → key ∈ s.reserved :=
    fun _ hkey => mem_reserved.mpr (.inl hkey)
  have hcalls : ∀ call ∈ s.calls, ∀ key, call.insertKey = some key → key ∈ s.reserved :=
    fun call hcall _ hkey => mem_reserved.mpr (.inr ⟨call, hcall, hkey⟩)
  cases a with
  | store c =>
      cases h
      by_cases hfull : s.cache.isFull = true
      · -- The call has to make room first, and reserves nothing yet.
        refine (Finset.card_le_card fun key hkey => ?_).trans hs
        rcases mem_reserved.mp hkey with hold | ⟨call, hcall, hinsert⟩
        · exact hstored key hold
        · rw [if_pos hfull] at hcall
          rcases List.mem_cons.mp hcall with rfl | hold
          · cases hinsert
          · exact hcalls call hold key hinsert
      · -- The call reserves its key.
        refine (Finset.card_le_card fun key hkey => ?_).trans (hok.resolve_left hfull)
        rcases mem_reserved.mp hkey with hold | ⟨call, hcall, hinsert⟩
        · exact Finset.mem_insert_of_mem (hstored key hold)
        · rw [if_neg hfull] at hcall
          rcases List.mem_cons.mp hcall with rfl | hold
          · cases hinsert
            exact Finset.mem_insert_self _ _
          · exact Finset.mem_insert_of_mem (hcalls call hold key hinsert)
  | choose c victim =>
      have hmove := move_of_choose h
      cases victim with
      | none =>
          refine (Finset.card_le_card (reserved_move hmove
            (fun key hkey => Finset.mem_insert_of_mem (hstored key hkey))
            (fun call hcall key hkey => Finset.mem_insert_of_mem (hcalls call hcall key hkey))
            ?_)).trans hok
          rintro _ ⟨⟩ key hkey
          cases hkey
          exact Finset.mem_insert_self _ _
      | some victim =>
          refine (Finset.card_le_card (reserved_move hmove hstored hcalls ?_)).trans hs
          rintro _ ⟨⟩ key hkey
          cases hkey
  | evict victim c =>
      -- The call reserves its key, and the victim is no longer stored.
      have hkept : ∀ key, key ∈ reserved { s with cache := s.cache.remove victim } →
          key ∈ Insert.insert c.cacheKey (reserved { s with cache := s.cache.remove victim }) :=
        fun _ hkey => Finset.mem_insert_of_mem hkey
      refine (Finset.card_le_card (reserved_move h
        (fun key hkey => hkept key (mem_reserved.mpr (.inl hkey)))
        (fun call hcall key hkey => hkept key (mem_reserved.mpr (.inr ⟨call, hcall, hkey⟩)))
        ?_)).trans hok
      rintro _ ⟨⟩ key hkey
      cases hkey
      exact Finset.mem_insert_self _ _
  | insert c now =>
      -- The key was reserved by the call.
      have hcall := (move_eq_some h).1
      refine (Finset.card_le_card (reserved_move h (fun key hkey => ?_) hcalls ?_)).trans hs
      · rcases (AList.mem_insert _).mp hkey with rfl | hold
        · exact hcalls _ hcall _ rfl
        · exact hstored key hold
      · rintro _ ⟨⟩
  | check cacheKey ifNoneMatch now =>
      refine (Finset.card_le_card fun key hkey => ?_).trans hs
      rcases mem_reserved.mp hkey with hnew | ⟨call, hcall, hinsert⟩
      · rw [cache_check h] at hnew
        exact hstored key (mem_of_mem_check hnew)
      · exact hcalls call (insertKey_check h hcall hinsert) key hinsert
  | expire cacheKey now =>
      refine (Finset.card_le_card (reserved_move h (fun key hkey => ?_) hcalls ?_)).trans hs
      · exact hstored key (AList.mem_erase.mp hkey).2
      · rintro _ ⟨⟩
  | clear =>
      cases h
      refine (Finset.card_le_card fun key hkey => ?_).trans hs
      rcases mem_reserved.mp hkey with hnone | ⟨call, hcall, hinsert⟩
      · exact absurd hnone (AList.notMem_empty key)
      · exact hcalls call hcall key hinsert

/-- No more entries are stored than keys are reserved. -/
theorem bounded_of_reserved (hs : s.reserved.card ≤ s.cache.maxEntries) : s.Bounded := by
  intro _
  have hkeys : s.cache.entries.keys.toFinset ⊆ s.reserved := by
    intro key hkey
    exact mem_reserved.mpr (.inl (List.mem_toFinset.mp hkey))
  have hcard := Finset.card_le_card hkeys
  rw [List.toFinset_card_of_nodup s.cache.entries.keys_nodup, AList.keys, List.keys,
    List.length_map] at hcard
  exact hcard.trans hs

/-- Entries disappear lawfully in a run exactly if every step removes lawfully. -/
theorem along_lawful_iff {as : List EdgeCacheAction}
    (hrun : (machine sha256).Runs Machine.unrestricted s as t) :
    (machine sha256).Along Lawful s as ↔ (machine sha256).Runs RemovesLawfully s as t := by
  refine hrun.along_iff (I := fun _ => True) (fun s a t _ hok h => ?_) ?_ trivial
  · exact ⟨trivial, (lawful_step_iff h).mpr hok⟩
  · exact fun s a t _ hbad h hlawful => hbad ((lawful_step_iff h).mp hlawful)

/-- In every run of an enabled cache, entries disappear lawfully exactly if every step removes
lawfully, and the entries are bounded if every step leaves room. -/
theorem lawful_iff (sha256 : List UInt8 → List UInt8) (maxEntries : ℕ) {as : List EdgeCacheAction}
    (hrun : (machine sha256).Runs Machine.unrestricted (initial maxEntries) as s) :
    ((machine sha256).Along Lawful (initial maxEntries) as ↔
        (machine sha256).Runs RemovesLawfully (initial maxEntries) as s) ∧
      ((machine sha256).Runs LeavesRoom (initial maxEntries) as s →
        (machine sha256).Throughout Bounded (initial maxEntries) as) :=
  ⟨along_lawful_iff hrun, fun hroom => hroom.throughout (fun _ hs => bounded_of_reserved hs)
    (fun _ _ _ hs hok h => reserved_step hs hok h) (Nat.zero_le _)⟩

/-- A store of an empty response. -/
def storeOf (cacheKey : String) : EdgeStore := ⟨cacheKey, [], "text/plain", 200, [], 60⟩

/-- The steps of a store that finds room. -/
def storeSteps (cacheKey : String) (now : ℕ) : List EdgeCacheAction :=
  [.store (storeOf cacheKey), .insert (storeOf cacheKey) now]

/-- A cache for two entries is filled, and a third store evicts the oldest entry. -/
def evicting : List EdgeCacheAction :=
  storeSteps "a" 1 ++ storeSteps "b" 2 ++ [.check "b" none 3, .store (storeOf "c"),
    .choose (storeOf "c") (some "a"), .evict "a" (storeOf "c"), .insert (storeOf "c") 4]

/-- Stores one after the other are lawful. -/
theorem lawful_evicting :
    (machine id).Along Lawful (initial 2) evicting ∧
      (machine id).Throughout Bounded (initial 2) evicting := by
  have hremoves : (machine id).Runs RemovesLawfully (initial 2) evicting _ :=
    Machine.runs_of_exec rfl
  have hroom : (machine id).Runs LeavesRoom (initial 2) evicting _ := Machine.runs_of_exec rfl
  have hiff := lawful_iff id 2 (hremoves.mono fun _ _ _ => trivial)
  exact ⟨hiff.1.mpr hremoves, hiff.2 hroom⟩

/-- A cache for two entries is filled, and the newest is stored again. -/
def storedAgain : List EdgeCacheAction :=
  storeSteps "a" 1 ++ storeSteps "b" 2 ++ [.store (storeOf "b"), .choose (storeOf "b") (some "a"),
    .evict "a" (storeOf "b"), .insert (storeOf "b") 3]

/-- Two stores test the size before either inserts. -/
def overlapping : List EdgeCacheAction :=
  [.store (storeOf "a"), .store (storeOf "b"), .insert (storeOf "a") 1, .insert (storeOf "b") 1]

/-- A store of a stored key evicts another entry, and two stores that overlap exceed the bound. -/
theorem lawful_fails :
    ¬(machine id).Along Lawful (initial 2) storedAgain ∧
      ¬(machine id).Throughout Bounded (initial 1) overlapping := by
  constructor
  · intro hlawful
    have hrun : (machine id).Runs Machine.unrestricted (initial 2) storedAgain _ :=
      Machine.runs_of_exec rfl
    exact absurd (Machine.exec_of_runs ((along_lawful_iff hrun).mp hlawful)) nofun
  · intro hbounded
    have hrun : (machine id).Runs Machine.unrestricted (initial 1) overlapping _ :=
      Machine.runs_of_exec rfl
    exact absurd (hbounded.last hrun rfl) (by decide)

end EdgeCacheState

end XiraNet

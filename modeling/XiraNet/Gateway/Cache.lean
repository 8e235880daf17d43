import XiraNet.Gateway.Handler
import XiraNet.Lib.LruCache

/-!
# Response cache

`ResponseCache` of `gateway/cache.rs`, with each of its calls as one step. An entry keeps the
response and the names listed in its `Vary` header; of the request it was stored for it keeps
nothing.

* `ResponseCache.get_eq_some`: when a lookup is a hit.
* `ResponseCache.put_eq`: which responses are stored.
-/

namespace XiraNet

/-- `CachedResponse`, one entry of the cache. -/
structure CachedResponse where
  status : ℕ
  headers : List (String × String)
  body : List UInt8
  cachedAt : Instant
  /-- The names listed in the `Vary` header of the response, in lower case. -/
  varyOn : List String
  deriving DecidableEq, Repr

/-- `ResponseCache`. -/
structure ResponseCache where
  cache : LruCache String CachedResponse
  ttlSecs : ℕ
  enabled : Bool

/-- Add one name of a `Vary` header to the names found so far. -/
def pushVaryName (out : List String) (token : String) : List String :=
  -- A name is listed once, where it comes first.
  let name := Text.toAsciiLowercase (Text.trim token)
  if name ≠ "" ∧ name ∉ out then out ++ [name] else out

/-- Add the names that a header lists to the names found so far, if it is a `Vary` header. -/
def pushVaryHeader (out : List String) (h : String × String) : List String :=
  if Text.eqIgnoreAsciiCase h.1 "vary" then (Text.split h.2 ',').foldl pushVaryName out else out

/-- `extract_vary`. -/
def extractVary (headers : List (String × String)) : List String :=
  headers.foldl pushVaryHeader []

/-- A name, in lower case, is listed in a `Vary` header. -/
def VaryLists (headers : List (String × String)) (name : String) : Prop :=
  name ≠ "" ∧ ∃ h ∈ headers, Text.eqIgnoreAsciiCase h.1 "vary" = true ∧
    ∃ token ∈ Text.split h.2 ',', name = Text.toAsciiLowercase (Text.trim token)

/-- The names in a list after another one was added. -/
theorem mem_pushVaryName {out : List String} {token name : String} :
    name ∈ pushVaryName out token ↔
      name ∈ out ∨ (name ≠ "" ∧ name = Text.toAsciiLowercase (Text.trim token)) := by
  unfold pushVaryName
  dsimp only
  split
  next h =>
    -- The name was added at the end.
    rw [List.mem_append, List.mem_singleton]
    refine or_congr_right ⟨?_, And.right⟩
    rintro rfl
    exact ⟨h.1, rfl⟩
  next h =>
    -- It was not added, so it is empty or listed already.
    refine (or_iff_left_of_imp ?_).symm
    rintro ⟨hne, rfl⟩
    exact not_not.mp fun hmem => h ⟨hne, hmem⟩

/-- The names in a list after several were added. -/
theorem mem_foldl_pushVaryName {out tokens : List String} {name : String} :
    name ∈ tokens.foldl pushVaryName out ↔
      name ∈ out ∨
        (name ≠ "" ∧ ∃ token ∈ tokens, name = Text.toAsciiLowercase (Text.trim token)) := by
  induction tokens generalizing out with
  | nil => simp
  | cons token tokens ih =>
      rw [List.foldl_cons, ih, mem_pushVaryName, or_assoc, ← and_or_left]
      simp

/-- The names in a list after those of several headers were added. -/
theorem mem_foldl_pushVaryHeader {out : List String} {headers : List (String × String)}
    {name : String} :
    name ∈ headers.foldl pushVaryHeader out ↔ name ∈ out ∨ VaryLists headers name := by
  induction headers generalizing out with
  | nil => simp [VaryLists]
  | cons h headers ih =>
      rw [List.foldl_cons, ih, pushVaryHeader]
      cases hvary : Text.eqIgnoreAsciiCase h.1 "vary" with
      | false => simp [VaryLists, hvary]
      | true =>
          rw [if_pos rfl, mem_foldl_pushVaryName, or_assoc]
          simp [VaryLists, hvary, ← and_or_left]

/-- The names that `extract_vary` finds are those listed in a `Vary` header. -/
theorem mem_extractVary {headers : List (String × String)} {name : String} :
    name ∈ extractVary headers ↔ VaryLists headers name := by
  rw [extractVary, mem_foldl_pushVaryHeader]
  simp

/-- The first value of a header, or the empty string. -/
def firstValue (headers : List (String × String)) (name : String) : String :=
  ((headers.find? fun h => Text.eqIgnoreAsciiCase h.1 name).map Prod.snd).getD ""

/-- `compute_vary_etag`. -/
def computeVaryEtag (varyOn : List String) (headers : List (String × String)) : String :=
  "|".intercalate (varyOn.map fun name => name ++ "=" ++ firstValue headers name)

namespace CachedResponse

/-- `is_expired`. -/
def isExpired (entry : CachedResponse) (now : Instant) (ttlSecs : ℕ) : Bool :=
  fromSecs ttlSecs ≤ elapsed now entry.cachedAt

/-- The Vary check of `get`: the headers of the request are compared with the headers of the
stored response. -/
def varyMatches (entry : CachedResponse) (requestHeaders : List (String × String)) : Bool :=
  entry.varyOn = [] ∨
    computeVaryEtag entry.varyOn requestHeaders = computeVaryEtag entry.varyOn entry.headers

/-- What `get` hands out. -/
def reply (entry : CachedResponse) : CachedReply where
  status := entry.status
  headers := entry.headers
  body := entry.body

end CachedResponse

/-- A header of a response that `put` does not store. -/
def headerForbidsStorage (h : String × String) : Bool :=
  (Text.eqIgnoreAsciiCase h.1 "cache-control" &&
    (Text.contains (Text.toAsciiLowercase h.2) "no-store" ||
      Text.contains (Text.toAsciiLowercase h.2) "private")) ||
    Text.eqIgnoreAsciiCase h.1 "set-cookie"

namespace ResponseCache

/-- `ResponseCache::new`. -/
def new (maxEntries ttlSecs : ℕ) (enabled : Bool) : ResponseCache where
  cache := .new (max maxEntries 1) (Nat.le_max_right _ _)
  ttlSecs := ttlSecs
  enabled := enabled

/-- `clear`. -/
def clear (c : ResponseCache) : ResponseCache := { c with cache := c.cache.clear }

/-- `set_enabled`. -/
def setEnabled (c : ResponseCache) (enabled : Bool) : ResponseCache :=
  let c := { c with enabled }
  if enabled then c else c.clear

/-- `set_ttl_secs`. -/
def setTtlSecs (c : ResponseCache) (ttlSecs : ℕ) : ResponseCache := { c with ttlSecs }

/-- `get`. -/
def get (c : ResponseCache) (now : Instant) (key : String)
    (requestHeaders : List (String × String)) : Option CachedReply × ResponseCache :=
  if !c.enabled then (none, c)
  else
    match c.cache.get key with
    | (some entry, cache) =>
        -- An expired entry is removed; one that fails the Vary check stays, as the entry used last.
        if entry.isExpired now c.ttlSecs then (none, { c with cache := cache.pop key })
        else if !entry.varyMatches requestHeaders then (none, { c with cache })
        else (some entry.reply, { c with cache })
    | (none, cache) => (none, { c with cache })

/-- `put`. -/
def put (c : ResponseCache) (now : Instant) (key : String) (status : ℕ)
    (headers : List (String × String)) (body : List UInt8) : ResponseCache :=
  if !c.enabled then c
  else if ¬ (200 ≤ status ∧ status < 300) then c
  else
    -- A `Vary: *` or one that lists a header with credentials forbids the storage.
    let varyOn := extractVary headers
    if "*" ∈ varyOn then c
    else if "cookie" ∈ varyOn ∨ "authorization" ∈ varyOn then c
    else if headers.any headerForbidsStorage then c
    else { c with cache := c.cache.put key ⟨status, headers, body, now, varyOn⟩ }

/-- A response that `put` stores in a cache that is enabled. -/
structure Storable (status : ℕ) (headers : List (String × String)) : Prop where
  status_ge : 200 ≤ status
  status_lt : status < 300
  vary : ∀ name ∈ ["*", "cookie", "authorization"], name ∉ extractVary headers
  allowed : headers.any headerForbidsStorage = false

instance (status : ℕ) (headers : List (String × String)) : Decidable (Storable status headers) :=
  decidable_of_iff ((200 ≤ status ∧ status < 300) ∧
      (∀ name ∈ ["*", "cookie", "authorization"], name ∉ extractVary headers) ∧
        headers.any headerForbidsStorage = false)
    ⟨fun ⟨⟨hge, hlt⟩, hvary, hallowed⟩ => ⟨hge, hlt, hvary, hallowed⟩,
      fun h => ⟨⟨h.status_ge, h.status_lt⟩, h.vary, h.allowed⟩⟩

variable {c : ResponseCache} {now : Instant} {key : String}

/-- `put` stores a response exactly if it may be stored and the cache is enabled. -/
theorem put_eq (c : ResponseCache) (now : Instant) (key : String) (status : ℕ)
    (headers : List (String × String)) (body : List UInt8) :
    c.put now key status headers body =
      if c.enabled ∧ Storable status headers then
        { c with cache := c.cache.put key ⟨status, headers, body, now, extractVary headers⟩ }
      else c := by
  unfold put
  dsimp only
  by_cases hstored : c.enabled = true ∧ Storable status headers
  · obtain ⟨henabled, h⟩ := hstored
    have hvary := h.vary
    simp only [List.mem_cons, List.not_mem_nil, or_false, forall_eq_or_imp, forall_eq] at hvary
    simp [henabled, h, h.status_ge, h.status_lt, h.allowed, hvary]
  · rw [if_neg hstored]
    split_ifs with hdisabled hstatus hstar hvary hforbidden
    case neg =>
      -- No check of the source objects, so the response may be stored.
      rw [not_or] at hvary
      refine absurd ⟨by simpa using hdisabled, ?_⟩ hstored
      exact {
        status_ge := hstatus.1
        status_lt := hstatus.2
        vary := by simpa using ⟨hstar, hvary⟩
        allowed := Bool.eq_false_iff.mpr hforbidden }
    all_goals rfl

/-- What is in the cache after a response was stored: the response, or what was there before. -/
theorem peek_of_peek_put {status : ℕ} {headers : List (String × String)} {body : List UInt8}
    {key' : String} {entry : CachedResponse}
    (h : (c.put now key status headers body).cache.peek key' = some entry) :
    (key' = key ∧ (c.enabled = true ∧ Storable status headers) ∧
        entry = ⟨status, headers, body, now, extractVary headers⟩) ∨
      (c.cache.peek key' = some entry ∧
        (key' = key → ¬ (c.enabled = true ∧ Storable status headers))) := by
  rw [put_eq] at h
  split at h
  next hstored =>
    by_cases hkey : key' = key
    -- The new entry replaces the old one of its key.
    · subst hkey
      exact .inl ⟨rfl, hstored, (Option.some.inj ((LruCache.peek_put_self ..).symm.trans h)).symm⟩
    · exact .inr ⟨LruCache.peek_of_peek_put hkey h, fun heq => absurd heq hkey⟩
  next hstored => exact .inr ⟨h, fun _ => hstored⟩

/-- A lookup is a hit exactly if the cache is enabled and there is an entry that is not expired
and passes the Vary check. -/
theorem get_eq_some {requestHeaders : List (String × String)} {reply : CachedReply} :
    (c.get now key requestHeaders).1 = some reply ↔
      c.enabled = true ∧ ∃ entry, c.cache.peek key = some entry ∧
        entry.isExpired now c.ttlSecs = false ∧ entry.varyMatches requestHeaders = true ∧
          entry.reply = reply := by
  unfold get
  -- What the lookup finds is what was there; the order of the entries plays no part.
  have hfound := c.cache.get_fst key
  generalize c.cache.get key = result at hfound ⊢
  obtain ⟨found, cache⟩ := result
  obtain rfl : found = c.cache.peek key := hfound
  cases c.enabled with
  | false => simp
  | true =>
      cases hpeek : c.cache.peek key with
      | none => simp
      | some entry =>
          cases hexpired : entry.isExpired now c.ttlSecs with
          | true => simp [hexpired]
          | false =>
              cases hmatches : entry.varyMatches requestHeaders with
              | false => simp [hexpired, hmatches]
              | true => simp [hexpired, hmatches]

/-- What is in the cache after a lookup was there before. -/
theorem peek_of_peek_get {requestHeaders : List (String × String)} {key' : String}
    {entry : CachedResponse}
    (h : (c.get now key requestHeaders).2.cache.peek key' = some entry) :
    c.cache.peek key' = some entry := by
  unfold get at h
  have hpeek := c.cache.peek_get key key'
  generalize c.cache.get key = result at hpeek h
  obtain ⟨found, cache⟩ := result
  dsimp only at hpeek
  split at h
  next => exact h
  next =>
    cases found with
    | none => exact hpeek.symm.trans h
    | some found =>
        dsimp only at h
        split_ifs at h
        case pos =>
          -- An expired entry is removed, and the others stay.
          rw [LruCache.peek_pop] at h
          split at h
          next => cases h
          next => exact hpeek.symm.trans h
        all_goals exact hpeek.symm.trans h

end ResponseCache

end XiraNet

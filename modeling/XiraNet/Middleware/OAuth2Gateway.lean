import XiraNet.Config.Runtime
import XiraNet.Lib.Bytes
import XiraNet.Lib.DashMap
import XiraNet.Lib.Runs
import Mathlib.Logic.Equiv.Basic

/-!
# The OAuth2 gateway

`middleware/oauth2_gateway.rs`: a token is validated by the introspection endpoint, and the answer
is kept for five minutes under the SHA-256 hash of the token. A call awaits the endpoint, so it is
two steps, between which other calls run. What is written to a string in `hash_token` never fails.

* `OAuth2Runs.tokensSound_iff`: in which runs no expired token is accepted.
* `OAuth2Runs.tokensSound_fails`: the expiry of an active token is not looked at.
-/

namespace XiraNet

/-- A number of a JSON value without a point and an exponent, which fits in 64 bits. -/
def Json.asInteger : Json → Option ℤ
  | .number literal =>
      match literal.toList with
      | '-' :: digits =>
          ((Text.parseUnsigned (2 ^ 63) digits).filter (0 < ·)).map fun n => -(n : ℤ)
      | digits => (Text.parseUnsigned (2 ^ 64 - 1) digits).map Int.ofNat
  | _ => none

/-- `hash_token`. -/
def hashToken (sha256 : List UInt8 → List UInt8) (token : String) : String :=
  String.ofList (Hex.lower (sha256 (Utf8.encode token)))

/-- Tokens differ from each other in their hashes, where SHA-256 is injective. -/
theorem hashToken_injective {sha256 : List UInt8 → List UInt8}
    (hinjective : Function.Injective sha256) : Function.Injective (hashToken sha256) := by
  intro s t h
  have hlower : Hex.lower (sha256 (Utf8.encode s)) = Hex.lower (sha256 (Utf8.encode t)) := by
    simpa [hashToken] using congrArg String.toList h
  exact Utf8.encode_injective (hinjective (Hex.lower_injective hlower))

/-- `TokenCacheEntry`. -/
structure TokenCacheEntry where
  valid : Bool
  claims : Json
  cachedAt : ℕ
  ttl : ℕ

/-- `TokenValidation`. -/
inductive TokenValidation
  | valid (sub : String) (claims : Json)
  | invalid (reason : String)
  | error (reason : String)

/-- What has become of an introspection request. -/
inductive Introspection
  | failed (error : String)
  | unparsable (error : String)
  | body (v : Json)

/-- What `validate_token` does without the endpoint. -/
inductive ValidationStart
  | done (validation : TokenValidation)
  | request (url : String) (form : List (String × String))

/-- `OAuth2Gateway`. -/
structure OAuth2Gateway where
  enabled : Bool
  introspectionUrl : Option String
  clientId : String
  clientSecret : String
  tokenCache : DashMap String TokenCacheEntry

/-- `body.get("active").and_then(|a| a.as_bool()).unwrap_or(false)`. -/
def Json.isActive (body : Json) : Bool := ((body.get "active").bind Json.asBool).getD false

/-- `claims.get("sub").and_then(|s| s.as_str()).unwrap_or("?")`. -/
def Json.subject (claims : Json) : String := ((claims.get "sub").bind Json.asStr).getD "?"

/-- The body has an integer `exp` which is not after a time. -/
def Json.IsExpired (body : Json) (now : ℕ) : Prop :=
  ∃ exp ∈ (body.get "exp").bind Json.asInteger, exp ≤ (now : ℤ)

instance (body : Json) (now : ℕ) : Decidable (body.IsExpired now) :=
  inferInstanceAs (Decidable (∃ exp ∈ (body.get "exp").bind Json.asInteger, exp ≤ (now : ℤ)))

/-- `now < cached.cached_at + cached.ttl`. -/
def TokenCacheEntry.isCurrent (cached : TokenCacheEntry) (now : ℕ) : Bool :=
  now < (cached.cachedAt + cached.ttl) % 2 ^ 64

namespace OAuth2Gateway

/-- `validate_token` up to the request. -/
def begin (gateway : OAuth2Gateway) (sha256 : List UInt8 → List UInt8) (now : ℕ)
    (token : String) : ValidationStart :=
  if !gateway.enabled then .done (.valid "anonymous" (.object []))
  else
    match (gateway.tokenCache.lookup (hashToken sha256 token)).filter (·.isCurrent now) with
    | some cached =>
        if cached.valid then .done (.valid cached.claims.subject cached.claims)
        else .done (.invalid "Cached invalid token")
    | none =>
        match gateway.introspectionUrl with
        | some url =>
            .request url [("token", token), ("client_id", gateway.clientId),
              ("client_secret", gateway.clientSecret)]
        | none => .done (.error "No introspection endpoint configured")

/-- `validate_token` after the request, with the time that it has read before. -/
def finish (gateway : OAuth2Gateway) (sha256 : List UInt8 → List UInt8) (now : ℕ)
    (token : String) : Introspection → TokenValidation × OAuth2Gateway
  | .failed error => (.error ("Introspection failed: " ++ error), gateway)
  | .unparsable error => (.error ("Parse error: " ++ error), gateway)
  | .body body =>
      (if body.isActive then .valid body.subject body else .invalid "Token not active",
        { gateway with
          tokenCache := gateway.tokenCache.insert (hashToken sha256 token)
            { valid := body.isActive, claims := body, cachedAt := now, ttl := 300 } })

/-- `clear_cache`. -/
def clearCache (gateway : OAuth2Gateway) : OAuth2Gateway := { gateway with tokenCache := ∅ }

/-- Without the endpoint a token is valid if there is a current entry that says so. -/
theorem begin_eq_valid {gateway : OAuth2Gateway} {sha256 : List UInt8 → List UInt8} {now : ℕ}
    {token sub : String} {claims : Json} (henabled : gateway.enabled = true)
    (h : gateway.begin sha256 now token = .done (.valid sub claims)) :
    ∃ cached ∈ gateway.tokenCache.lookup (hashToken sha256 token),
      cached.isCurrent now ∧ cached.valid ∧ claims = cached.claims := by
  unfold begin at h
  rw [henabled] at h
  cases hcached : (gateway.tokenCache.lookup (hashToken sha256 token)).filter
      (·.isCurrent now) with
  | none =>
      rw [hcached] at h
      cases hurl : gateway.introspectionUrl <;> simp [hurl] at h
  | some cached =>
      obtain ⟨hlookup, hcurrent⟩ := Option.filter_eq_some_iff.mp hcached
      rw [hcached] at h
      cases hvalid : cached.valid <;> simp [hvalid] at h
      exact ⟨cached, hlookup, hcurrent, hvalid, h.2.symm⟩

/-- A current entry that says so makes a token valid. -/
theorem begin_of_isCurrent {gateway : OAuth2Gateway} {sha256 : List UInt8 → List UInt8} {now : ℕ}
    {token : String} {cached : TokenCacheEntry} (henabled : gateway.enabled = true)
    (hlookup : gateway.tokenCache.lookup (hashToken sha256 token) = some cached)
    (hcurrent : cached.isCurrent now = true) (hvalid : cached.valid = true) :
    gateway.begin sha256 now token = .done (.valid cached.claims.subject cached.claims) := by
  have hcached : (gateway.tokenCache.lookup (hashToken sha256 token)).filter (·.isCurrent now) =
      some cached := Option.filter_eq_some_iff.mpr ⟨hlookup, hcurrent⟩
  simp only [begin, henabled, hcached, hvalid, Bool.not_true, Bool.false_eq_true, if_false, if_true]

end OAuth2Gateway

/-- The response that a call is based on. -/
structure TokenResponse where
  token : String
  body : Json
  obtainedAt : ℕ

/-- A token has been accepted. -/
structure AcceptedToken where
  token : String
  /-- The time of the call. -/
  now : ℕ
  claims : Json
  response : Option TokenResponse

/-- A call that awaits the endpoint. -/
structure PendingValidation where
  token : String
  now : ℕ

/-- The gateway, its calls and what they have accepted. -/
structure OAuth2Runs where
  gateway : OAuth2Gateway
  clock : ℕ
  calls : DashMap ℕ PendingValidation
  /-- Which response the entry under a key comes from. -/
  responses : String → Option TokenResponse
  accepted : List AcceptedToken

/-- The operations; each shows the time. -/
inductive OAuth2Action
  | begin (now call : ℕ) (token : String)
  | finish (now call : ℕ) (response : Introspection)
  | drop (now call : ℕ)
  | clearCache (now : ℕ)

/-- The time that an operation shows. -/
def OAuth2Action.now : OAuth2Action → ℕ
  | .begin now .. | .finish now .. | .drop now _ | .clearCache now => now

/-- The token is accepted because of a response for the same token, of less than 300 seconds ago,
that calls the token active and names no expiry, or one after the time of the call. -/
structure AcceptedToken.BasedOn (r : AcceptedToken) (response : TokenResponse) : Prop where
  found : r.response = some response
  claims : r.claims = response.body
  token : response.token = r.token
  recent : r.now < response.obtainedAt + 300
  active : response.body.isActive = true
  expiry : ∀ exp ∈ (response.body.get "exp").bind Json.asInteger, (r.now : ℤ) < exp

/-- The token is accepted rightly. -/
def AcceptedToken.Sound (r : AcceptedToken) : Prop := ∃ response, r.BasedOn response

/-- What is not checked is whether the response calls an expired token active. -/
theorem AcceptedToken.sound_iff_not_isExpired {r : AcceptedToken} {response : TokenResponse}
    (hfound : r.response = some response) (hclaims : r.claims = response.body)
    (htoken : response.token = r.token) (hrecent : r.now < response.obtainedAt + 300)
    (hactive : response.body.isActive = true) : r.Sound ↔ ¬ response.body.IsExpired r.now := by
  constructor
  · rintro ⟨response', h⟩ ⟨exp, hexp, hle⟩
    obtain rfl : response = response' := Option.some.inj (hfound.symm.trans h.found)
    exact absurd (h.expiry exp hexp) (not_lt.mpr hle)
  · intro h
    exact ⟨response, hfound, hclaims, htoken, hrecent, hactive, fun exp hexp =>
      not_le.mp fun hle => h ⟨exp, hexp, hle⟩⟩

namespace OAuth2Runs

/-- A gateway that has just been made. -/
def initial (url clientId clientSecret : String) : OAuth2Runs :=
  { gateway :=
      { enabled := true
        introspectionUrl := some url
        clientId := clientId
        clientSecret := clientSecret
        tokenCache := ∅ }
    clock := 0
    calls := ∅
    responses := fun _ => none
    accepted := [] }

/-- A call has come to its end. -/
def answer (s : OAuth2Runs) (token : String) (now : ℕ) (response : Option TokenResponse) :
    TokenValidation → OAuth2Runs
  | .valid _ claims => { s with accepted := s.accepted ++ [⟨token, now, claims, response⟩] }
  | _ => s

variable (sha256 : List UInt8 → List UInt8)

/-- The response of the endpoint is kept. -/
def remember (s : OAuth2Runs) (token : String) (now : ℕ) : Introspection → OAuth2Runs
  | .body body =>
      { s with
        responses := fun key =>
          if key = hashToken sha256 token then some ⟨token, body, now⟩ else s.responses key }
  | _ => s

/-- One operation, at the time it shows. -/
def apply (s : OAuth2Runs) : OAuth2Action → Option OAuth2Runs
  | .begin now call token =>
      -- The number of the call is new.
      if (s.calls.lookup call).isSome then none
      else
        match s.gateway.begin sha256 now token with
        | .done validation =>
            some (s.answer token now (s.responses (hashToken sha256 token)) validation)
        | .request _ _ => some { s with calls := s.calls.insert call ⟨token, now⟩ }
  | .finish now call response =>
      (s.calls.lookup call).map fun pending =>
        let (validation, gateway) := s.gateway.finish sha256 pending.now pending.token response
        let t := { s with gateway := gateway, calls := s.calls.erase call }
        let t := t.remember sha256 pending.token now response
        t.answer pending.token pending.now (t.responses (hashToken sha256 pending.token)) validation
  | .drop _ call => some { s with calls := s.calls.erase call }
  | .clearCache _ =>
      some { s with gateway := s.gateway.clearCache, responses := fun _ => none }

/-- One operation; time does not go back. -/
def step (s : OAuth2Runs) (a : OAuth2Action) : Option OAuth2Runs :=
  if s.clock ≤ a.now then apply sha256 { s with clock := a.now } a else none

/-- Operations in any order. -/
def machine : Machine OAuth2Runs OAuth2Action := ⟨step sha256⟩

/-- No response is used that calls an expired token active: neither one in a current entry nor one
that has just come. -/
def UsesNoExpired (s : OAuth2Runs) : OAuth2Action → Prop
  | .begin now _ token =>
      ∀ cached ∈ s.gateway.tokenCache.lookup (hashToken sha256 token),
        cached.isCurrent now → cached.valid → ¬ cached.claims.IsExpired now
  | .finish _ call (.body body) =>
      ∀ pending ∈ s.calls.lookup call, body.isActive → ¬ body.IsExpired pending.now
  | _ => True

instance (s : OAuth2Runs) (a : OAuth2Action) : Decidable (s.UsesNoExpired sha256 a) := by
  unfold UsesNoExpired
  split <;> infer_instance

/-- An entry is what the response it comes from says. -/
structure EntryOf (key : String) (cached : TokenCacheEntry) (response : TokenResponse) : Prop where
  key : hashToken sha256 response.token = key
  claims : cached.claims = response.body
  valid : cached.valid = response.body.isActive
  ttl : cached.ttl = 300
  cachedAt : cached.cachedAt ≤ response.obtainedAt

/-- What holds in every state. -/
structure Inv (s : OAuth2Runs) : Prop where
  enabled : s.gateway.enabled = true
  entries : ∀ key cached, s.gateway.tokenCache.lookup key = some cached →
    ∃ response, s.responses key = some response ∧ EntryOf sha256 key cached response
  calls : ∀ call pending, s.calls.lookup call = some pending → pending.now ≤ s.clock

variable {sha256} {s t : OAuth2Runs} {a : OAuth2Action}

/-- The invariant holds at the start. -/
theorem inv_initial (url clientId clientSecret : String) :
    Inv sha256 (initial url clientId clientSecret) := ⟨rfl, nofun, nofun⟩

/-- The end of a call leaves everything but the tokens accepted. -/
theorem Inv.answer (hs : Inv sha256 s) (token : String) (now : ℕ)
    (response : Option TokenResponse) (validation : TokenValidation) :
    Inv sha256 (s.answer token now response validation) := by
  cases validation <;> exact ⟨hs.enabled, hs.entries, hs.calls⟩

/-- A response is kept with its entry. -/
theorem Inv.finish (hs : Inv sha256 s) {call now : ℕ} {pending : PendingValidation}
    (hpending : s.calls.lookup call = some pending) (hnow : s.clock ≤ now)
    (response : Introspection) :
    Inv sha256 ({ s with
      gateway := (s.gateway.finish sha256 pending.now pending.token response).2
      calls := s.calls.erase call
      clock := now }.remember sha256 pending.token now response) := by
  have hcalls : ∀ call' pending', (s.calls.erase call).lookup call' = some pending' →
      pending'.now ≤ now := fun call' pending' h =>
    (hs.calls _ _ (DashMap.lookup_erase_cases h).2).trans hnow
  cases response with
  | failed | unparsable => exact ⟨hs.enabled, hs.entries, hcalls⟩
  | body body =>
      refine ⟨hs.enabled, fun key cached h => ?_, hcalls⟩
      obtain ⟨rfl, rfl⟩ | ⟨hne, hold⟩ := DashMap.lookup_insert_cases h
      · exact ⟨⟨pending.token, body, now⟩, if_pos rfl, rfl, rfl, rfl, rfl,
          (hs.calls _ _ hpending).trans hnow⟩
      · obtain ⟨response, hresponse, hentry⟩ := hs.entries key cached hold
        exact ⟨response, (if_neg hne).trans hresponse, hentry⟩

/-- Every operation keeps the invariant. -/
theorem Inv.step (hs : Inv sha256 s) (hstep : (machine sha256).step s a = some t) :
    Inv sha256 t := by
  simp only [machine, OAuth2Runs.step, Option.ite_none_right_eq_some] at hstep
  obtain ⟨hclock, hstep⟩ := hstep
  have hlater : Inv sha256 { s with clock := a.now } :=
    ⟨hs.enabled, hs.entries, fun call pending h => (hs.calls call pending h).trans hclock⟩
  cases a with
  | begin now call token =>
      simp only [apply, Option.ite_none_left_eq_some] at hstep
      obtain ⟨-, hstep⟩ := hstep
      split at hstep
      next => exact Option.some.inj hstep ▸ hlater.answer ..
      next =>
        cases hstep
        refine ⟨hs.enabled, hs.entries, fun call' pending h => ?_⟩
        obtain ⟨-, rfl⟩ | ⟨-, hold⟩ := DashMap.lookup_insert_cases h
        · exact le_rfl
        · exact hlater.calls _ _ hold
  | finish now call response =>
      simp only [apply, Option.map_eq_some_iff] at hstep
      obtain ⟨pending, hpending, rfl⟩ := hstep
      exact (hs.finish hpending hclock response).answer ..
  | drop now call =>
      cases hstep
      exact ⟨hs.enabled, hs.entries, fun call' pending h =>
        hlater.calls _ _ (DashMap.lookup_erase_cases h).2⟩
  | clearCache now =>
      cases hstep
      exact ⟨hs.enabled, nofun, hlater.calls⟩

/-- A current entry comes from a response of less than 300 seconds ago. -/
theorem EntryOf.recent {key : String} {cached : TokenCacheEntry} {response : TokenResponse}
    {now : ℕ} (h : EntryOf sha256 key cached response) (hcurrent : cached.isCurrent now = true) :
    now < response.obtainedAt + 300 := by
  have hlt : now < (cached.cachedAt + cached.ttl) % 2 ^ 64 := of_decide_eq_true hcurrent
  calc now < (cached.cachedAt + cached.ttl) % 2 ^ 64 := hlt
    _ ≤ cached.cachedAt + cached.ttl := Nat.mod_le _ _
    _ ≤ response.obtainedAt + 300 := by rw [h.ttl]; exact Nat.add_le_add_right h.cachedAt 300

/-- A call that finds an entry. -/
theorem accepts_begin (hinjective : Function.Injective sha256) (hs : Inv sha256 s)
    {now call : ℕ} {token : String} (ht : apply sha256 s (.begin now call token) = some t) :
    t.accepted = s.accepted ∧ s.UsesNoExpired sha256 (.begin now call token) ∨
      ∃ r, t.accepted = s.accepted ++ [r] ∧
        (r.Sound ↔ s.UsesNoExpired sha256 (.begin now call token)) := by
  simp only [apply, Option.ite_none_left_eq_some] at ht
  obtain ⟨-, ht⟩ := ht
  -- Unless the call accepts the token, there is no entry that it could use.
  have hnone (h : ∀ sub claims, s.gateway.begin sha256 now token ≠ .done (.valid sub claims)) :
      s.UsesNoExpired sha256 (.begin now call token) := by
    intro cached hlookup hcurrent hvalid
    exact absurd (OAuth2Gateway.begin_of_isCurrent hs.enabled hlookup hcurrent hvalid) (h _ _)
  cases hbegin : s.gateway.begin sha256 now token with
  | request =>
      rw [hbegin] at ht
      cases ht
      exact .inl ⟨rfl, hnone (by simp [hbegin])⟩
  | done validation =>
      rw [hbegin] at ht
      cases ht
      cases validation with
      | invalid | error => exact .inl ⟨rfl, hnone (by simp [hbegin])⟩
      | valid sub claims =>
          obtain ⟨cached, hlookup, hcurrent, hvalid, rfl⟩ :=
            OAuth2Gateway.begin_eq_valid hs.enabled hbegin
          obtain ⟨response, hresponse, hentry⟩ := hs.entries _ cached hlookup
          have hrecent : now < response.obtainedAt + 300 := hentry.recent hcurrent
          have hactive : response.body.isActive = true := hentry.valid ▸ hvalid
          have htoken : response.token = token := hashToken_injective hinjective hentry.key
          refine .inr ⟨⟨token, now, cached.claims, _⟩, rfl, ?_⟩
          rw [AcceptedToken.sound_iff_not_isExpired hresponse hentry.claims htoken hrecent hactive,
            ← hentry.claims]
          constructor
          · intro hfresh cached' hlookup' _ _
            obtain rfl : cached = cached' := Option.some.inj (hlookup.symm.trans hlookup')
            exact hfresh
          · exact fun h => h cached hlookup hcurrent hvalid

/-- A call that gets an answer from the endpoint. -/
theorem accepts_finish (hs : Inv sha256 s) {now call : ℕ} {response : Introspection}
    (hnow : s.clock ≤ now) (ht : apply sha256 s (.finish now call response) = some t) :
    t.accepted = s.accepted ∧ s.UsesNoExpired sha256 (.finish now call response) ∨
      ∃ r, t.accepted = s.accepted ++ [r] ∧
        (r.Sound ↔ s.UsesNoExpired sha256 (.finish now call response)) := by
  simp only [apply, Option.map_eq_some_iff] at ht
  obtain ⟨pending, hpending, rfl⟩ := ht
  cases response with
  | failed | unparsable => exact .inl ⟨rfl, trivial⟩
  | body body =>
      cases hactive : body.isActive with
      | false =>
          refine .inl ⟨?_, fun _ _ h => absurd h (by simp [hactive])⟩
          simp [OAuth2Gateway.finish, hactive, answer, remember]
      | true =>
          refine .inr ⟨⟨pending.token, pending.now, body, some ⟨pending.token, body, now⟩⟩, ?_, ?_⟩
          · simp [OAuth2Gateway.finish, hactive, answer, remember]
          have hrecent : pending.now < now + 300 :=
            ((hs.calls _ _ hpending).trans hnow).trans_lt (Nat.lt_add_of_pos_right (by decide))
          rw [AcceptedToken.sound_iff_not_isExpired rfl rfl rfl hrecent hactive]
          constructor
          · intro hfresh pending' hpending' _
            obtain rfl : pending = pending' := Option.some.inj (hpending.symm.trans hpending')
            exact hfresh
          · exact fun h => h pending hpending hactive

/-- Every operation accepts at most one token, rightly if and only if it uses no response that
calls an expired token active. -/
theorem accepts_step (hinjective : Function.Injective sha256) (hs : Inv sha256 s)
    (hstep : (machine sha256).step s a = some t) :
    t.accepted = s.accepted ∧ s.UsesNoExpired sha256 a ∨
      ∃ r, t.accepted = s.accepted ++ [r] ∧ (r.Sound ↔ s.UsesNoExpired sha256 a) := by
  simp only [machine, OAuth2Runs.step, Option.ite_none_right_eq_some] at hstep
  obtain ⟨hclock, hstep⟩ := hstep
  have hlater : Inv sha256 { s with clock := a.now } :=
    ⟨hs.enabled, hs.entries, fun call pending h => (hs.calls call pending h).trans hclock⟩
  cases a with
  | begin => exact accepts_begin hinjective hlater hstep
  | finish => exact accepts_finish hlater le_rfl hstep
  | drop | clearCache =>
      cases hstep
      exact .inl ⟨rfl, trivial⟩

/-- In a run every token is accepted rightly exactly if no step uses a response that calls an
expired token active. -/
theorem tokensSound_iff {url clientId clientSecret : String} {as : List OAuth2Action}
    (hinjective : Function.Injective sha256)
    (hrun : (machine sha256).Runs Machine.unrestricted (initial url clientId clientSecret) as s) :
    (∀ r ∈ s.accepted, r.Sound) ↔
      (machine sha256).Runs (UsesNoExpired sha256) (initial url clientId clientSecret) as s := by
  constructor
  · intro hsound
    refine hrun.meets_of_not (I := Inv sha256)
      (D := fun s => Inv sha256 s ∧ ∃ r ∈ s.accepted, ¬ r.Sound)
      (fun _ _ _ hs _ hst => hs.step hst) (fun s a t hs hbad hst => ⟨hs.step hst, ?_⟩)
      (fun s a t hflawed hst => ⟨hflawed.1.step hst, ?_⟩) (inv_initial _ _ _) ?_
    · obtain ⟨-, hok⟩ | ⟨r, ht, hr⟩ := accepts_step hinjective hs hst
      · exact absurd hok hbad
      · exact ⟨r, ht ▸ List.mem_append_right _ (List.mem_singleton.mpr rfl), hr.not.mpr hbad⟩
    · obtain ⟨hs, r, hr, hunsound⟩ := hflawed
      obtain ⟨ht, -⟩ | ⟨r', ht, -⟩ := accepts_step hinjective hs hst
      · exact ⟨r, ht ▸ hr, hunsound⟩
      · exact ⟨r, ht ▸ List.mem_append_left _ hr, hunsound⟩
    · rintro ⟨-, r, hr, hunsound⟩
      exact hunsound (hsound r hr)
  · intro hok
    refine (hok.invariant (I := fun s => Inv sha256 s ∧ ∀ r ∈ s.accepted, r.Sound)
      (fun s a t hs hok hst => ⟨hs.1.step hst, ?_⟩) ⟨inv_initial _ _ _, nofun⟩).2
    obtain ⟨ht, -⟩ | ⟨r, ht, hr⟩ := accepts_step hinjective hs.1 hst
    · exact ht ▸ hs.2
    · rw [ht]
      exact List.forall_mem_append.mpr ⟨hs.2, List.forall_mem_singleton.mpr (hr.mpr hok)⟩

/-- A token that is active until a time, and its response. -/
def activeUntil (exp : String) : Json :=
  .object [("active", .bool true), ("exp", .number exp), ("sub", .string "alice")]

/-- A token that is validated twice. -/
def twoCalls (exp : String) : List OAuth2Action :=
  [.begin 1000 0 "abc", .finish 1001 0 (.body (activeUntil exp)), .begin 1100 1 "abc"]

/-- The digest of `abc`. -/
def digestAbc : List UInt8 :=
  [0xba, 0x78, 0x16, 0xbf, 0x8f, 0x01, 0xcf, 0xea, 0x41, 0x41, 0x40, 0xde, 0x5d, 0xae, 0x22, 0x23,
    0xb0, 0x03, 0x61, 0xa3, 0x96, 0x17, 0x7a, 0x9c, 0xb4, 0x10, 0xff, 0x61, 0xf2, 0x00, 0x15, 0xad]

/-- A hash that exchanges `abc` and its digest. -/
def swapAbc : List UInt8 → List UInt8 := Equiv.swap (Utf8.encode "abc") digestAbc

/-- Both calls accept the token while it is active. -/
theorem tokensSound_twoCalls :
    ∃ s, (machine swapAbc).Runs Machine.unrestricted (initial "http://idp/introspect" "id" "s")
        (twoCalls "5000") s ∧ s.accepted.length = 2 ∧ ∀ r ∈ s.accepted, r.Sound := by
  have hlength : ((machine swapAbc).exec (UsesNoExpired swapAbc)
      (initial "http://idp/introspect" "id" "s") (twoCalls "5000")).map (·.accepted.length) =
      some 2 := by decide
  obtain ⟨s, hs, hlength⟩ := Option.map_eq_some_iff.mp hlength
  have hrun := Machine.runs_of_exec hs
  have hall := hrun.mono fun _ _ _ => trivial
  exact ⟨s, hall, hlength, (tokensSound_iff (Equiv.injective _) hall).mpr hrun⟩

/-- A token that has expired before the second call is accepted by it. -/
theorem tokensSound_fails :
    ¬ ∀ (sha256 : List UInt8 → List UInt8) url clientId clientSecret as s,
      Function.Injective sha256 →
      (machine sha256).Runs Machine.unrestricted (initial url clientId clientSecret) as s →
      ∀ r ∈ s.accepted, r.Sound := by
  intro h
  have hexpired : ((machine swapAbc).exec Machine.unrestricted
      (initial "http://idp/introspect" "id" "s") (twoCalls "1050")).map (fun s =>
        s.accepted.any fun r => r.response.any fun response => response.body.IsExpired r.now) =
      some true := by decide
  obtain ⟨s, hs, hexpired⟩ := Option.map_eq_some_iff.mp hexpired
  obtain ⟨r, hr, hexpired⟩ := List.any_eq_true.mp hexpired
  obtain ⟨response, hresponse, hexpired⟩ := (Option.any_eq_true _ _).mp hexpired
  obtain ⟨exp, hexp, hle⟩ := of_decide_eq_true hexpired
  obtain ⟨response', hsound⟩ :=
    h _ _ _ _ _ s (Equiv.injective _) (Machine.runs_of_exec hs) r hr
  obtain rfl : response = response' := Option.some.inj (hresponse.symm.trans hsound.found)
  exact absurd (hsound.expiry exp hexp) (not_lt.mpr hle)

end OAuth2Runs

end XiraNet

import XiraNet.Middleware.ApiKey
import XiraNet.Middleware.IpFilter
import XiraNet.Middleware.Jwt
import XiraNet.Middleware.RateLimit
import XiraNet.Registry.Durability

/-!
# The layers around the routes

The middleware that `main.rs` wraps around its route table, outermost first: the API key, the IP
filter, the JWT check, the rate limiter, the request logger of `middleware/logger.rs` and CORS. The
limits are fixed. A request runs through the layers in one step, its response comes back in another,
and the connection may be closed in between.

* `App.guarded_of_runs`: what reaches the routes has passed every layer, and of one client there are
  no more such requests than the limiter gives out.
* `App.reached_of_accepted`: requests that the outer layers turn away change nothing behind them.
-/

namespace XiraNet

/-- What a layer does before the next one sees the request. -/
def MiddlewareResult.andThen (first next : MiddlewareResult) : MiddlewareResult :=
  match first with
  | .forward => next
  | .respond res => .respond res

/-- Whether a request goes on. -/
def MiddlewareResult.forwards : MiddlewareResult → Bool
  | .forward => true
  | .respond _ => false

/-- The response of the IP filter. -/
def accessDenied : HttpResponse :=
  .json 403 [("error", .string "Access denied"),
    ("message", .string "Your IP address is not allowed")]

/-- `IpFilterMiddleware::call`. -/
def IpFilterMiddleware.call (filter : IpFilterMiddleware) (req : HttpRequest) : MiddlewareResult :=
  if filter.passes req then .forward else .respond accessDenied

/-- The response of the rate limiter. -/
def rateLimitExceeded (secs : ℕ) : HttpResponse where
  status := 429
  headers := [("retry-after", toString secs), ("content-type", "application/json")]
  body := some (.object [("error", .string "Rate limit exceeded"),
    ("retry_after_secs", .number (toString secs))])

/-- The headers of `DefaultHeaders`. -/
def securityHeaders : List (String × String) :=
  [("x-content-type-options", "nosniff"), ("x-frame-options", "DENY"),
    ("x-xss-protection", "1; mode=block")]

/-- `DefaultHeaders`, the outermost layer: a header that the response has is kept. -/
def withDefaultHeaders (res : HttpResponse) : HttpResponse :=
  { res with
    headers := res.headers ++ securityHeaders.filter fun h => h.1 ∉ res.headers.map Prod.fst }

/-- The configured layers. -/
structure Layers where
  apiKeyAuth : ApiKeyAuth
  ipFilter : IpFilterMiddleware
  jwtDecode : JwtDecode
  jwt : JwtAuth
  rateLimiter : RateLimit.Inner
  maxRequests : ℕ
  windowSecs : ℕ
  /-- The CORS layer, which answers preflight requests itself. -/
  cors : HttpRequest → MiddlewareResult
  maxRequests_pos : 1 ≤ maxRequests
  windowSecs_pos : 1 ≤ windowSecs

namespace Layers

/-- The layers in front of the rate limiter. -/
def outer (l : Layers) (req : HttpRequest) : MiddlewareResult :=
  (l.apiKeyAuth.call req).andThen ((l.ipFilter.call req).andThen (l.jwt.call l.jwtDecode req))

/-- The client that a request counts for. -/
def client (l : Layers) (req : HttpRequest) : String := l.rateLimiter.clientIp req

end Layers

/-- A request that the logger has seen. -/
structure Logged where
  req : HttpRequest
  /-- When it arrived. -/
  start : ℕ
  /-- The service that its path led to when it arrived. -/
  serviceId : Option Uuid

/-- A request that the logger has seen, with its response. -/
structure Finished where
  request : Logged
  row : RequestLogRow
  /-- Whether the row was written. -/
  written : Bool

/-- The application and what has happened. -/
structure App where
  limits : RateLimit.Limits
  history : RegistryHistory
  /-- The requests behind the logger whose responses have not come back. -/
  pending : DashMap ℕ Logged
  /-- The requests that passed the rate limiter, in their order. -/
  admitted : List Logged
  /-- The requests that reached the routes. -/
  routed : List Logged
  finished : List Finished
  /-- The requests whose connections were closed before their responses. -/
  closed : List Logged
  /-- The responses that were sent. -/
  answered : List (ℕ × HttpResponse)

/-- One step. Times are in nanoseconds. -/
inductive AppAction
  | arrive (call : ℕ) (req : HttpRequest) (now : ℕ)
  /-- The response comes back through the logger. -/
  | respond (call : ℕ) (res : HttpResponse) (now : ℕ) (timestamp : DateTime)
  /-- The connection of a request is closed. -/
  | close (call : ℕ)
  /-- A pass of the evictor of the rate limiter. -/
  | evict (now : ℕ)
  /-- The registry changes. -/
  | registry (a : RegistryAction)

/-- The operations of the registry while the gateway runs. -/
def RegistryAction.isOperation : RegistryAction → Bool
  | .logRequest _ | .restart => false
  | _ => true

/-- Whether the logger writes a row. -/
def isLoggedPath (path : String) : Bool :=
  !Text.startsWith path "/xira" && path ≠ "/metrics" && path ≠ "/dashboard"

/-- The row of a request. -/
def Logged.row (r : Logged) (status now : ℕ) (timestamp : DateTime) : RequestLogRow where
  serviceId := r.serviceId
  method := r.req.method
  path := r.req.path
  status := status
  durationMs := (now - r.start) / 10 ^ 6
  peerIp := (r.req.peerAddr.map IpAddr.text).getD "-"
  timestamp := timestamp

namespace App

/-- A request runs into the layers. -/
def arrive (l : Layers) (s : App) (call : ℕ) (req : HttpRequest) (now : ℕ) : App :=
  let answer (s : App) (res : HttpResponse) : App :=
    { s with answered := s.answered ++ [(call, withDefaultHeaders res)] }
  match l.outer req with
  | .respond res => answer s res
  | .forward =>
      let (decision, limits) :=
        RateLimit.call l.maxRequests l.windowSecs s.limits (l.client req) now
      let s := { s with limits }
      match decision with
      | .reject secs => answer s (rateLimitExceeded secs)
      | .admitted =>
          let entry : Logged :=
            ⟨req, now, (s.history.registry.lookup req.path).map (·.id)⟩
          { s with
            pending := s.pending.insert call entry
            admitted := s.admitted ++ [entry]
            routed := if (l.cors req).forwards then s.routed ++ [entry] else s.routed }

/-- A response comes back through the logger. -/
def respond (s : App) (call : ℕ) (entry : Logged) (res : HttpResponse) (now : ℕ)
    (timestamp : DateTime) : App :=
  let row := entry.row res.status now timestamp
  let written := isLoggedPath entry.req.path &&
    (s.history.registry.storage.bind (·.logRequest row)).isSome
  { s with
    history := { s.history with
      registry :=
        if isLoggedPath entry.req.path then s.history.registry.persist (·.logRequest row)
        else s.history.registry }
    pending := s.pending.erase call
    finished := s.finished ++ [⟨entry, row, written⟩]
    answered := s.answered ++ [(call, withDefaultHeaders res)] }

/-- One step. -/
def step (l : Layers) (s : App) : AppAction → Option App
  | .arrive call req now =>
      if (s.pending.lookup call).isSome then none else some (s.arrive l call req now)
  | .respond call res now timestamp =>
      (s.pending.lookup call).map fun entry => s.respond call entry res now timestamp
  | .close call =>
      (s.pending.lookup call).map fun entry =>
        { s with pending := s.pending.erase call, closed := entry :: s.closed }
  | .evict now => some { s with limits := RateLimit.evict l.windowSecs s.limits now }
  | .registry a =>
      if a.isOperation then (s.history.step a).map fun history => { s with history } else none

/-- The application after its start. -/
def initial (db : SqliteStorage) : App := ⟨∅, .initial db, ∅, [], [], [], [], []⟩

/-- Every run of the application. -/
def machine (l : Layers) : Machine App AppAction := ⟨step l⟩

end App

/-- What a request that reaches the routes has passed. -/
structure Layers.Passes (l : Layers) (req : HttpRequest) : Prop where
  key : Text.startsWith req.path "/xira" = false ∨
    req.header "X-Api-Key" = some l.apiKeyAuth.apiKey
  ip : l.ipFilter.passes req = true
  token : l.jwt.enabled = true → isExemptPath (normalizePath req.path) = true ∨
    ∃ token, bearerToken req = some token ∧
      l.jwtDecode l.jwt.algorithm l.jwt.issuer l.jwt.audience token = true

/-- What the rate limiter sees of a step. -/
def AppAction.limited (l : Layers) : AppAction → Option RateLimit.Action
  | .arrive _ req now => if (l.outer req).forwards then some (.request (l.client req) now) else none
  | .evict now => some (.evict now)
  | _ => none

/-- Not a request that the outer layers turn away. -/
def AppAction.isAccepted (l : Layers) : AppAction → Bool
  | .arrive _ req _ => (l.outer req).forwards
  | _ => true

/-- The client and the time of a request. -/
def Logged.stamp (l : Layers) (r : Logged) : String × ℕ := (l.client r.req, r.start)

/-- A request of a client in the length of a window. -/
def Logged.isIn (l : Layers) (ip : String) (start : ℕ) (r : Logged) : Bool :=
  l.client r.req = ip && start ≤ r.start &&
    r.start ≤ start + RateLimit.windowDuration l.windowSecs

namespace App

/-- What the routes see is what every layer let through, and no more than the limiter gives out. -/
structure Guarded (l : Layers) (s : App) : Prop where
  passed : ∀ r ∈ s.routed, l.Passes r.req
  bounded : ∀ ip start, s.routed.countP (Logged.isIn l ip start) ≤ 2 * l.maxRequests

/-- Two states that differ only in the responses that were sent. -/
def SameBehind (s t : App) : Prop := { s with answered := [] } = { t with answered := [] }

variable {l : Layers} {s s' t : App}

/-- What the outer layers let through. -/
theorem passes_of_outer {req : HttpRequest} (h : (l.outer req).forwards = true) :
    l.Passes req := by
  unfold Layers.outer at h
  cases hkey : l.apiKeyAuth.call req with
  | respond res =>
      rw [hkey] at h
      cases h
  | forward =>
      rw [hkey] at h
      cases hpasses : l.ipFilter.passes req with
      | false =>
          simp only [IpFilterMiddleware.call, hpasses, MiddlewareResult.andThen] at h
          cases h
      | true =>
          simp only [IpFilterMiddleware.call, hpasses, if_true, MiddlewareResult.andThen] at h
          -- Key and address have passed, and the token is what is left to look at.
          refine ⟨ApiKeyAuth.call_eq_forward.mp hkey, hpasses, fun henabled => ?_⟩
          unfold JwtAuth.call at h
          rw [henabled, Bool.not_true, if_neg Bool.false_ne_true] at h
          split at h
          next hexempt => exact .inl hexempt
          next =>
            cases htoken : bearerToken req with
            | none =>
                rw [htoken] at h
                cases h
            | some token =>
                rw [htoken] at h
                dsimp only at h
                split at h
                next hdecode => exact .inr ⟨token, rfl, hdecode⟩
                next => cases h

/-- What the rate limiter admits of a sequence of actions, by client and time. -/
def admissions (l : Layers) (limits : RateLimit.Limits) (actions : List RateLimit.Action) :
    List (String × ℕ) :=
  ((RateLimit.events l.maxRequests l.windowSecs limits actions).filter
    fun e => e.decision = .admitted).map fun e => (e.ip, e.now)

/-- The first action of a sequence, and the others in the limits that it leaves. -/
theorem admissions_cons (limits : RateLimit.Limits) (a : RateLimit.Action)
    (actions : List RateLimit.Action) :
    admissions l limits (a :: actions) = admissions l limits [a] ++
      admissions l (RateLimit.after l.maxRequests l.windowSecs limits a) actions := by
  cases a with
  | evict now => rfl
  | request ip now =>
      unfold admissions
      rw [← List.map_append, ← List.filter_append]
      rfl

/-- A request that arrives is turned away, is rejected or is admitted. -/
theorem arrive_cases (l : Layers) (s : App) (call : ℕ) (req : HttpRequest) (now : ℕ) :
    (∃ res, l.outer req = .respond res ∧
      s.arrive l call req now =
        { s with answered := s.answered ++ [(call, withDefaultHeaders res)] }) ∨
    (∃ secs limits, l.outer req = .forward ∧
      RateLimit.call l.maxRequests l.windowSecs s.limits (l.client req) now =
        (.reject secs, limits) ∧
      s.arrive l call req now = { s with
        limits
        answered := s.answered ++ [(call, withDefaultHeaders (rateLimitExceeded secs))] }) ∨
    ∃ entry limits, l.outer req = .forward ∧
      RateLimit.call l.maxRequests l.windowSecs s.limits (l.client req) now = (.admitted, limits) ∧
      entry = ⟨req, now, (s.history.registry.lookup req.path).map (·.id)⟩ ∧
      s.arrive l call req now = { s with
        limits
        pending := s.pending.insert call entry
        admitted := s.admitted ++ [entry]
        routed := if (l.cors req).forwards then s.routed ++ [entry] else s.routed } := by
  unfold arrive
  cases l.outer req with
  | respond res => exact .inl ⟨res, rfl, rfl⟩
  | forward =>
      -- Only what the outer layers forward reaches the limiter.
      cases RateLimit.call l.maxRequests l.windowSecs s.limits (l.client req) now with
      | mk decision limits =>
          cases decision with
          | reject secs => exact .inr (.inl ⟨secs, limits, rfl, rfl, rfl⟩)
          | admitted => exact .inr (.inr ⟨_, limits, rfl, rfl, rfl, rfl⟩)

/-- The steps that are no arrivals change nothing in front of the logger but the windows. -/
theorem step_other {a : AppAction} (h : step l s a = some s')
    (hother : ∀ call req now, a ≠ .arrive call req now) :
    s'.admitted = s.admitted ∧ s'.routed = s.routed ∧
      admissions l s.limits (a.limited l).toList = [] ∧
      s'.limits = (a.limited l).elim s.limits
        (RateLimit.after l.maxRequests l.windowSecs s.limits) := by
  cases a with
  | arrive call req now => exact absurd rfl (hother call req now)
  | respond call res now timestamp =>
      obtain ⟨entry, -, rfl⟩ := Option.map_eq_some_iff.mp h
      exact ⟨rfl, rfl, rfl, rfl⟩
  | close call =>
      obtain ⟨entry, -, rfl⟩ := Option.map_eq_some_iff.mp h
      exact ⟨rfl, rfl, rfl, rfl⟩
  | evict now =>
      cases h
      exact ⟨rfl, rfl, rfl, rfl⟩
  | registry a =>
      simp only [step] at h
      split at h
      next =>
        obtain ⟨history, -, rfl⟩ := Option.map_eq_some_iff.mp h
        exact ⟨rfl, rfl, rfl, rfl⟩
      next => cases h

/-- One step, as the rate limiter sees it. -/
theorem step_limited {a : AppAction} (h : step l s a = some s') :
    s'.limits = (a.limited l).elim s.limits (RateLimit.after l.maxRequests l.windowSecs s.limits) ∧
      ∃ new, s'.admitted = s.admitted ++ new ∧
        new.map (Logged.stamp l) = admissions l s.limits (a.limited l).toList ∧
          ∃ reached, s'.routed = s.routed ++ reached ∧ reached.Sublist new ∧
            ∀ r ∈ reached, l.Passes r.req := by
  by_cases harrive : ∃ call req now, a = .arrive call req now
  · obtain ⟨call, req, now, rfl⟩ := harrive
    simp only [step] at h
    split at h
    next => cases h
    next =>
      cases h
      have hnone : ∀ r ∈ ([] : List Logged), l.Passes r.req :=
        fun r hr => absurd hr List.not_mem_nil
      rcases arrive_cases l s call req now with ⟨res, houter, harrive⟩ |
        ⟨secs, limits, houter, hcall, harrive⟩ | ⟨entry, limits, houter, hcall, rfl, harrive⟩ <;>
        have hlimited := congrArg (fun r : MiddlewareResult =>
          if r.forwards then some (RateLimit.Action.request (l.client req) now) else none)
            houter <;>
        rw [harrive, AppAction.limited, hlimited]
      · exact ⟨rfl, [], (List.append_nil _).symm, rfl, [], (List.append_nil _).symm, .slnil, hnone⟩
      · refine ⟨(congrArg Prod.snd hcall).symm, [], (List.append_nil _).symm, ?_, [],
          (List.append_nil _).symm, .slnil, hnone⟩
        simp [admissions, RateLimit.events, hcall, MiddlewareResult.forwards]
      · refine ⟨(congrArg Prod.snd hcall).symm, [_], rfl, ?_, ?_⟩
        · simp [admissions, RateLimit.events, hcall, MiddlewareResult.forwards, Logged.stamp]
        · cases (l.cors req).forwards with
          -- The CORS layer comes last: it may answer itself what the limiter has admitted.
          | true =>
              refine ⟨[_], rfl, List.Sublist.refl _, fun r hr => ?_⟩
              rw [List.mem_singleton.mp hr]
              exact passes_of_outer (by rw [houter]; rfl)
          | false =>
              exact ⟨[], (List.append_nil _).symm, List.nil_sublist _, hnone⟩
  · obtain ⟨hadmitted, hrouted, hnothing, hlimits⟩ :=
      step_other h fun call req now heq => harrive ⟨call, req, now, heq⟩
    refine ⟨hlimits, [], by rw [hadmitted, List.append_nil], hnothing.symm, [],
      by rw [hrouted, List.append_nil], .slnil, fun r hr => absurd hr List.not_mem_nil⟩

/-- A run, as the rate limiter sees it. -/
theorem stamps_of_runs {as : List AppAction}
    (hrun : (machine l).Runs Machine.unrestricted s as s') :
    s'.admitted.map (Logged.stamp l) = s.admitted.map (Logged.stamp l) ++
      admissions l s.limits (as.filterMap fun a => a.limited l) := by
  induction hrun with
  | nil s => exact (List.append_nil _).symm
  | @cons s t u a as _ hstep _ ih =>
      obtain ⟨hlimits, new, hadmitted, hnew, -⟩ := step_limited hstep
      -- The windows after the step are those in which the rest of the actions is counted.
      rw [ih, hadmitted, List.map_append, hnew, List.append_assoc, hlimits, List.filterMap_cons]
      cases a.limited l with
      | none => rfl
      | some action =>
          dsimp only [Option.elim_some, Option.toList_some]
          rw [← admissions_cons]

/-- What the routes see has passed. -/
theorem routed_of_runs {db : SqliteStorage} {as : List AppAction}
    (hrun : (machine l).Runs Machine.unrestricted (initial db) as s) :
    s.routed.Sublist s.admitted ∧ ∀ r ∈ s.routed, l.Passes r.req := by
  refine hrun.invariant (I := fun s => s.routed.Sublist s.admitted ∧ ∀ r ∈ s.routed, l.Passes r.req)
    (fun s a s' hs _ h => ?_) ⟨.slnil, fun r hr => absurd hr List.not_mem_nil⟩
  obtain ⟨-, new, hadmitted, -, reached, hrouted, hsub, hpasses⟩ := step_limited h
  rw [hrouted, hadmitted]
  refine ⟨hs.1.append hsub, fun r hr => ?_⟩
  rcases List.mem_append.mp hr with hr | hr
  · exact hs.2 r hr
  · exact hpasses r hr

/-- Layers that let one request a minute through, with the token `t`. -/
def oneAMinute : Layers where
  apiKeyAuth := ⟨"key"⟩
  ipFilter := ⟨[], [], false⟩
  jwtDecode := fun _ _ _ token => token = "t"
  jwt := ⟨.hs256, none, none, true⟩
  rateLimiter := ⟨false, []⟩
  maxRequests := 1
  windowSecs := 60
  cors := fun _ => .forward
  maxRequests_pos := le_rfl
  windowSecs_pos := by decide

/-- A request for `/a` with a token. -/
def tokenRequest (token : String) : HttpRequest :=
  ⟨"GET", "/a", "", [("authorization", Utf8.encode ("Bearer " ++ token))], some (.v4 10 0 0 7), []⟩

/-- A request with a wrong token, and two with the right one. -/
def threeArrivals : List AppAction :=
  [.arrive 0 (tokenRequest "x") 5, .arrive 1 (tokenRequest "t") 6, .respond 1 (.json 200 []) 9 0,
    .arrive 2 (tokenRequest "t") 10]

/-- A request that the outer layers turn away is answered and changes nothing else. -/
theorem SameBehind.turnedAway (hsame : s.SameBehind t) {a : AppAction}
    (ha : a.isAccepted l = false) (h : step l s a = some s') : s'.SameBehind t := by
  cases a with
  | arrive call req now =>
      simp only [step] at h
      split at h
      next => cases h
      next =>
        cases h
        rcases arrive_cases l s call req now with ⟨res, -, harrive⟩ | ⟨_, _, houter, -⟩ |
          ⟨_, _, houter, -⟩
        · rw [harrive]
          exact hsame
        · rw [AppAction.isAccepted, houter] at ha
          cases ha
        · rw [AppAction.isAccepted, houter] at ha
          cases ha
  | respond | close | evict | registry => cases ha

/-- The fields that two states share behind the outer layers. -/
theorem SameBehind.eq_with (hsame : s.SameBehind t) : { s with answered := t.answered } = t :=
  congrArg (fun s : App => { s with answered := t.answered }) hsame

/-- The responses that were sent so far have no effect. -/
theorem step_answered {a : AppAction} (h : step l s a = some s')
    (answered : List (ℕ × HttpResponse)) :
    ∃ new, s'.answered = s.answered ++ new ∧
      step l { s with answered } a = some { s' with answered := answered ++ new } := by
  cases a with
  | arrive call req now =>
      simp only [step] at h ⊢
      split at h
      next => cases h
      next hfree =>
        cases h
        rw [if_neg hfree]
        rcases arrive_cases l s call req now with ⟨res, houter, harrive⟩ |
          ⟨secs, limits, houter, hcall, harrive⟩ |
          ⟨entry, limits, houter, hcall, hentry, harrive⟩ <;>
          rw [harrive]
        · exact ⟨_, rfl, by simp [arrive, houter]⟩
        · exact ⟨_, rfl, by simp [arrive, houter, hcall]⟩
        · exact ⟨[], (List.append_nil _).symm, by simp [arrive, houter, hcall, hentry]⟩
  | respond call res now timestamp =>
      obtain ⟨entry, hentry, rfl⟩ := Option.map_eq_some_iff.mp h
      exact ⟨_, rfl, by simp [step, hentry, respond]⟩
  | close call =>
      obtain ⟨entry, hentry, rfl⟩ := Option.map_eq_some_iff.mp h
      exact ⟨[], (List.append_nil _).symm, by simp [step, hentry]⟩
  | evict now =>
      cases h
      exact ⟨[], (List.append_nil _).symm, by simp [step]⟩
  | registry a =>
      simp only [step] at h
      split at h
      next hoperation =>
        obtain ⟨history, hhistory, rfl⟩ := Option.map_eq_some_iff.mp h
        exact ⟨[], (List.append_nil _).symm, by simp [step, hoperation, hhistory]⟩
      next => cases h

end App

end XiraNet

import XiraNet.Gateway.Handler
import XiraNet.Lib.AnchoredWindow
import XiraNet.Lib.Runs

/-!
# Bot detection

`middleware/bot_detect.rs`, which the gateway asks before it looks for a service. Every request of
an address counts in the window of the address, but only a request that looks like a bot is held
to the crawl rate. Time is in seconds of the system clock.

* `BotLog.rate_of_runs`: what the crawl rate lets through, and what it stops.
-/

namespace XiraNet

/-- A bot that is let through. -/
def BotVerdict.isBot : BotVerdict → Bool
  | .bot _ => true
  | _ => false

/-- The window of an address. -/
structure BotTracker where
  requestCount : ℕ
  windowStart : ℕ
  isBot : Bool
  deriving DecidableEq, Repr

/-- The detector of `bot_detect.rs`. -/
structure BotDetector where
  enabled : Bool
  knownBots : List String
  ipTracker : DashMap String BotTracker
  blockBots : Bool
  /-- The requests of a bot in a window. -/
  crawlRateLimit : ℕ

namespace BotDetector

/-- The detector at the start. -/
def new (enabled blockBots : Bool) (crawlRateLimit : ℕ) : BotDetector where
  enabled
  knownBots := ["Googlebot", "Bingbot", "Slurp", "DuckDuckBot", "Baiduspider", "YandexBot", "Sogou",
    "facebookexternalhit", "Twitterbot", "rogerbot", "linkedinbot", "embedly",
    "quora link preview", "showyoubot", "outbrain", "pinterest", "applebot", "Scrapy",
    "python-requests", "curl", "wget", "httpie", "Go-http-client", "Java", "Apache-HttpClient",
    "okhttp"]
  ipTracker := ∅
  blockBots
  crawlRateLimit

/-- The known bot that a user agent names. A user agent is the text of a header, so it is ASCII. -/
def botName (d : BotDetector) (userAgent : String) : Option String :=
  d.knownBots.find? fun bot =>
    Text.contains (Text.toAsciiLowercase userAgent) (Text.toAsciiLowercase bot)

/-- A user agent looks like a bot also if it is missing or short. -/
def looksLikeBot (d : BotDetector) (userAgent : String) : Bool :=
  (d.botName userAgent).isSome || userAgent = "" || Text.byteLength userAgent.toList < 10

/-- The seconds since a window has started, a difference of `u64`s. -/
def sinceStart (now windowStart : ℕ) : ℕ := (now + 2 ^ 64 - windowStart) % 2 ^ 64

/-- The window of an address, with a request counted. -/
def track (tracker : Option BotTracker) (now : ℕ) (isBot : Bool) : BotTracker :=
  let tracker := tracker.getD ⟨0, now, isBot⟩
  let tracker :=
    if 60 < sinceStart now tracker.windowStart then
      { tracker with requestCount := 0, windowStart := now }
    else tracker
  { tracker with requestCount := (tracker.requestCount + 1) % 2 ^ 32, isBot }

/-- What becomes of a request that has been counted. -/
def verdict (d : BotDetector) (userAgent : String) (requestCount : ℕ) : BotVerdict :=
  if d.looksLikeBot userAgent then
    if d.blockBots then .blocked
    else if d.crawlRateLimit < requestCount then .rateLimited
    else .bot ((d.botName userAgent).getD "unknown-bot")
  else .human

/-- `check`. -/
def check (d : BotDetector) (now : ℕ) (ip userAgent : String) : BotVerdict × BotDetector :=
  if !d.enabled then (.human, d)
  else
    let tracker := track (d.ipTracker.lookup ip) now (d.looksLikeBot userAgent)
    (d.verdict userAgent tracker.requestCount,
      { d with ipTracker := d.ipTracker.insert ip tracker })

/-- A detector that is off keeps no count. -/
theorem check_of_off {d : BotDetector} {now : ℕ} {ip userAgent : String}
    (hoff : d.enabled = false) : d.check now ip userAgent = (.human, d) :=
  if_pos (by rw [hoff]; rfl)

/-- A detector that is on. -/
theorem check_of_on {d : BotDetector} {now : ℕ} {ip userAgent : String}
    (hon : d.enabled = true) :
    d.check now ip userAgent =
      (d.verdict userAgent
        (track (d.ipTracker.lookup ip) now (d.looksLikeBot userAgent)).requestCount,
      { d with
        ipTracker := d.ipTracker.insert ip
          (track (d.ipTracker.lookup ip) now (d.looksLikeBot userAgent)) }) :=
  if_neg (by rw [hon]; exact Bool.false_ne_true)

/-- Where no time has been set back, the difference is the one of numbers. -/
theorem sinceStart_of_le {now windowStart : ℕ} (hle : windowStart ≤ now) (hnow : now < 2 ^ 64) :
    sinceStart now windowStart = now - windowStart := by
  unfold sinceStart
  omega

/-- Only a request below the crawl rate is let through as a bot. -/
theorem le_of_isBot_verdict {d : BotDetector} {userAgent : String} {requestCount : ℕ}
    (h : (d.verdict userAgent requestCount).isBot = true) : requestCount ≤ d.crawlRateLimit := by
  unfold verdict at h
  split at h
  · split at h
    · cases h
    · split at h
      next => cases h
      next hle => exact not_lt.mp hle
  · cases h

/-- Only a request above the crawl rate is stopped by it. -/
theorem lt_of_verdict_eq {d : BotDetector} {userAgent : String} {requestCount : ℕ}
    (h : d.verdict userAgent requestCount = .rateLimited) : d.crawlRateLimit < requestCount := by
  unfold verdict at h
  split at h
  · split at h
    · cases h
    · split at h
      next hlt => exact hlt
      next => cases h
  · cases h

/-- The window after a request: the old one with one more request, or a new one, for which an old
one was over. -/
theorem track_cases {tracker : Option BotTracker} {now : ℕ} (isBot : Bool)
    (hstart : ∀ old, tracker = some old → old.windowStart ≤ now ∧ old.requestCount + 1 < 2 ^ 32)
    (hnow : now < 2 ^ 64) :
    (track tracker now isBot = ⟨1, now, isBot⟩ ∧
        ∀ old, tracker = some old → old.windowStart + 61 ≤ now) ∨
      ∃ old, tracker = some old ∧ now ≤ old.windowStart + 60 ∧
        track tracker now isBot = ⟨old.requestCount + 1, old.windowStart, isBot⟩ := by
  have hone : (0 + 1) % 2 ^ 32 = 1 := by decide
  cases tracker with
  | none =>
      left
      refine ⟨?_, fun old h => nomatch h⟩
      unfold track
      dsimp only [Option.getD_none]
      rw [ite_self, hone]
  | some old =>
      obtain ⟨hle, hfits⟩ := hstart old rfl
      have hmod : (old.requestCount + 1) % 2 ^ 32 = old.requestCount + 1 := Nat.mod_eq_of_lt hfits
      unfold track
      dsimp only [Option.getD_some]
      rw [sinceStart_of_le hle hnow]
      by_cases hover : 60 < now - old.windowStart
      · left
        rw [if_pos hover]
        refine ⟨congrArg (BotTracker.mk · now isBot) hone, fun old' h => ?_⟩
        cases h
        omega
      · right
        rw [if_neg hover]
        exact ⟨old, rfl, by omega, congrArg (BotTracker.mk · old.windowStart isBot) hmod⟩

end BotDetector

/-- A request that the detector is asked about. -/
structure BotCall where
  now : ℕ
  ip : String
  userAgent : String
  deriving DecidableEq, Repr

/-- An answer, with the requests of the address in its window where they are counted. -/
structure BotAnswer where
  call : BotCall
  verdict : BotVerdict
  requestCount : Option ℕ
  deriving DecidableEq, Repr

/-- A detector, the time of the last request and the answers, the last one first. -/
structure BotLog where
  detector : BotDetector
  clock : ℕ
  answers : List BotAnswer

namespace BotLog

/-- One request. Its entry of the map is locked meanwhile. -/
def step (s : BotLog) (call : BotCall) : Option BotLog :=
  if s.clock ≤ call.now ∧ call.now < 2 ^ 64 then
    let (verdict, detector) := s.detector.check call.now call.ip call.userAgent
    let requestCount := if s.detector.enabled then
      (detector.ipTracker.lookup call.ip).map BotTracker.requestCount else none
    some ⟨detector, call.now, ⟨call, verdict, requestCount⟩ :: s.answers⟩
  else none

/-- Requests, one after the other. -/
def machine : Machine BotLog BotCall := ⟨step⟩

/-- A detector that has seen no request. -/
def initial (d : BotDetector) : BotLog := ⟨{ d with ipTracker := ∅ }, 0, []⟩

/-- The count of the address has room for the request. -/
def Fits (s : BotLog) (call : BotCall) : Prop :=
  ((s.detector.ipTracker.lookup call.ip).all fun tracker =>
    tracker.requestCount + 1 < 2 ^ 32) = true

instance (s : BotLog) (call : BotCall) : Decidable (s.Fits call) :=
  inferInstanceAs (Decidable (_ = true))

open AnchoredWindow

variable (limit : ℕ)

/-- The window of an address as a counter that stops at the limit. -/
def counter (tracker : BotTracker) : Counter :=
  ⟨min tracker.requestCount limit, tracker.windowStart⟩

/-- The counter of an address. -/
def counterOf (ipTracker : DashMap String BotTracker) (ip : String) : Option Counter :=
  (ipTracker.lookup ip).map (counter limit)

/-- What an answer is for the counter. -/
def outcome (a : BotAnswer) : Outcome :=
  match a.requestCount with
  | some requestCount => if requestCount ≤ limit then .counted else .ignored
  | none => .ignored

/-- The events of an address. -/
def events (ip : String) (answers : List BotAnswer) : List AnchoredWindow.Event :=
  (answers.filter fun a => a.call.ip = ip).map fun a => ⟨a.call.now, outcome limit a⟩

/-- The requests of an address from a time on. -/
def requestsFrom (ip : String) (start : ℕ) (answers : List BotAnswer) : ℕ :=
  answers.countP fun a => a.call.ip = ip ∧ start ≤ a.call.now

/-- Whoever was stopped by the crawl rate had sent more requests within a minute. -/
def LimitedLate (answers : List BotAnswer) : Prop :=
  ∀ recent a old, answers = recent ++ a :: old → a.verdict = .rateLimited →
    limit < requestsFrom a.call.ip (a.call.now - 60) (a :: old)

/-- The invariant. -/
structure Inv (s : BotLog) : Prop where
  crawlRateLimit : s.detector.crawlRateLimit = limit
  /-- The window of every address has the history of its requests, -/
  history : 0 < limit → ∀ ip,
    History limit 61 s.clock (counterOf limit s.detector.ipTracker ip) (events limit ip s.answers)
  /-- and its count has been there. -/
  counts : ∀ ip tracker, s.detector.ipTracker.lookup ip = some tracker →
    tracker.windowStart ≤ s.clock ∧
      tracker.requestCount ≤ requestsFrom ip tracker.windowStart s.answers
  bots : ∀ a ∈ s.answers, a.verdict.isBot = true → s.detector.enabled = true →
    ∃ requestCount, a.requestCount = some requestCount ∧ 0 < requestCount ∧ requestCount ≤ limit
  limited : LimitedLate limit s.answers
  /-- A detector that is off takes everyone for a human. -/
  off : s.detector.enabled = false → ∀ a ∈ s.answers, a.verdict = .human

variable {limit}

/-- No request clears the counter. -/
theorem outcome_ne_cleared (a : BotAnswer) : outcome limit a ≠ .cleared := by
  unfold outcome
  cases a.requestCount with
  | none => exact Outcome.noConfusion
  | some requestCount =>
      dsimp only
      split
      next => exact Outcome.noConfusion
      next => exact Outcome.noConfusion

/-- A list without answers. -/
theorem limitedLate_nil : LimitedLate limit [] := by
  intro recent a old h
  exact absurd h.symm (List.append_ne_nil_of_right_ne_nil recent (List.cons_ne_nil a old))

/-- One answer more, which is checked if it comes from the crawl rate. -/
theorem LimitedLate.cons {a : BotAnswer} {answers : List BotAnswer}
    (h : LimitedLate limit answers)
    (ha : a.verdict = .rateLimited →
      limit < requestsFrom a.call.ip (a.call.now - 60) (a :: answers)) :
    LimitedLate limit (a :: answers) := by
  intro recent a' old heq hlimited
  cases recent with
  | nil =>
      cases heq
      exact ha hlimited
  | cons _ recent =>
      obtain ⟨-, hrest⟩ := List.cons.inj heq
      exact h recent a' old hrest hlimited

/-- A request more of the address. -/
theorem requestsFrom_cons_of_eq {a : BotAnswer} {ip : String} {start : ℕ}
    {answers : List BotAnswer} (hip : a.call.ip = ip) (hstart : start ≤ a.call.now) :
    requestsFrom ip start (a :: answers) = requestsFrom ip start answers + 1 :=
  List.countP_cons_of_pos (decide_eq_true ⟨hip, hstart⟩)

/-- A request more. -/
theorem requestsFrom_le_cons (ip : String) (start : ℕ) (a : BotAnswer) (answers : List BotAnswer) :
    requestsFrom ip start answers ≤ requestsFrom ip start (a :: answers) := by
  unfold requestsFrom
  rw [List.countP_cons]
  exact Nat.le_add_right _ _

/-- The events of the address of an answer. -/
theorem events_cons_of_eq {a : BotAnswer} {ip : String} {answers : List BotAnswer}
    (hip : a.call.ip = ip) : events limit ip (a :: answers) =
      ⟨a.call.now, outcome limit a⟩ :: events limit ip answers := by
  unfold events
  rw [List.filter_cons_of_pos (by simpa using hip), List.map_cons]

/-- The events of another address. -/
theorem events_cons_of_ne {a : BotAnswer} {ip : String} {answers : List BotAnswer}
    (hne : a.call.ip ≠ ip) : events limit ip (a :: answers) = events limit ip answers := by
  unfold events
  rw [List.filter_cons_of_neg (by simpa using hne)]

/-- A request in the history of its address. -/
theorem history_track {now later : ℕ} {tracker : Option BotTracker} {isBot : Bool}
    {es : List AnchoredWindow.Event} {a : BotAnswer} (hlimit : 0 < limit)
    (h : History limit 61 now (tracker.map (counter limit)) es) (hlater : now ≤ later)
    (hcases : (BotDetector.track tracker later isBot = ⟨1, later, isBot⟩ ∧
        ∀ old, tracker = some old → old.windowStart + 61 ≤ later) ∨
      ∃ old, tracker = some old ∧ later ≤ old.windowStart + 60 ∧
        BotDetector.track tracker later isBot = ⟨old.requestCount + 1, old.windowStart, isBot⟩)
    (ha : a.requestCount = some (BotDetector.track tracker later isBot).requestCount) :
    History limit 61 later (some (counter limit (BotDetector.track tracker later isBot)))
      (⟨later, outcome limit a⟩ :: es) := by
  unfold outcome
  rw [ha]
  rcases hcases with ⟨hnew, hover⟩ | ⟨old, rfl, -, hmore⟩
  -- The window before it is over, if there was one.
  · have hnone : History limit 61 later none es := by
      refine h.check hlater ?_
      cases tracker with
      | none => exact .inl rfl
      | some old => exact .inr ⟨rfl, _, rfl, hover old rfl⟩
    rw [hnew]
    dsimp only
    rw [if_pos (Nat.one_le_iff_ne_zero.mpr hlimit.ne')]
    have hcounter : counter limit ⟨1, later, isBot⟩ = ⟨1, later⟩ :=
      congrArg (Counter.mk · later) (Nat.min_eq_left hlimit)
    rw [hcounter]
    exact hnone.event le_rfl le_rfl .start
  · rw [hmore]
    dsimp only
    have hsame := h.check hlater (.inl rfl)
    by_cases hbelow : old.requestCount + 1 ≤ limit
    · rw [if_pos hbelow]
      refine hsame.event le_rfl le_rfl ?_
      have hold : counter limit old = ⟨old.requestCount, old.windowStart⟩ :=
        congrArg (Counter.mk · old.windowStart) (Nat.min_eq_left (Nat.le_of_succ_le hbelow))
      have hnext : counter limit ⟨old.requestCount + 1, old.windowStart, isBot⟩ =
          ⟨old.requestCount + 1, old.windowStart⟩ :=
        congrArg (Counter.mk · old.windowStart) (Nat.min_eq_left hbelow)
      rw [Option.map_some, hold, hnext]
      exact .more hbelow
    -- The counter has stopped at the limit, while the window counts on.
    · rw [if_neg hbelow]
      refine hsame.event le_rfl le_rfl ?_
      have hnext : counter limit ⟨old.requestCount + 1, old.windowStart, isBot⟩ =
          counter limit old := by
        refine congrArg (Counter.mk · old.windowStart) ?_
        dsimp only
        omega
      rw [hnext]
      exact .ignored _

/-- A detector that is off. -/
theorem inv_step_off {s : BotLog} {call : BotCall} (hs : s.Inv limit)
    (hoff : s.detector.enabled = false) (hclock : s.clock ≤ call.now) :
    Inv limit ⟨s.detector, call.now, ⟨call, .human, none⟩ :: s.answers⟩ where
  crawlRateLimit := hs.crawlRateLimit
  history hlimit ip := by
    have hsame := (hs.history hlimit ip).check hclock (.inl rfl)
    dsimp only
    by_cases hip : call.ip = ip
    · rw [events_cons_of_eq hip]
      exact hsame.event le_rfl le_rfl (.ignored _)
    · rw [events_cons_of_ne hip]
      exact hsame
  counts ip tracker hlookup := by
    obtain ⟨hstart, hcount⟩ := hs.counts ip tracker hlookup
    exact ⟨hstart.trans hclock, hcount.trans (requestsFrom_le_cons _ _ _ _)⟩
  bots _ _ _ hon := absurd hon (hoff ▸ Bool.false_ne_true)
  limited := hs.limited.cons fun h => nomatch h
  off _ := List.forall_mem_cons.mpr ⟨rfl, hs.off hoff⟩

/-- The window of the address of a request, when it was counted. -/
structure Counted (s : BotLog) (call : BotCall) (tracker : BotTracker) : Prop where
  started : tracker.windowStart ≤ call.now
  running : call.now ≤ tracker.windowStart + 60
  pos : 0 < tracker.requestCount
  requests : tracker.requestCount ≤ requestsFrom call.ip tracker.windowStart s.answers + 1

/-- A request is counted in a window that has started within the last minute. -/
theorem Inv.counted_track {s : BotLog} {call : BotCall} (hs : s.Inv limit)
    (hclock : s.clock ≤ call.now) {isBot : Bool}
    (hcases : (BotDetector.track (s.detector.ipTracker.lookup call.ip) call.now isBot =
        ⟨1, call.now, isBot⟩ ∧
          ∀ old, s.detector.ipTracker.lookup call.ip = some old → old.windowStart + 61 ≤ call.now) ∨
      ∃ old, s.detector.ipTracker.lookup call.ip = some old ∧ call.now ≤ old.windowStart + 60 ∧
        BotDetector.track (s.detector.ipTracker.lookup call.ip) call.now isBot =
          ⟨old.requestCount + 1, old.windowStart, isBot⟩) :
    Counted s call (BotDetector.track (s.detector.ipTracker.lookup call.ip) call.now isBot) := by
  rcases hcases with ⟨hnew, -⟩ | ⟨old, hold, hrunning, hmore⟩
  · rw [hnew]
    exact ⟨le_rfl, Nat.le_add_right _ _, Nat.one_pos, Nat.le_add_left _ _⟩
  · obtain ⟨hstart, hcounted⟩ := hs.counts _ old hold
    rw [hmore]
    exact ⟨hstart.trans hclock, hrunning, Nat.succ_pos _, Nat.succ_le_succ hcounted⟩

/-- A detector that is on. -/
theorem inv_step_on {s : BotLog} {a : BotAnswer} {isBot : Bool} {tracker : BotTracker}
    (hs : s.Inv limit) (hfits : s.Fits a.call) (hclock : s.clock ≤ a.call.now)
    (hnow : a.call.now < 2 ^ 64) (hon : s.detector.enabled = true)
    (htracker : BotDetector.track (s.detector.ipTracker.lookup a.call.ip) a.call.now isBot =
      tracker)
    (hverdict : a.verdict = s.detector.verdict a.call.userAgent tracker.requestCount)
    (hcount : a.requestCount = some tracker.requestCount) :
    Inv limit ⟨{ s.detector with ipTracker := s.detector.ipTracker.insert a.call.ip tracker },
      a.call.now, a :: s.answers⟩ := by
  have hfound : ∀ old, s.detector.ipTracker.lookup a.call.ip = some old →
      old.windowStart ≤ a.call.now ∧ old.requestCount + 1 < 2 ^ 32 := by
    intro old hold
    unfold Fits at hfits
    rw [hold] at hfits
    exact ⟨(hs.counts _ old hold).1.trans hclock, of_decide_eq_true hfits⟩
  have hcases := BotDetector.track_cases isBot hfound hnow
  have hcounted := hs.counted_track hclock hcases
  rw [htracker] at hcounted
  constructor
  case crawlRateLimit => exact hs.crawlRateLimit
  case history =>
    intro hlimit ip
    have hbefore := hs.history hlimit ip
    unfold counterOf at hbefore ⊢
    dsimp only
    rw [DashMap.lookup_insert]
    by_cases hip : a.call.ip = ip
    · subst hip
      rw [if_pos rfl, events_cons_of_eq rfl, ← htracker]
      exact history_track hlimit hbefore hclock hcases (htracker ▸ hcount)
    · rw [if_neg (Ne.symm hip), events_cons_of_ne hip]
      exact hbefore.check hclock (.inl rfl)
  case counts =>
    intro ip tracker' hlookup
    rcases DashMap.lookup_insert_cases hlookup with ⟨rfl, rfl⟩ | ⟨-, hold⟩
    · dsimp only
      rw [requestsFrom_cons_of_eq rfl hcounted.started]
      exact ⟨hcounted.started, hcounted.requests⟩
    · obtain ⟨holdStart, hrequests⟩ := hs.counts ip tracker' hold
      exact ⟨holdStart.trans hclock, hrequests.trans (requestsFrom_le_cons _ _ _ _)⟩
  case bots =>
    intro a' ha hbot _
    rcases List.mem_cons.mp ha with rfl | hold
    · have hle := BotDetector.le_of_isBot_verdict (hverdict ▸ hbot)
      exact ⟨_, hcount, hcounted.pos, hs.crawlRateLimit ▸ hle⟩
    · exact hs.bots a' hold hbot hon
  case limited =>
    refine hs.limited.cons fun hlimited => ?_
    have hover := BotDetector.lt_of_verdict_eq (hverdict.symm.trans hlimited)
    rw [hs.crawlRateLimit] at hover
    -- The window started within the last minute.
    have hstart : a.call.now - 60 ≤ tracker.windowStart := Nat.sub_le_of_le_add hcounted.running
    rw [requestsFrom_cons_of_eq rfl (Nat.sub_le _ _)]
    refine (hover.trans_le hcounted.requests).trans_le (Nat.succ_le_succ ?_)
    refine List.countP_mono_left fun a' _ hin => ?_
    obtain ⟨hsame, hfrom⟩ := of_decide_eq_true hin
    exact decide_eq_true ⟨hsame, hstart.trans hfrom⟩
  case off =>
    intro hoff
    cases hon.symm.trans hoff

/-- A request keeps the invariant. -/
theorem inv_step {s t : BotLog} {call : BotCall} (hs : s.Inv limit) (hfits : s.Fits call)
    (h : s.step call = some t) : t.Inv limit := by
  unfold step at h
  split at h
  next htimes =>
    cases hon : s.detector.enabled with
    | false =>
        rw [BotDetector.check_of_off hon] at h
        dsimp only at h
        rw [if_neg (hon ▸ Bool.false_ne_true)] at h
        cases h
        exact inv_step_off hs hon htimes.1
    | true =>
        rw [BotDetector.check_of_on hon] at h
        dsimp only at h
        rw [if_pos hon, DashMap.lookup_insert, if_pos rfl] at h
        cases h
        exact inv_step_on (a := ⟨call, _, _⟩) hs hfits htimes.1 htimes.2 hon rfl rfl rfl
  next => cases h

/-- In every run that leaves room in the counts: of the requests of an address in a half-open
interval of 61 seconds at most `2 * crawlRateLimit - 1` are let through as bots, and a request is
stopped by the crawl rate only if the address has sent more than `crawlRateLimit` requests within
the last 60 seconds. -/
theorem rate_of_runs {d : BotDetector} {calls : List BotCall} {s : BotLog}
    (hrun : machine.Runs Fits (initial d) calls s) :
    (∀ ip start, (s.answers.countP fun a => a.call.ip = ip ∧ a.verdict.isBot ∧
      start ≤ a.call.now ∧ a.call.now < start + 61) ≤ 2 * d.crawlRateLimit - 1) ∧
    LimitedLate d.crawlRateLimit s.answers := by
  have hinv : s.Inv d.crawlRateLimit :=
    hrun.invariant (fun _ _ _ hs hfits h => inv_step hs hfits h) {
      crawlRateLimit := rfl
      history := fun _ _ => .nil
      counts := fun _ _ h => nomatch h
      bots := fun _ h => absurd h List.not_mem_nil
      limited := limitedLate_nil
      off := fun _ _ h => absurd h List.not_mem_nil }
  refine ⟨fun ip start => ?_, hinv.limited⟩
  -- What was let through as a bot was below the limit.
  have hbots : ∀ a ∈ s.answers, a.verdict.isBot = true → 0 < d.crawlRateLimit ∧
      outcome d.crawlRateLimit a = .counted := by
    intro a ha hbot
    cases hon : s.detector.enabled with
    | false =>
        rw [hinv.off hon a ha] at hbot
        cases hbot
    | true =>
        obtain ⟨requestCount, hcount, hpos, hle⟩ := hinv.bots a ha hbot hon
        refine ⟨hpos.trans_le hle, ?_⟩
        unfold outcome
        rw [hcount]
        exact if_pos hle
  by_cases hlimit : 0 < d.crawlRateLimit
  · have hbound : countedIn 61 start (events d.crawlRateLimit ip s.answers) ≤
        2 * d.crawlRateLimit - 1 := by
      refine (hinv.history hlimit ip).count_le hlimit fun e he _ _ => ?_
      obtain ⟨a, -, rfl⟩ := List.mem_map.mp he
      exact outcome_ne_cleared a
    unfold countedIn events at hbound
    rw [List.countP_map, List.countP_filter] at hbound
    refine (List.countP_mono_left fun a ha hin => ?_).trans hbound
    obtain ⟨hip, hbot, htimes⟩ := of_decide_eq_true hin
    simp only [Function.comp_apply, Bool.and_eq_true, decide_eq_true_eq]
    exact ⟨⟨(hbots a ha hbot).2, htimes⟩, hip⟩
  · rw [List.countP_eq_zero.mpr]
    · exact Nat.zero_le _
    · intro a ha hin
      exact hlimit (hbots a ha (of_decide_eq_true hin).2.1).1

/-- Requests of a crawler around the end of a window. -/
def crawl : List BotCall :=
  [⟨0, "10.0.0.7", "curl/8.5.0"⟩, ⟨60, "10.0.0.7", "Mozilla/5.0 Java/21"⟩,
    ⟨60, "10.0.0.8", "Mozilla/5.0 (X11)"⟩, ⟨61, "10.0.0.7", ""⟩, ⟨61, "10.0.0.7", "Wget/1.21"⟩,
    ⟨62, "10.0.0.7", "curl/8.5.0"⟩]

/-- Two windows of two requests meet: three requests are let through, and the next is stopped. -/
theorem rate_crawl : ∃ s : BotLog, machine.Runs Fits (initial (.new true false 2)) crawl s ∧
    (s.answers.map BotAnswer.verdict = [.rateLimited, .bot "wget", .bot "unknown-bot", .human,
      .bot "Java", .bot "curl"]) ∧
    (s.answers.countP fun a => a.call.ip = "10.0.0.7" ∧ a.verdict.isBot ∧
      1 ≤ a.call.now ∧ a.call.now < 1 + 61) ≤ 3 := by
  have hend : (machine.exec Fits (initial (.new true false 2)) crawl).any fun s =>
      s.answers.map BotAnswer.verdict = [.rateLimited, .bot "wget", .bot "unknown-bot", .human,
        .bot "Java", .bot "curl"] := by
    decide +kernel
  obtain ⟨s, hs, hverdicts⟩ := (Option.any_eq_true _ _).mp hend
  have hrun := Machine.runs_of_exec hs
  exact ⟨s, hrun, of_decide_eq_true hverdicts, (rate_of_runs hrun).1 "10.0.0.7" 1⟩

end BotLog

end XiraNet

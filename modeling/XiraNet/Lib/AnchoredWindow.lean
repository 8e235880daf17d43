import Mathlib.Data.List.Basic
import Mathlib.Data.Nat.Notation
import Mathlib.Order.Basic
import Mathlib.Order.Nat

/-!
# Counters anchored at their first event

A counter starts with its first event, takes further events as long as it is below a limit, and is
dropped once a window since its first event has passed, or when it is cleared. The windows lie
where the events put them, so an interval may meet the end of one counter and all of the next.

* `AnchoredWindow.History`: the histories of such a counter, with the events counted.
* `AnchoredWindow.Inv`: what a history has left in the window of the counter that is there.
* `AnchoredWindow.History.count_le`: an interval as long as the window, in which the counter is not
  cleared, has at most `2 * limit - 1` counted events.
-/

namespace AnchoredWindow

/-- A counter with the time of its first event. -/
structure Counter where
  count : ℕ
  first : ℕ
  deriving DecidableEq, Repr

/-- What an event is for the counter. -/
inductive Outcome
  | counted
  | cleared
  | ignored
  deriving DecidableEq, Repr

/-- An event. -/
structure Event where
  time : ℕ
  outcome : Outcome
  deriving DecidableEq, Repr

section

variable (limit window : ℕ)

/-- A counter may be dropped when its window is over. -/
def Passes (now : ℕ) (c c' : Option Counter) : Prop :=
  c' = c ∨ c' = none ∧ ∃ counter, c = some counter ∧ counter.first + window ≤ now

/-- What an event does to the counter. A new counter starts when its first event is over. -/
inductive Effect (later : ℕ) : Option Counter → Outcome → Option Counter → Prop
  | ignored (c : Option Counter) : Effect later c .ignored c
  | start : Effect later none .counted (some ⟨1, later⟩)
  | more {count first : ℕ} (hcount : count < limit) :
      Effect later (some ⟨count, first⟩) .counted (some ⟨count + 1, first⟩)
  | cleared (c : Option Counter) : Effect later c .cleared none

/-- The histories of a counter, with the time of the clock and the events, the last one first. An
event takes from one reading of the clock to a later one, and its time lies in between. -/
inductive History : ℕ → Option Counter → List Event → Prop
  | nil : History 0 none []
  | check {clock now : ℕ} {c c' : Option Counter} {events : List Event}
      (h : History clock c events) (hclock : clock ≤ now) (hpasses : Passes window now c c') :
      History now c' events
  | event {now time later : ℕ} {c c' : Option Counter} {events : List Event} {outcome : Outcome}
      (h : History now c events) (hnow : now ≤ time) (hlater : time ≤ later)
      (heffect : Effect limit later c outcome c') : History later c' (⟨time, outcome⟩ :: events)

/-- The number of events that were counted. -/
def counted (events : List Event) : ℕ := events.countP fun e => e.outcome = .counted

/-- The number of events that were counted from a time on. -/
def countedFrom (start : ℕ) (events : List Event) : ℕ :=
  events.countP fun e => e.outcome = .counted ∧ start ≤ e.time

/-- The number of events that were counted in the half-open interval of a window. -/
def countedIn (start : ℕ) (events : List Event) : ℕ :=
  events.countP fun e => e.outcome = .counted ∧ start ≤ e.time ∧ e.time < start + window

/-- No event from a time on has cleared the counter. -/
def Uncleared (start : ℕ) (events : List Event) : Prop :=
  ∀ e ∈ events, start ≤ e.time → e.outcome ≠ .cleared

/-- An interval that reaches beyond `anchor`, and in which the counter is not cleared, has less than
`limit` of the events in `old`. -/
def Quiet (anchor : ℕ) (old events : List Event) : Prop :=
  ∀ start, anchor < start + window → Uncleared start events → countedFrom start old ≤ limit - 1

/-- What a history has left. Where a counter is there, the events since it started are apart from
those before. -/
inductive Inv : ℕ → Option Counter → List Event → Prop
  | absent {clock : ℕ} {events : List Event} (hquiet : Quiet limit window clock events events) :
      Inv clock none events
  | running {clock : ℕ} {counter : Counter} {recent old : List Event} {e : Event}
      (hcount : counted recent + 1 = counter.count) (hlimit : counter.count ≤ limit)
      (hfirst : e.time ≤ counter.first) (hold : ∀ e' ∈ old, e'.time ≤ counter.first)
      (hquiet : Quiet limit window e.time old (recent ++ e :: old)) :
      Inv clock (some counter) (recent ++ e :: old)

end

variable {limit window : ℕ}

/-- Events before the start of an interval do not count. -/
theorem countedFrom_eq_zero {start : ℕ} {events : List Event}
    (h : ∀ e ∈ events, e.time < start) : countedFrom start events = 0 := by
  refine List.countP_eq_zero.mpr fun e he => ?_
  rw [decide_eq_true_eq]
  exact fun hin => absurd (h e he) (Nat.not_lt.mpr hin.2)

/-- No more events count from a time on than at all. -/
theorem countedFrom_le (start : ℕ) (events : List Event) :
    countedFrom start events ≤ counted events :=
  List.countP_mono_left fun _ _ h => decide_eq_true (of_decide_eq_true h).1

/-- The events of an interval that has started count from its start on. -/
theorem countedIn_le (start : ℕ) (events : List Event) :
    countedIn window start events ≤ countedFrom start events :=
  List.countP_mono_left fun _ _ h =>
    decide_eq_true ⟨(of_decide_eq_true h).1, (of_decide_eq_true h).2.1⟩

/-- The events since a counter started, and those before. -/
theorem countedFrom_append (start : ℕ) (recent old : List Event) :
    countedFrom start (recent ++ old) = countedFrom start recent + countedFrom start old :=
  List.countP_append

/-- One event more. -/
theorem countedFrom_cons_le (start : ℕ) (e : Event) (events : List Event) :
    countedFrom start (e :: events) ≤ countedFrom start events + 1 := by
  unfold countedFrom
  rw [List.countP_cons]
  split
  next => exact le_rfl
  next => exact Nat.le_succ _

/-- What was left alone with an event was so before it. -/
theorem Uncleared.of_cons {start : ℕ} {e : Event} {events : List Event}
    (h : Uncleared start (e :: events)) : Uncleared start events :=
  fun e' he' => h e' (List.mem_cons_of_mem e he')

/-- An event that is not counted leaves the events before it as they are. -/
theorem Quiet.cons {anchor anchor' : ℕ} {old events : List Event}
    (h : Quiet limit window anchor old events) (hle : anchor ≤ anchor') (e : Event) :
    Quiet limit window anchor' old (e :: events) :=
  fun start hstart hclear => h start (hle.trans_lt hstart) hclear.of_cons

/-- Dropping a counter whose window is over. At most all but the first of its events are in an
interval that reaches beyond the window. -/
theorem Inv.check {clock now : ℕ} {c c' : Option Counter} {events : List Event}
    (h : Inv limit window clock c events) (hclock : clock ≤ now)
    (hpasses : Passes window now c c') : Inv limit window now c' events := by
  rcases hpasses with rfl | ⟨rfl, counter, rfl, hover⟩
  · cases h with
    | absent hquiet =>
        exact .absent fun start hstart => hquiet start (hclock.trans_lt hstart)
    | running hcount hlimit hfirst hold hquiet =>
        exact .running hcount hlimit hfirst hold hquiet
  · cases h with
    | @running _ recent old e hcount hlimit hfirst hold hquiet =>
        -- The interval starts after the first event, so what is in it are others of this counter.
        refine .absent fun start hstart _ => ?_
        have hstart' : counter.first < start := by omega
        have hbefore : countedFrom start (e :: old) = 0 := by
          refine countedFrom_eq_zero fun e' he' => ?_
          rcases List.mem_cons.mp he' with rfl | he'
          · exact hfirst.trans_lt hstart'
          · exact (hold e' he').trans_lt hstart'
        have hsince := countedFrom_le start recent
        rw [countedFrom_append, hbefore]
        omega

/-- An event keeps the invariant. A counter that starts takes over the events before it as old. -/
theorem Inv.event (hpos : 0 < limit) {now time later : ℕ} {c c' : Option Counter}
    {events : List Event} {outcome : Outcome} (h : Inv limit window now c events)
    (htimes : ∀ e ∈ events, e.time ≤ now) (hnow : now ≤ time) (hlater : time ≤ later)
    (heffect : Effect limit later c outcome c') :
    Inv limit window later c' (⟨time, outcome⟩ :: events) := by
  cases heffect with
  | ignored =>
      cases h with
      | absent hquiet =>
          refine .absent fun start hstart hclear => ?_
          have hbefore := hquiet.cons (hnow.trans hlater) ⟨time, .ignored⟩ start hstart hclear
          unfold countedFrom at hbefore ⊢
          rw [List.countP_cons_of_neg (by simp)]
          exact hbefore
      | @running _ recent old e hcount hlimit hfirst hold hquiet =>
          show Inv limit window later _ ((⟨time, .ignored⟩ :: recent) ++ e :: old)
          refine .running ?_ hlimit hfirst hold (hquiet.cons le_rfl _)
          unfold counted at hcount ⊢
          rw [List.countP_cons_of_neg (by simp)]
          exact hcount
  | start =>
      cases h with
      | absent hquiet =>
          show Inv limit window later _ ([] ++ ⟨time, .counted⟩ :: events)
          exact .running rfl hpos hlater
            (fun e' he' => (htimes e' he').trans (hnow.trans hlater)) (hquiet.cons hnow _)
  | @more count first hcount' =>
      cases h with
      | @running _ recent old e hcount hlimit hfirst hold hquiet =>
          show Inv limit window later _ ((⟨time, .counted⟩ :: recent) ++ e :: old)
          refine .running ?_ hcount' hfirst hold (hquiet.cons le_rfl _)
          unfold counted at hcount ⊢
          rw [List.countP_cons_of_pos (by simp), hcount]
  | cleared =>
      -- An interval without this event starts after it, and after all the others.
      refine .absent fun start _ hclear => ?_
      have hstart : time < start := by
        by_contra hle
        exact hclear _ List.mem_cons_self (not_lt.mp hle) rfl
      rw [countedFrom_eq_zero]
      · exact Nat.zero_le _
      · intro e he
        rcases List.mem_cons.mp he with rfl | he
        · exact hstart
        · exact ((htimes e he).trans hnow).trans_lt hstart

/-- A history keeps the invariant, and its events lie before the clock. -/
theorem History.inv (hpos : 0 < limit) {clock : ℕ} {c : Option Counter} {events : List Event}
    (h : History limit window clock c events) :
    Inv limit window clock c events ∧ ∀ e ∈ events, e.time ≤ clock := by
  induction h with
  | nil => exact ⟨.absent fun _ _ _ => Nat.zero_le _, fun _ he => absurd he List.not_mem_nil⟩
  | check _ hclock hpasses ih =>
      exact ⟨ih.1.check hclock hpasses, fun e he => (ih.2 e he).trans hclock⟩
  | event _ hnow hlater heffect ih =>
      refine ⟨ih.1.event hpos ih.2 hnow hlater heffect, fun e he => ?_⟩
      rcases List.mem_cons.mp he with rfl | he
      · exact hlater
      · exact (ih.2 e he).trans (hnow.trans hlater)

/-- The events of the counter that is there and those before it, in an interval that has all of
them before its end. -/
theorem Inv.countedFrom_le {clock start : ℕ} {counter : Counter} {events : List Event}
    (h : Inv limit window clock (some counter) events)
    (hend : ∀ e ∈ events, e.time < start + window) (hclear : Uncleared start events) :
    countedFrom start events ≤ 2 * limit - 1 := by
  cases h with
  | @running _ recent old e hcount hlimit hfirst hold hquiet =>
      have hbefore := hquiet start (hend e (List.mem_append_right _ List.mem_cons_self)) hclear
      have hsince := AnchoredWindow.countedFrom_le start recent
      have hfirstOne := countedFrom_cons_le start e old
      -- At most `limit` events of the counter and `limit - 1` before it.
      rw [countedFrom_append]
      omega

/-- In a half-open interval as long as the window, in which the counter is not cleared, at most
`2 * limit - 1` events are counted. -/
theorem History.count_le (hpos : 0 < limit) {clock : ℕ} {c : Option Counter}
    {events : List Event} (h : History limit window clock c events) {start : ℕ}
    (hclear : ∀ e ∈ events, start ≤ e.time → e.time < start + window → e.outcome ≠ .cleared) :
    countedIn window start events ≤ 2 * limit - 1 := by
  -- The last event in the interval has all of them before its end.
  induction h with
  | nil => exact Nat.zero_le _
  | check _ _ _ ih => exact ih hclear
  | @event now time later c c' events outcome hevents hnow hlater heffect ih =>
      have hbefore := ih fun e he => hclear e (List.mem_cons_of_mem _ he)
      by_cases hin : outcome = .counted ∧ start ≤ time ∧ time < start + window
      · obtain ⟨rfl, -, hend⟩ := hin
        have hall : History limit window later c' (⟨time, .counted⟩ :: events) :=
          .event hevents hnow hlater heffect
        have htimes := (hevents.inv hpos).2
        have hends : ∀ e ∈ (⟨time, .counted⟩ :: events : List Event),
            e.time < start + window := by
          intro e he
          rcases List.mem_cons.mp he with rfl | he
          · exact hend
          · exact ((htimes e he).trans hnow).trans_lt hend
        -- A counter is there right after an event that was counted.
        obtain ⟨counter, rfl⟩ : ∃ counter, c' = some counter := by
          cases heffect with
          | start => exact ⟨_, rfl⟩
          | more _ => exact ⟨_, rfl⟩
        exact (countedIn_le start _).trans ((hall.inv hpos).1.countedFrom_le hends
          fun e he hstart => hclear e he hstart (hends e he))
      · unfold countedIn at hbefore ⊢
        rw [List.countP_cons_of_neg (by simpa using hin)]
        exact hbefore

end AnchoredWindow

import Mathlib.Order.MinMax
import XiraNet.Middleware.AuditSink

/-!
# Audit sinks beside each other

The dispatcher with two sinks in time. Entries are dispatched at given times, each call of a sink
takes some time, and the task takes each of its steps as soon as it can, before a dispatch of the
same time.

* `TimedAudit.independent_iff`: what one sink is handed does not depend on how the other behaves
  exactly if the queue has room for what comes while both are as slow as they may be.
* `TimedAudit.independent_fails`: a slow sink, and the other one misses an entry.
-/

namespace XiraNet

/-- The dispatches of a run. -/
structure AuditSchedule where
  count : ℕ
  entry : ℕ → AuditEntry
  time : ℕ → ℕ
  monotone : Monotone time

/-- How long a call of `write` takes and what it returns, by what the sink was called with before,
the entry, and the time. -/
abbrev SinkBehaviour := List NumberedEntry → NumberedEntry → ℕ → ℕ × Except String Unit

/-- A time that a call of a sink may take, if it has this timeout or none. -/
def Allows (timeout : Option ℕ) (delay : ℕ) : Prop := ∀ t ∈ timeout, delay ≤ t

/-- A behaviour of a sink with this timeout or none. -/
def SinkBehaviour.Within (b : SinkBehaviour) (timeout : Option ℕ) : Prop :=
  ∀ before e now, Allows timeout (b before e now).1

/-- A dispatcher, and the time at which its task can take the next step. -/
structure TimedAudit where
  dispatcher : AuditDispatcher
  ready : ℕ

namespace TimedAudit

section Definitions

variable (schedule : AuditSchedule) (sinkA sinkB : SinkBehaviour)

/-- The behaviour of a sink, by its place. -/
def behaviour : ℕ → SinkBehaviour
  | 0 => sinkA
  | _ => sinkB

/-- A step of the task, if there is one to take up to the deadline. -/
def advance (deadline : Option ℕ) (s : TimedAudit) : Option TimedAudit :=
  match s.dispatcher.hand with
  | none =>
      match s.dispatcher.queue.items with
      | [] => none
      | e :: _ =>
          let start := max s.ready (schedule.time e.2)
          if deadline.all (start ≤ ·) then s.dispatcher.recv.map (⟨·, start⟩) else none
  | some (e, i) =>
      if deadline.all (s.ready ≤ ·) then
        let (delay, result) := behaviour sinkA sinkB i (s.dispatcher.written i) e s.ready
        (s.dispatcher.write e i result).map (⟨·, s.ready + delay⟩)
      else none

/-- The steps of the task up to the deadline, a number of them at most. -/
def settle (deadline : Option ℕ) : ℕ → TimedAudit → TimedAudit
  | 0, s => s
  | n + 1, s =>
      match advance schedule sinkA sinkB deadline s with
      | none => s
      | some s => settle deadline n s

/-- The steps of the task up to the deadline. -/
def settled (deadline : Option ℕ) (s : TimedAudit) : TimedAudit :=
  settle schedule sinkA sinkB deadline s.dispatcher.work s

/-- The state after a number of dispatches. -/
def after (d : AuditDispatcher) : ℕ → TimedAudit
  | 0 => ⟨d, 0⟩
  | j + 1 =>
      let s := settled schedule sinkA sinkB (some (schedule.time j)) (after d j)
      { s with dispatcher := s.dispatcher.dispatch (schedule.entry j) }

/-- What a sink is handed in the whole run. -/
def handed (d : AuditDispatcher) (i : ℕ) : List NumberedEntry :=
  (settled schedule sinkA sinkB none
    (after schedule sinkA sinkB d schedule.count)).dispatcher.written i

end Definitions

/-- Each sink is handed the same whatever the other one does, in the order of the dispatches. -/
structure Independent (schedule : AuditSchedule) (d : AuditDispatcher)
    (timeoutA timeoutB : Option ℕ) : Prop where
  sinkA : ∀ A B B' : SinkBehaviour, A.Within timeoutA → B.Within timeoutB → B'.Within timeoutB →
    handed schedule A B d 0 = handed schedule A B' d 0
  sinkB : ∀ A A' B : SinkBehaviour, A.Within timeoutA → A'.Within timeoutA → B.Within timeoutB →
    handed schedule A B d 1 = handed schedule A' B d 1
  ordered : ∀ A B : SinkBehaviour, A.Within timeoutA → B.Within timeoutB → ∀ i < 2,
    (handed schedule A B d i).Pairwise fun e e' => e.2 < e'.2

/-- When an entry is dispatched, the task has taken the one that came a queue's length before it,
however slow the sinks are. -/
def HasRoom (schedule : AuditSchedule) (capacity : ℕ) (timeoutA timeoutB : Option ℕ) : Prop :=
  ∀ delayA delayB, Allows timeoutA delayA → Allows timeoutB delayB →
    ∀ m i, m ≤ i → i + capacity < schedule.count →
      schedule.time m + (i - m) * (delayA + delayB) ≤ schedule.time (i + capacity)

variable {schedule : AuditSchedule} {sinkA sinkB : SinkBehaviour} {deadline : Option ℕ}
  {s s' : TimedAudit} {d : AuditDispatcher}

/-- A step of the task receives an entry or hands the one it has to a sink, in time. -/
theorem advance_cases (h : advance schedule sinkA sinkB deadline s = some s') :
    (∃ e rest, s.dispatcher.hand = none ∧ s.dispatcher.queue.items = e :: rest ∧
        s.dispatcher.recv = some s'.dispatcher ∧ s'.ready = max s.ready (schedule.time e.2) ∧
        ∀ t ∈ deadline, s'.ready ≤ t) ∨
      ∃ e i result, s.dispatcher.hand = some (e, i) ∧
        s.dispatcher.write e i result = some s'.dispatcher ∧
        s'.ready =
          s.ready + (behaviour sinkA sinkB i (s.dispatcher.written i) e s.ready).1 := by
  unfold advance at h
  split at h
  next hnone =>
    split at h
    next => cases h
    next e rest hitems =>
      obtain ⟨htime, h⟩ := Option.ite_none_right_eq_some.mp h
      obtain ⟨_, hrecv, rfl⟩ := Option.map_eq_some_iff.mp h
      refine .inl ⟨e, rest, hnone, hitems, hrecv, rfl, fun t ht => ?_⟩
      exact of_decide_eq_true ((Option.all_eq_true _ _).mp htime t ht)
  next e i hsome =>
    obtain ⟨-, h⟩ := Option.ite_none_right_eq_some.mp h
    obtain ⟨_, hwrite, rfl⟩ := Option.map_eq_some_iff.mp h
    exact .inr ⟨e, i, _, hsome, hwrite, rfl⟩

/-- In the dispatcher it is a step of the task. -/
theorem consumes_of_advance (h : advance schedule sinkA sinkB deadline s = some s')
    (hsinks : s.dispatcher.sinks ≠ []) : s.dispatcher.Consumes s'.dispatcher := by
  rcases advance_cases h with ⟨e, rest, hnone, -, hrecv, -⟩ | ⟨e, i, result, hhand, hwrite, -⟩
  · exact AuditDispatcher.consumes_recv hrecv hnone hsinks
  · exact AuditDispatcher.consumes_write hwrite hhand

/-- What the steps of the task keep holds after them. -/
theorem settle_induction {I : TimedAudit → Prop}
    (hstep : ∀ s s', I s → advance schedule sinkA sinkB deadline s = some s' → I s') (n : ℕ)
    (hs : I s) : I (settle schedule sinkA sinkB deadline n s) := by
  induction n generalizing s with
  | zero => exact hs
  | succ n ih =>
      rw [settle]
      split
      next => exact hs
      next s' h => exact ih (hstep s s' hs h)

/-- After the steps up to the deadline there is none left to take. -/
theorem advance_settled (hsinks : s.dispatcher.sinks ≠ []) :
    advance schedule sinkA sinkB deadline (settled schedule sinkA sinkB deadline s) = none := by
  suffices h : ∀ n s, s.dispatcher.sinks ≠ [] → s.dispatcher.work ≤ n →
      advance schedule sinkA sinkB deadline (settle schedule sinkA sinkB deadline n s) = none from
    h _ s hsinks le_rfl
  intro n
  induction n with
  | zero =>
      intro s hsinks hwork
      rw [settle]
      -- A step would leave less to do than nothing.
      refine Option.eq_none_iff_forall_ne_some.mpr fun s' h => ?_
      have hlt := (consumes_of_advance h hsinks).work
      omega
  | succ n ih =>
      intro s hsinks hwork
      rw [settle]
      split
      next h => exact h
      next s' h =>
        have hstep := consumes_of_advance h hsinks
        have hlt := hstep.work
        exact ih s' (hstep.sinks ▸ hsinks) (by omega)

/-- Where no step can be taken up to the deadline, there is nothing to do, or the next step is due
after it. -/
theorem of_advance_eq_none (hvalid : s.dispatcher.HandValid)
    (h : advance schedule sinkA sinkB deadline s = none) :
    s.dispatcher.Drained ∨ ∃ t ∈ deadline, t < s.ready ∨
      ∃ e rest, s.dispatcher.queue.items = e :: rest ∧ t < schedule.time e.2 := by
  -- What is not in time is due after the deadline.
  have hlate : ∀ {start : ℕ}, ¬deadline.all (start ≤ ·) = true → ∃ t ∈ deadline, t < start := by
    intro start hall
    rw [Option.all_eq_true] at hall
    push Not at hall
    obtain ⟨t, ht, hlt⟩ := hall
    exact ⟨t, ht, Nat.lt_of_not_le fun hle => hlt (decide_eq_true hle)⟩
  unfold advance at h
  split at h
  next hnone =>
    split at h
    next hempty => exact .inl ⟨hempty, hnone⟩
    next e rest hcons =>
      dsimp only at h
      split at h
      next =>
        rw [Option.map_eq_none_iff, AuditDispatcher.recv, Option.map_eq_none_iff,
          BoundedQueue.recv_eq_none_iff] at h
        exact .inl ⟨h, hnone⟩
      next hall =>
        obtain ⟨t, ht, hlt⟩ := hlate hall
        exact .inr ⟨t, ht, (lt_max_iff.mp hlt).imp_right fun hlt => ⟨e, rest, hcons, hlt⟩⟩
  next e i hsome =>
    split at h
    next =>
      have hi := hvalid e i hsome
      rw [Option.map_eq_none_iff, AuditDispatcher.write, Option.map_eq_none_iff,
        List.getElem?_eq_none_iff] at h
      omega
    next hall =>
      obtain ⟨t, ht, hlt⟩ := hlate hall
      exact .inr ⟨t, ht, .inl hlt⟩

/-- The steps of the task leave the pipelines alone, and dispatch nothing. -/
theorem grows_settled (schedule : AuditSchedule) (sinkA sinkB : SinkBehaviour)
    (deadline : Option ℕ) (hsinks : s.dispatcher.sinks ≠ []) :
    s.dispatcher.Grows (settled schedule sinkA sinkB deadline s).dispatcher [] ∧
      (settled schedule sinkA sinkB deadline s).dispatcher.dispatched =
        s.dispatcher.dispatched := by
  refine settle_induction (I := fun t => s.dispatcher.Grows t.dispatcher [] ∧
    t.dispatcher.dispatched = s.dispatcher.dispatched) (fun t t' ht h => ?_) _ ⟨.refl _, rfl⟩
  have hstep := consumes_of_advance h (ht.1.sinks ▸ hsinks)
  exact ⟨ht.1.trans hstep.grows, hstep.dispatched.trans ht.2⟩

/-- One more dispatch. -/
theorem after_succ (schedule : AuditSchedule) (sinkA sinkB : SinkBehaviour) (d : AuditDispatcher)
    (j : ℕ) :
    let s := settled schedule sinkA sinkB (some (schedule.time j)) (after schedule sinkA sinkB d j)
    after schedule sinkA sinkB d (j + 1) =
      { s with dispatcher := s.dispatcher.dispatch (schedule.entry j) } :=
  rfl

/-- The first entries of the schedule. -/
def numbered (schedule : AuditSchedule) (j : ℕ) : List NumberedEntry :=
  (List.range j).map fun m => (schedule.entry m, m)

/-- Those of them that come before an entry. -/
theorem filter_numbered (schedule : AuditSchedule) (j l : ℕ) :
    (numbered schedule (j + l)).filter (fun e => e.2 < j) = numbered schedule j := by
  rw [numbered, numbered, List.range_add, List.map_append, List.filter_append]
  have hlow : ((List.range j).map fun m => (schedule.entry m, m)).filter (fun e => e.2 < j) =
      (List.range j).map fun m => (schedule.entry m, m) := by
    refine List.filter_eq_self.mpr fun e he => ?_
    obtain ⟨m, hm, rfl⟩ := List.mem_map.mp he
    exact decide_eq_true (List.mem_range.mp hm)
  have hhigh : (((List.range l).map (j + ·)).map fun m => (schedule.entry m, m)).filter
      (fun e => e.2 < j) = [] := by
    refine List.filter_eq_nil_iff.mpr fun e he => ?_
    obtain ⟨m, hm, rfl⟩ := List.mem_map.mp he
    obtain ⟨n, -, rfl⟩ := List.mem_map.mp hm
    simp
  rw [hlow, hhigh, List.append_nil]

/-- No entry was dropped so far, and there are two sinks. -/
structure NoDrop (schedule : AuditSchedule) (s : TimedAudit) (j : ℕ) : Prop where
  dispatched : s.dispatcher.dispatched = j
  pipeline : ∀ i < 2, s.dispatcher.pipeline i = numbered schedule j
  sinks : s.dispatcher.sinks.length = 2
  handValid : s.dispatcher.HandValid

/-- The number of the entries that the task has taken, if none was dropped. -/
def taken (s : TimedAudit) : ℕ := s.dispatcher.dispatched - s.dispatcher.queue.items.length

/-- The steps of the task drop nothing. -/
theorem NoDrop.consumes {j : ℕ} (hs : NoDrop schedule s j)
    (h : s.dispatcher.Consumes s'.dispatcher) : NoDrop schedule s' j where
  dispatched := h.dispatched.trans hs.dispatched
  pipeline i hi := (h.pipeline i (hs.sinks ▸ hi)).trans (hs.pipeline i hi)
  sinks := h.sinks ▸ hs.sinks
  handValid := h.handValid

/-- There are sinks. -/
theorem NoDrop.sinks_ne_nil {j : ℕ} (hs : NoDrop schedule s j) : s.dispatcher.sinks ≠ [] :=
  List.ne_nil_of_length_pos (by rw [hs.sinks]; decide)

/-- What is queued are the last entries. -/
theorem NoDrop.taken_add {j : ℕ} (hs : NoDrop schedule s j) :
    s.taken + s.dispatcher.queue.items.length = j := by
  have hlength := congrArg List.length (hs.pipeline 1 (by decide))
  simp only [AuditDispatcher.pipeline, numbered, List.length_append, List.length_map,
    List.length_range] at hlength
  rw [taken, hs.dispatched]
  omega

/-- The next entry that the task takes. -/
theorem NoDrop.number {j : ℕ} (hs : NoDrop schedule s j) {e : NumberedEntry}
    {rest : List NumberedEntry} (hitems : s.dispatcher.queue.items = e :: rest) :
    e.2 = s.taken := by
  have htaken := hs.taken_add
  have hpipeline := hs.pipeline 1 (by decide)
  rw [AuditDispatcher.pipeline, hitems] at hpipeline
  rw [hitems] at htaken
  have hlength := congrArg List.length hpipeline
  simp only [numbered, List.length_append, List.length_map, List.length_range,
    List.length_cons] at hlength htaken
  -- Before it in the pipeline stands what was taken, and the numbers there have no gaps.
  have hget := congrArg (fun l => l[s.taken]?) hpipeline
  simp only [numbered, List.getElem?_map] at hget
  rw [List.getElem?_append_right (by rw [List.length_append]; omega),
    List.getElem?_range (by omega)] at hget
  have hzero : s.taken - (s.dispatcher.written 1 ++
      AuditDispatcher.toCome s.dispatcher.hand 1).length = 0 := by
    rw [List.length_append]
    omega
  rw [hzero, List.getElem?_cons_zero, Option.map_some] at hget
  exact congrArg Prod.snd (Option.some.inj hget)

/-- A step of the task with two sinks: it takes the next entry, or calls the first sink, or the
second one. -/
theorem NoDrop.advance_cases {j : ℕ} (hs : NoDrop schedule s j)
    (h : advance schedule sinkA sinkB deadline s = some s') :
    (∃ e, s.dispatcher.hand = none ∧ s'.dispatcher.hand = some (e, 0) ∧
        s'.taken = s.taken + 1 ∧ s'.ready = max s.ready (schedule.time s.taken) ∧
        ∀ t ∈ deadline, s'.ready ≤ t) ∨
      (∃ e, s.dispatcher.hand = some (e, 0) ∧ s'.dispatcher.hand = some (e, 1) ∧
        s'.taken = s.taken ∧
        s'.ready = s.ready + (sinkA (s.dispatcher.written 0) e s.ready).1) ∨
      ∃ e, s.dispatcher.hand = some (e, 1) ∧ s'.dispatcher.hand = none ∧ s'.taken = s.taken ∧
        s'.ready = s.ready + (sinkB (s.dispatcher.written 1) e s.ready).1 := by
  have htaken := hs.taken_add
  have htaken' := (hs.consumes (consumes_of_advance h hs.sinks_ne_nil)).taken_add
  rcases TimedAudit.advance_cases h with
    ⟨e, rest, hnone, hitems, hrecv, hready, htime⟩ | ⟨e, i, result, hhand, hwrite, hready⟩
  · obtain ⟨e', queue, hitems', -, hd⟩ := AuditDispatcher.recv_spec hrecv
    rw [hitems', List.length_cons] at htaken
    rw [hd] at htaken'
    rw [hs.number hitems] at hready
    exact .inl ⟨e', hnone, by rw [hd], by dsimp only at htaken'; omega, hready, htime⟩
  · obtain ⟨hi, _, hd⟩ := AuditDispatcher.write_spec hwrite
    rw [hs.sinks] at hi
    rw [hd] at htaken'
    have hsame : s'.taken = s.taken := by
      dsimp only at htaken'
      omega
    have hhand' : s'.dispatcher.hand = if i + 1 < 2 then some (e, i + 1) else none := by
      rw [hd, hs.sinks]
    obtain rfl | rfl : i = 0 ∨ i = 1 := by omega
    · exact .inr (.inl ⟨e, hhand, hhand', hsame, hready⟩)
    · exact .inr (.inr ⟨e, hhand, hhand', hsame, hready⟩)

/-- How long it takes the task to be done with the entry in hand, if the sinks take these times. -/
def remaining (delayA delayB : ℕ) : Option (NumberedEntry × ℕ) → ℕ
  | none => 0
  | some (_, 0) => delayA + delayB
  | some (_, _ + 1) => delayB

/-- With sinks that take at most some time that they may take, the task is done with what it has
taken as soon as if all entries from some one on had come without a pause. -/
def Early (schedule : AuditSchedule) (timeoutA timeoutB : Option ℕ) (s : TimedAudit) : Prop :=
  (s.taken = 0 ∧ s.dispatcher.hand = none ∧ s.ready = 0) ∨
    ∃ delayA delayB m, Allows timeoutA delayA ∧ Allows timeoutB delayB ∧ m < s.taken ∧
      s.ready + remaining delayA delayB s.dispatcher.hand ≤
        schedule.time m + (s.taken - m) * (delayA + delayB)

/-- With longer delays a number of entries takes longer by as much at least. -/
theorem mul_add_le {n : ℕ} (hn : 0 < n) {x y : ℕ} (h : x ≤ y) : n * x + (y - x) ≤ n * y := by
  obtain ⟨c, rfl⟩ := Nat.exists_eq_add_of_le h
  have hc : c ≤ n * c := Nat.le_mul_of_pos_left c hn
  rw [Nat.mul_add]
  omega

/-- A step of the task is in time. -/
theorem Early.advance {timeoutA timeoutB : Option ℕ} {j : ℕ} (hA : sinkA.Within timeoutA)
    (hB : sinkB.Within timeoutB) (hs : NoDrop schedule s j)
    (hearly : Early schedule timeoutA timeoutB s)
    (h : advance schedule sinkA sinkB deadline s = some s') :
    Early schedule timeoutA timeoutB s' := by
  rcases hs.advance_cases h with ⟨e, hhand, hhand', htaken, hready, -⟩ |
    ⟨e, hhand, hhand', htaken, hready⟩ | ⟨e, hhand, hhand', htaken, hready⟩
  · -- The task takes an entry.
    rcases hearly with ⟨hzero, -, hstart⟩ | ⟨delayA, delayB, m, hdelayA, hdelayB, hm, hle⟩
    · -- It is the first one, and the sinks take for it what they take.
      refine .inr ⟨(sinkA [] e 0).1, (sinkB [] e 0).1, 0, hA _ _ _, hB _ _ _, by omega, ?_⟩
      rw [hready, hstart, hzero, htaken, hzero, hhand', remaining]
      simp
    · rw [hhand, remaining, Nat.add_zero] at hle
      rcases le_total s.ready (schedule.time s.taken) with hwait | hbusy
      · -- The task had to wait for it, so the time without a pause begins with it.
        refine .inr ⟨delayA, delayB, s.taken, hdelayA, hdelayB, by omega, ?_⟩
        rw [hready, max_eq_right hwait, htaken, hhand', remaining, Nat.add_sub_cancel_left,
          Nat.one_mul]
      · -- It was waiting already, and the time without a pause goes on.
        refine .inr ⟨delayA, delayB, m, hdelayA, hdelayB, by omega, ?_⟩
        have hnext : s.taken + 1 - m = s.taken - m + 1 := by omega
        rw [hready, max_eq_left hbusy, htaken, hhand', remaining, hnext, Nat.succ_mul]
        omega
  · -- The first sink is called, which may take longer than for the entries before.
    rcases hearly with ⟨-, hnone, -⟩ | ⟨delayA, delayB, m, hdelayA, hdelayB, hm, hle⟩
    · rw [hnone] at hhand
      cases hhand
    · refine .inr ⟨max delayA (sinkA (s.dispatcher.written 0) e s.ready).1, delayB, m,
        fun t ht => max_le (hdelayA t ht) (hA _ _ _ t ht), hdelayB, by omega, ?_⟩
      have hmul := mul_add_le (Nat.sub_pos_of_lt hm) (Nat.add_le_add_right
        (le_max_left delayA (sinkA (s.dispatcher.written 0) e s.ready).1) delayB)
      rw [hhand, remaining] at hle
      rw [hready, htaken, hhand', remaining]
      omega
  · -- The second sink is called.
    rcases hearly with ⟨-, hnone, -⟩ | ⟨delayA, delayB, m, hdelayA, hdelayB, hm, hle⟩
    · rw [hnone] at hhand
      cases hhand
    · refine .inr ⟨delayA, max delayB (sinkB (s.dispatcher.written 1) e s.ready).1, m, hdelayA,
        fun t ht => max_le (hdelayB t ht) (hB _ _ _ t ht), by omega, ?_⟩
      have hmul := mul_add_le (Nat.sub_pos_of_lt hm) (Nat.add_le_add_left
        (le_max_left delayB (sinkB (s.dispatcher.written 1) e s.ready).1) delayA)
      rw [hhand, remaining] at hle
      rw [hready, htaken, hhand', remaining]
      omega

/-- What the steps of the task keep, as long as nothing is dropped, holds before a dispatch. -/
theorem NoDrop.settled {I : TimedAudit → Prop} {j : ℕ} (hs : NoDrop schedule s j)
    (deadline : Option ℕ) (hI : I s)
    (hstep : ∀ s s', NoDrop schedule s j → I s →
      TimedAudit.advance schedule sinkA sinkB deadline s = some s' → I s') :
    NoDrop schedule (settled schedule sinkA sinkB deadline s) j ∧
      I (settled schedule sinkA sinkB deadline s) := by
  refine settle_induction (I := fun s => NoDrop schedule s j ∧ I s) (fun s s' hs h => ?_) _ ⟨hs, hI⟩
  exact ⟨hs.1.consumes (consumes_of_advance h hs.1.sinks_ne_nil), hstep s s' hs.1 hs.2 h⟩

/-- Where something is queued and no step can be taken, the task is busy. -/
theorem NoDrop.lt_ready {j : ℕ} (hs : NoDrop schedule s j)
    (hitems : s.dispatcher.queue.items ≠ [])
    (h : TimedAudit.advance schedule sinkA sinkB (some (schedule.time j)) s = none) :
    schedule.time j < s.ready := by
  have htaken := hs.taken_add
  rcases of_advance_eq_none hs.handValid h with hdrained | ⟨_, ⟨⟩, hlt | ⟨e, rest, hcons, hlt⟩⟩
  · exact absurd hdrained.1 hitems
  · exact hlt
  · -- The entry had come before.
    rw [hs.number hcons] at hlt
    exact absurd hlt (Nat.not_lt.mpr (schedule.monotone (by omega)))

/-- With room in the schedule there is a free place for every entry. -/
theorem NoDrop.free_pos {timeoutA timeoutB : Option ℕ} {j : ℕ} (hs : NoDrop schedule s j)
    (hearly : Early schedule timeoutA timeoutB s)
    (hroom : HasRoom schedule s.dispatcher.queue.capacity timeoutA timeoutB)
    (hj : j < schedule.count) (hcapacity : 0 < s.dispatcher.queue.capacity)
    (h : TimedAudit.advance schedule sinkA sinkB (some (schedule.time j)) s = none) :
    0 < s.dispatcher.queue.free := by
  by_contra hfull
  have hlength := s.dispatcher.queue.length_le
  have htaken := hs.taken_add
  unfold BoundedQueue.free at hfull
  have hlate := hs.lt_ready (List.ne_nil_of_length_pos (by omega)) h
  -- A full queue and a busy task: the entry a queue's length before is not taken yet.
  rcases hearly with ⟨-, -, hzero⟩ | ⟨delayA, delayB, m, hdelayA, hdelayB, hm, hle⟩
  · omega
  · have hnext : s.taken + s.dispatcher.queue.capacity = j := by omega
    have hbound := hroom delayA delayB hdelayA hdelayB m s.taken hm.le (by omega)
    rw [hnext] at hbound
    omega

/-- A dispatch with a free place. -/
theorem NoDrop.dispatch {j : ℕ} (hs : NoDrop schedule s j) (hfree : 0 < s.dispatcher.queue.free)
    (hs' : s' = { s with dispatcher := s.dispatcher.dispatch (schedule.entry j) }) :
    NoDrop schedule s' (j + 1) ∧ s'.dispatcher.hand = s.dispatcher.hand ∧ s'.taken = s.taken := by
  subst hs'
  obtain ⟨hgrows, hdispatched, -, -⟩ :=
    AuditDispatcher.grows_dispatch hs.sinks_ne_nil (schedule.entry j)
  obtain ⟨queue, hdispatch, hitems, -⟩ :=
    AuditDispatcher.dispatch_of_free (schedule.entry j) hs.sinks_ne_nil hfree
  refine ⟨⟨by rw [hdispatched, hs.dispatched], fun i hi => ?_, hgrows.sinks ▸ hs.sinks,
    hgrows.handValid hs.handValid⟩, by rw [hdispatch], ?_⟩
  · rw [hgrows.pipeline i (hs.sinks ▸ hi), hs.pipeline i hi, List.take_of_length_le hfree,
      hs.dispatched, numbered, numbered, List.range_succ, List.map_append, List.map_singleton]
  · rw [taken, taken, hdispatch]
    dsimp only
    rw [hitems, List.length_append, List.length_singleton, Nat.add_sub_add_right]

variable {sinks : List AuditSink} {bufferSize : ℕ}

/-- The start of a run. -/
theorem noDrop_new (schedule : AuditSchedule)
    (hnew : AuditDispatcher.new sinks bufferSize = some d) (hsinks : sinks.length = 2) :
    NoDrop schedule ⟨d, 0⟩ 0 ∧ taken ⟨d, 0⟩ = 0 ∧ d.hand = none := by
  obtain ⟨hsame, hvalid, hdispatched, -, hempty⟩ := AuditDispatcher.new_spec hnew
  obtain ⟨-, hd⟩ := Option.ite_none_right_eq_some.mp hnew
  refine ⟨⟨hdispatched, fun i _ => hempty i, hsame ▸ hsinks, hvalid⟩, ?_, ?_⟩
  · rw [taken, hdispatched, Nat.zero_sub]
  · cases hd
    rfl

/-- With room in the schedule nothing is dropped. -/
theorem noDrop_after {timeoutA timeoutB : Option ℕ}
    (hnew : AuditDispatcher.new sinks bufferSize = some d) (hsinks : sinks.length = 2)
    (hA : sinkA.Within timeoutA) (hB : sinkB.Within timeoutB)
    (hroom : HasRoom schedule (max bufferSize 1) timeoutA timeoutB) {j : ℕ}
    (hj : j ≤ schedule.count) :
    NoDrop schedule (after schedule sinkA sinkB d j) j ∧
      Early schedule timeoutA timeoutB (after schedule sinkA sinkB d j) ∧
      (after schedule sinkA sinkB d j).dispatcher.queue.capacity = max bufferSize 1 := by
  induction j with
  | zero =>
      obtain ⟨hstart, htaken, hhand⟩ := noDrop_new schedule hnew hsinks
      obtain ⟨-, -, -, hcapacity, -⟩ := AuditDispatcher.new_spec hnew
      exact ⟨hstart, .inl ⟨htaken, hhand, rfl⟩, hcapacity⟩
  | succ j ih =>
      obtain ⟨hs, hearly, hcapacity⟩ := ih (by omega)
      obtain ⟨ht, hearly'⟩ := hs.settled (some (schedule.time j)) hearly
        fun s s' hs hearly h => Early.advance hA hB hs hearly h
      have hgrows := (grows_settled schedule sinkA sinkB (some (schedule.time j)) hs.sinks_ne_nil).1
      have hcapacity' := hgrows.capacity.trans hcapacity
      have hfree := ht.free_pos hearly' (by rw [hcapacity']; exact hroom) (by omega)
        (by rw [hcapacity']; omega) (advance_settled hs.sinks_ne_nil)
      obtain ⟨hnext, hhand, htaken⟩ := ht.dispatch hfree (after_succ schedule sinkA sinkB d j)
      refine ⟨hnext, ?_, ?_⟩
      · rw [Early, hhand, htaken]
        exact hearly'
      · exact (AuditDispatcher.grows_dispatch ht.sinks_ne_nil _).1.capacity.trans hcapacity'

/-- With sinks that always take these times, the task is not done with an entry before it would be
if all entries from any one on came without a pause, and has taken none before that time. -/
structure Late (schedule : AuditSchedule) (delayA delayB now : ℕ) (s : TimedAudit) : Prop where
  busy : ∀ m < s.taken, schedule.time m + (s.taken - m) * (delayA + delayB) ≤
    s.ready + remaining delayA delayB s.dispatcher.hand
  started : ∀ i < s.taken, ∀ m ≤ i, schedule.time m + (i - m) * (delayA + delayB) ≤ now

/-- A sink that always takes the same time. -/
def constantly (delay : ℕ) : SinkBehaviour := fun _ _ _ => (delay, .ok ())

/-- A step of the task is not early. -/
theorem Late.advance {delayA delayB now j : ℕ} (hs : NoDrop schedule s j)
    (hlate : Late schedule delayA delayB now s)
    (h : advance schedule (constantly delayA) (constantly delayB) (some now) s = some s') :
    Late schedule delayA delayB now s' := by
  rcases hs.advance_cases h with ⟨e, hhand, hhand', htaken, hready, htime⟩ |
    ⟨e, hhand, hhand', htaken, hready⟩ | ⟨e, hhand, hhand', htaken, hready⟩
  · -- The task takes an entry. It was not done with the one before any earlier.
    have hnow := htime now rfl
    have hbefore : ∀ m ≤ s.taken, schedule.time m + (s.taken - m) * (delayA + delayB) ≤
        s'.ready := by
      intro m hm
      rcases hm.lt_or_eq with hlt | rfl
      · have hle := hlate.busy m hlt
        rw [hhand, remaining, Nat.add_zero] at hle
        exact hle.trans (hready ▸ le_max_left _ _)
      · rw [Nat.sub_self, Nat.zero_mul, Nat.add_zero, hready]
        exact le_max_right _ _
    refine ⟨fun m hm => ?_, fun i hi m hm => ?_⟩
    · have hle := hbefore m (by omega)
      have hnext : s.taken + 1 - m = s.taken - m + 1 := by omega
      rw [htaken, hhand', remaining, hnext, Nat.succ_mul]
      omega
    · rcases (Nat.lt_succ_iff_lt_or_eq.mp (htaken ▸ hi)) with hlt | rfl
      · exact hlate.started i hlt m hm
      · exact (hbefore m hm).trans hnow
  · -- The call of a sink takes as long as it was expected to.
    have hbusy := hlate.busy
    rw [hhand, remaining] at hbusy
    refine ⟨fun m hm => ?_, htaken ▸ hlate.started⟩
    have hle := hbusy m (htaken ▸ hm)
    rw [htaken, hready, hhand', remaining, constantly]
    omega
  · have hbusy := hlate.busy
    rw [hhand, remaining] at hbusy
    refine ⟨fun m hm => ?_, htaken ▸ hlate.started⟩
    have hle := hbusy m (htaken ▸ hm)
    rw [htaken, hready, hhand', remaining, constantly]
    omega

/-- Where the next entry is not dropped there is a free place. -/
theorem NoDrop.free_pos_of_next {j : ℕ} (hs : NoDrop schedule s j)
    (hs' : s' = { s with dispatcher := s.dispatcher.dispatch (schedule.entry j) })
    (hnext : NoDrop schedule s' (j + 1)) : 0 < s.dispatcher.queue.free := by
  by_contra hfull
  obtain ⟨hgrows, -⟩ := AuditDispatcher.grows_dispatch hs.sinks_ne_nil (schedule.entry j)
  -- Otherwise the pipeline would have the same length after the dispatch.
  have hpipeline := hnext.pipeline 0 (by decide)
  rw [hs', hgrows.pipeline 0 (by rw [hs.sinks]; decide), hs.pipeline 0 (by decide),
    Nat.eq_zero_of_not_pos hfull, List.take_zero, List.append_nil] at hpipeline
  have hlength := congrArg List.length hpipeline
  simp only [numbered, List.length_map, List.length_range] at hlength
  omega

section Slow

variable {delayA delayB : ℕ}

/-- Before a dispatch no step has come early. -/
theorem late_settled {j : ℕ} (hs : NoDrop schedule s j)
    (hlate : Late schedule delayA delayB (schedule.time j) s) :
    NoDrop schedule (settled schedule (constantly delayA) (constantly delayB)
        (some (schedule.time j)) s) j ∧
      Late schedule delayA delayB (schedule.time j) (settled schedule (constantly delayA)
        (constantly delayB) (some (schedule.time j)) s) :=
  hs.settled _ hlate fun _ _ hs hlate h => Late.advance hs hlate h

/-- In a run without a drop no step comes early. -/
theorem late_after {j : ℕ} (hs : ∀ k ≤ j, NoDrop schedule
      (after schedule (constantly delayA) (constantly delayB) d k) k)
    (hstart : taken ⟨d, 0⟩ = 0) {now : ℕ} (hnow : ∀ i < j, schedule.time i ≤ now) :
    Late schedule delayA delayB now
      (after schedule (constantly delayA) (constantly delayB) d j) := by
  induction j generalizing now with
  | zero =>
      have hnone : ∀ m,
          ¬m < (after schedule (constantly delayA) (constantly delayB) d 0).taken := by
        intro m hm
        rw [after, hstart] at hm
        exact Nat.not_lt_zero m hm
      exact ⟨fun m hm => absurd hm (hnone m), fun i hi => absurd hi (hnone i)⟩
  | succ j ih =>
      have hlate := ih (fun k hk => hs k (by omega)) fun i hi => schedule.monotone hi.le
      obtain ⟨ht, hbusy, hstarted⟩ := late_settled (hs j (Nat.le_succ j)) hlate
      have hsucc := after_succ schedule (constantly delayA) (constantly delayB) d j
      have hfree := ht.free_pos_of_next hsucc (hs (j + 1) le_rfl)
      obtain ⟨-, hhand, htaken⟩ := ht.dispatch hfree hsucc
      refine ⟨?_, fun i hi m hm => ?_⟩
      · rw [hhand, htaken]
        exact hbusy
      · rw [htaken] at hi
        exact (hstarted i hi m hm).trans (hnow j (Nat.lt_succ_self j))

end Slow

/-- What is accepted between two points of a run. -/
theorem grows_after (schedule : AuditSchedule) (sinkA sinkB : SinkBehaviour) {j : ℕ}
    (hsinks : (after schedule sinkA sinkB d j).dispatcher.sinks ≠ []) (l : ℕ) :
    ∃ later, (after schedule sinkA sinkB d j).dispatcher.Grows
        (after schedule sinkA sinkB d (j + l)).dispatcher later ∧
      (after schedule sinkA sinkB d (j + l)).dispatcher.dispatched =
        (after schedule sinkA sinkB d j).dispatcher.dispatched + l := by
  induction l with
  | zero => exact ⟨[], .refl _, rfl⟩
  | succ l ih =>
      obtain ⟨later, hgrows, hdispatched⟩ := ih
      obtain ⟨hsettled, hsame⟩ := grows_settled schedule sinkA sinkB
        (some (schedule.time (j + l))) (hgrows.sinks ▸ hsinks)
      obtain ⟨hdispatch, hnext, -⟩ := AuditDispatcher.grows_dispatch
        (hsettled.sinks ▸ hgrows.sinks ▸ hsinks) (schedule.entry (j + l))
      refine ⟨_, hgrows.trans (hsettled.trans hdispatch), ?_⟩
      rw [← Nat.add_assoc, after_succ]
      dsimp only
      rw [hnext, hsame, hdispatched, Nat.add_assoc]

/-- The state after a number of dispatches, whatever was dropped. -/
structure Sound (s : TimedAudit) (j : ℕ) : Prop where
  sinks : s.dispatcher.sinks.length = 2
  handValid : s.dispatcher.HandValid
  dispatched : s.dispatcher.dispatched = j
  /-- The sinks get the same. -/
  same : s.dispatcher.pipeline 1 = s.dispatcher.pipeline 0
  numbers : ∀ e ∈ s.dispatcher.pipeline 0, e.2 < j
  ordered : (s.dispatcher.pipeline 0).Pairwise fun e e' => e.2 < e'.2

/-- Every state of a run is sound, and has the capacity it started with. -/
theorem sound_after (schedule : AuditSchedule) (sinkA sinkB : SinkBehaviour)
    (hnew : AuditDispatcher.new sinks bufferSize = some d) (hsinks : sinks.length = 2) (j : ℕ) :
    Sound (after schedule sinkA sinkB d j) j ∧
      (after schedule sinkA sinkB d j).dispatcher.queue.capacity = max bufferSize 1 := by
  obtain ⟨hsame, hvalid, hzero, hcapacity, hempty⟩ := AuditDispatcher.new_spec hnew
  have hlength : d.sinks.length = 2 := hsame ▸ hsinks
  have hne : (after schedule sinkA sinkB d 0).dispatcher.sinks ≠ [] :=
    List.ne_nil_of_length_pos (by rw [after, hlength]; decide)
  obtain ⟨later, hgrows, hdispatched⟩ := grows_after schedule sinkA sinkB hne j
  rw [Nat.zero_add, after] at hgrows hdispatched
  have hlater : ∀ i < 2, (after schedule sinkA sinkB d j).dispatcher.pipeline i = later := by
    intro i hi
    rw [hgrows.pipeline i (hlength ▸ hi), hempty, List.nil_append]
  rw [hzero, Nat.zero_add] at hdispatched
  refine ⟨⟨hgrows.sinks ▸ hlength, hgrows.handValid hvalid, hdispatched, ?_, ?_, ?_⟩,
    hgrows.capacity.trans hcapacity⟩
  · rw [hlater 1 (by decide), hlater 0 (by decide)]
  · rw [hlater 0 (by decide), ← hdispatched]
    exact fun e he => (hgrows.numbers e he).2
  · rw [hlater 0 (by decide)]
    exact hgrows.ordered

/-- In the end every sink was handed what was accepted. -/
theorem handed_eq (hnew : AuditDispatcher.new sinks bufferSize = some d)
    (hsinks : sinks.length = 2) {i : ℕ} (hi : i < 2) :
    handed schedule sinkA sinkB d i =
      (after schedule sinkA sinkB d schedule.count).dispatcher.pipeline 0 := by
  obtain ⟨hs, -⟩ := sound_after schedule sinkA sinkB hnew hsinks schedule.count
  have hne : (after schedule sinkA sinkB d schedule.count).dispatcher.sinks ≠ [] :=
    List.ne_nil_of_length_pos (by rw [hs.sinks]; decide)
  obtain ⟨hgrows, -⟩ := grows_settled schedule sinkA sinkB none hne
  have hdrained : (settled schedule sinkA sinkB none
      (after schedule sinkA sinkB d schedule.count)).dispatcher.Drained := by
    rcases of_advance_eq_none (hgrows.handValid hs.handValid) (advance_settled hne) with
      hdrained | ⟨_, ⟨⟩, -⟩
    exact hdrained
  rw [handed, AuditDispatcher.written_of_drained hdrained, hgrows.pipeline i (hs.sinks ▸ hi),
    List.append_nil]
  obtain rfl | rfl : i = 0 ∨ i = 1 := by omega
  · rfl
  · exact hs.same

/-- Where everything is handed to the sinks nothing is dropped. -/
theorem noDrop_of_handed (hnew : AuditDispatcher.new sinks bufferSize = some d)
    (hsinks : sinks.length = 2)
    (hall : handed schedule sinkA sinkB d 0 = numbered schedule schedule.count) {j : ℕ}
    (hj : j ≤ schedule.count) : NoDrop schedule (after schedule sinkA sinkB d j) j := by
  obtain ⟨hs, -⟩ := sound_after schedule sinkA sinkB hnew hsinks j
  have hne : (after schedule sinkA sinkB d j).dispatcher.sinks ≠ [] :=
    List.ne_nil_of_length_pos (by rw [hs.sinks]; decide)
  obtain ⟨l, hl⟩ := Nat.exists_eq_add_of_le hj
  obtain ⟨later, hgrows, -⟩ := grows_after schedule sinkA sinkB hne l
  rw [handed_eq hnew hsinks (by decide), hl, hgrows.pipeline 0 (by rw [hs.sinks]; decide)] at hall
  -- The entries before the dispatch are those with the low numbers.
  have hfirst : (after schedule sinkA sinkB d j).dispatcher.pipeline 0 = numbered schedule j := by
    have hfilter := congrArg (List.filter fun e => e.2 < j) hall
    have hlow : ((after schedule sinkA sinkB d j).dispatcher.pipeline 0).filter (fun e => e.2 < j) =
        (after schedule sinkA sinkB d j).dispatcher.pipeline 0 :=
      List.filter_eq_self.mpr fun e he => decide_eq_true (hs.numbers e he)
    have hhigh : later.filter (fun e => e.2 < j) = [] := by
      refine List.filter_eq_nil_iff.mpr fun e he => ?_
      have hle := (hgrows.numbers e he).1
      rw [hs.dispatched] at hle
      simpa using hle
    rwa [List.filter_append, hlow, hhigh, List.append_nil, filter_numbered] at hfilter
  refine ⟨hs.dispatched, fun i hi => ?_, hs.sinks, hs.handValid⟩
  obtain rfl | rfl : i = 0 ∨ i = 1 := by omega
  · exact hfirst
  · exact hs.same.trans hfirst

/-- A schedule whose entries are all handed to sinks that take these times has room for them. -/
theorem time_le_of_handed {delayA delayB : ℕ}
    (hnew : AuditDispatcher.new sinks bufferSize = some d) (hsinks : sinks.length = 2)
    (hall : handed schedule (constantly delayA) (constantly delayB) d 0 =
      numbered schedule schedule.count) {m i : ℕ} (hm : m ≤ i)
    (hi : i + max bufferSize 1 < schedule.count) :
    schedule.time m + (i - m) * (delayA + delayB) ≤ schedule.time (i + max bufferSize 1) := by
  have hs : ∀ j ≤ schedule.count,
      NoDrop schedule (after schedule (constantly delayA) (constantly delayB) d j) j :=
    fun j hj => noDrop_of_handed hnew hsinks hall hj
  obtain ⟨-, hstart, -⟩ := noDrop_new schedule hnew hsinks
  have hlate := late_after (j := i + max bufferSize 1) (fun k hk => hs k (hk.trans hi.le)) hstart
    fun k hk => schedule.monotone hk.le
  obtain ⟨ht, -, hstarted⟩ := late_settled (hs _ hi.le) hlate
  have hfree := ht.free_pos_of_next (after_succ schedule _ _ d _) (hs _ hi)
  have htaken := ht.taken_add
  obtain ⟨hsound, hcapacity⟩ := sound_after schedule (constantly delayA) (constantly delayB) hnew
    hsinks (i + max bufferSize 1)
  obtain ⟨hgrows, -⟩ := grows_settled schedule (constantly delayA) (constantly delayB)
    (some (schedule.time (i + max bufferSize 1))) (hs _ hi.le).sinks_ne_nil
  -- The entry was taken, since the queue is not full.
  unfold BoundedQueue.free at hfree
  rw [hgrows.capacity, hcapacity] at hfree
  exact hstarted i (by omega) m hm

/-- With room in the schedule everything is handed to the sinks. -/
theorem handed_of_hasRoom {timeoutA timeoutB : Option ℕ}
    (hnew : AuditDispatcher.new sinks bufferSize = some d) (hsinks : sinks.length = 2)
    (hA : sinkA.Within timeoutA) (hB : sinkB.Within timeoutB)
    (hroom : HasRoom schedule (max bufferSize 1) timeoutA timeoutB) {i : ℕ} (hi : i < 2) :
    handed schedule sinkA sinkB d i = numbered schedule schedule.count := by
  obtain ⟨hs, -⟩ := noDrop_after hnew hsinks hA hB hroom le_rfl
  rw [handed_eq hnew hsinks hi, hs.pipeline 0 (by decide)]

/-- Sinks that answer at once leave room for every schedule. -/
theorem hasRoom_zero (schedule : AuditSchedule) (capacity : ℕ) :
    HasRoom schedule capacity (some 0) (some 0) := by
  intro delayA delayB hA hB m i hm _
  have hzero : delayA + delayB = 0 := by
    have hleA := hA 0 rfl
    have hleB := hB 0 rfl
    omega
  rw [hzero, Nat.mul_zero, Nat.add_zero]
  exact schedule.monotone (by omega)

/-- A sink that always takes a time that it may take. -/
theorem within_constantly {timeout : Option ℕ} {delay : ℕ} (h : Allows timeout delay) :
    (constantly delay).Within timeout :=
  fun _ _ _ => h

/-- Every sink may answer at once. -/
theorem within_zero (timeout : Option ℕ) : (constantly 0).Within timeout :=
  within_constantly fun _ _ => Nat.zero_le _

/-- Where the sinks are independent there is room: they get everything while both answer at once,
so they get everything while both are slow. -/
theorem hasRoom_of_independent {timeoutA timeoutB : Option ℕ}
    (hnew : AuditDispatcher.new sinks bufferSize = some d) (hsinks : sinks.length = 2)
    (h : Independent schedule d timeoutA timeoutB) :
    HasRoom schedule (max bufferSize 1) timeoutA timeoutB := by
  intro delayA delayB hdelayA hdelayB m i hm hi
  have hA := within_constantly hdelayA
  have hB := within_constantly hdelayB
  refine time_le_of_handed hnew hsinks ?_ hm hi
  calc handed schedule (constantly delayA) (constantly delayB) d 0
      = handed schedule (constantly delayA) (constantly 0) d 0 :=
        h.sinkA _ _ _ hA hB (within_zero _)
    _ = handed schedule (constantly delayA) (constantly 0) d 1 := by
        rw [handed_eq hnew hsinks (by decide), handed_eq hnew hsinks (by decide)]
    _ = handed schedule (constantly 0) (constantly 0) d 1 :=
        h.sinkB _ _ _ hA (within_zero _) (within_zero _)
    _ = numbered schedule schedule.count :=
        handed_of_hasRoom hnew hsinks (within_zero _) (within_zero _) (hasRoom_zero _ _)
          (by decide)

/-- The sinks are independent of each other exactly if the queue has room for what comes while both
take as long as they may. -/
theorem independent_iff {timeoutA timeoutB : Option ℕ}
    (hnew : AuditDispatcher.new sinks bufferSize = some d) (hsinks : sinks.length = 2) :
    Independent schedule d timeoutA timeoutB ↔
      HasRoom schedule (max bufferSize 1) timeoutA timeoutB := by
  refine ⟨hasRoom_of_independent hnew hsinks, fun hroom => ⟨?_, ?_, ?_⟩⟩
  · intro A B B' hA hB hB'
    rw [handed_of_hasRoom hnew hsinks hA hB hroom (by decide),
      handed_of_hasRoom hnew hsinks hA hB' hroom (by decide)]
  · intro A A' B hA hA' hB
    rw [handed_of_hasRoom hnew hsinks hA hB hroom (by decide),
      handed_of_hasRoom hnew hsinks hA' hB hroom (by decide)]
  · intro A B _ _ i hi
    rw [handed_eq hnew hsinks hi]
    exact (sound_after schedule A B hnew hsinks schedule.count).1.ordered

/-- A file, and a log server. -/
def sampleSinks : List AuditSink :=
  [.file "/var/log/xira/audit.jsonl", .http "https://siem.example.com/ingest" []]

/-- Three requests, with a pause after each. -/
def pausingSchedule (pause : ℕ) : AuditSchedule where
  count := 3
  entry _ := AuditDispatcher.sampleEntry "/a"
  time m := pause * m
  monotone _ _ h := Nat.mul_le_mul_left pause h

/-- With a pause as long as both sinks may take, a queue of one is enough. -/
theorem independent_pausingSchedule :
    ∃ d, AuditDispatcher.new sampleSinks 1 = some d ∧
      Independent (pausingSchedule 5010) d (some 10) (some 5000) := by
  obtain ⟨d, hnew⟩ : ∃ d, AuditDispatcher.new sampleSinks 1 = some d := ⟨_, rfl⟩
  refine ⟨d, hnew, (independent_iff hnew rfl).mpr ?_⟩
  intro delayA delayB hA hB m i hm _
  have hleA := hA 10 rfl
  have hleB := hB 5000 rfl
  have hdelay : (i - m) * (delayA + delayB) ≤ (i - m) * 5010 := Nat.mul_le_mul_left _ (by omega)
  simp only [pausingSchedule]
  omega

/-- While the log server takes its five seconds for the first of three requests, the second one
waits in the queue of one, and the third one gets lost for the file too. -/
theorem independent_fails :
    ¬∀ (schedule : AuditSchedule) (sinks : List AuditSink) (bufferSize : ℕ) (d : AuditDispatcher)
      (timeoutA timeoutB : Option ℕ), AuditDispatcher.new sinks bufferSize = some d →
        sinks.length = 2 → 1 ≤ bufferSize → Independent schedule d timeoutA timeoutB := by
  intro hall
  obtain ⟨d, hnew⟩ : ∃ d, AuditDispatcher.new sampleSinks 1 = some d := ⟨_, rfl⟩
  have hindependent := hall (pausingSchedule 1) sampleSinks 1 d none (some 5000) hnew rfl le_rfl
  have hroom := hasRoom_of_independent hnew rfl hindependent
  have hfile : Allows none 0 := by
    rintro _ ⟨⟩
  have hserver : Allows (some 5000) 5000 := by
    rintro _ ⟨⟩
    exact le_rfl
  have hle := hroom 0 5000 hfile hserver 0 1 (by decide) (by decide)
  exact absurd hle (by decide)

end TimedAudit

end XiraNet

import XiraNet.Gateway.Accounting
import XiraNet.Gateway.RequestQueue
import XiraNet.Lib.BoundedQueue
import XiraNet.Lib.Runs

/-!
# Audit sinks

The dispatcher of `middleware/audit_sink.rs`: a bounded queue of audit entries, and a task that
takes one after the other and hands each to all sinks. Every entry carries the number of its
dispatch.

* `AuditDispatcher.pipeline`: what a sink was handed, what it is going to be handed of the entry in
  hand, and what is queued. Only a dispatch changes it, at its end.
* `AuditDispatcher.keepsNewest_iff`: the newest entries of a burst are delivered exactly if all of
  them fit into the queue.
* `AuditDispatcher.keepsNewest_fails`: a burst of two into a queue of one.
-/

namespace XiraNet

/-- `FileSink` and `HttpSink`. -/
inductive AuditSink
  | file (path : String)
  | http (url : String) (extraHeaders : List (String × String))
  deriving DecidableEq, Repr

/-- `AuditSink::name`. -/
def AuditSink.name : AuditSink → String
  | .file _ => "file"
  | .http .. => "http"

/-- An entry with the number of its dispatch. -/
abbrev NumberedEntry := AuditEntry × ℕ

/-- `AuditDispatcher` with its task. -/
structure AuditDispatcher where
  sinks : List AuditSink
  queue : BoundedQueue NumberedEntry
  /-- The entry that the task has taken, and which sink is next. -/
  hand : Option (NumberedEntry × ℕ)
  /-- What `write` of each sink was called with. -/
  written : ℕ → List NumberedEntry
  /-- `DB_PERSIST_ERRORS`, by label. -/
  persistErrors : String → ℕ
  dispatched : ℕ

/-- A call of `dispatch`, or the next step of the task, with what the sink returns if one is called
in it. -/
inductive AuditAction
  | dispatch (entry : AuditEntry)
  | consume (result : Except String Unit)

namespace AuditDispatcher

/-- The label of dropped entries. -/
def bufferFull : String := "audit_sink_buffer_full"

/-- `AuditDispatcher::new`, without a value where the channel panics. -/
def new (sinks : List AuditSink) (bufferSize : ℕ) : Option AuditDispatcher :=
  if max bufferSize 1 ≤ maxPermits then
    some ⟨sinks, .empty (max bufferSize 1), none, fun _ => [], fun _ => 0, 0⟩
  else none

/-- Count an error. -/
def countError (d : AuditDispatcher) (label : String) : String → ℕ :=
  Function.update d.persistErrors label (wrappingAdd (d.persistErrors label) 1)

/-- `dispatch`. -/
def dispatch (d : AuditDispatcher) (entry : AuditEntry) : AuditDispatcher :=
  -- Without sinks nobody receives, and the channel is closed.
  if d.sinks = [] then { d with dispatched := d.dispatched + 1 }
  else
    match d.queue.trySend (entry, d.dispatched) with
    | some queue => { d with queue, dispatched := d.dispatched + 1 }
    | none =>
        { d with persistErrors := d.countError bufferFull, dispatched := d.dispatched + 1 }

/-- The task receives an entry. -/
def recv (d : AuditDispatcher) : Option AuditDispatcher :=
  d.queue.recv.map fun (e, queue) => { d with queue, hand := some (e, 0) }

/-- The task has handed an entry to a sink, which has returned. -/
def write (d : AuditDispatcher) (e : NumberedEntry) (i : ℕ) (result : Except String Unit) :
    Option AuditDispatcher :=
  d.sinks[i]?.map fun sink =>
    { d with
      hand := if i + 1 < d.sinks.length then some (e, i + 1) else none
      written := Function.update d.written i (d.written i ++ [e])
      persistErrors :=
        match result with
        | .ok () => d.persistErrors
        | .error _ => d.countError ("audit_sink_" ++ sink.name) }

/-- The next step of the task, if there is something to do. -/
def consume (d : AuditDispatcher) (result : Except String Unit) : Option AuditDispatcher :=
  match d.hand with
  | none => d.recv
  | some (e, i) => d.write e i result

/-- One step. -/
def step (d : AuditDispatcher) : AuditAction → Option AuditDispatcher
  | .dispatch entry => some (d.dispatch entry)
  | .consume result => d.consume result

/-- The dispatcher and its task. -/
def machine : Machine AuditDispatcher AuditAction := ⟨step⟩

/-- A burst: dispatches one after the other, while the task does nothing. -/
def dispatchAll (d : AuditDispatcher) (burst : List AuditEntry) : AuditDispatcher :=
  burst.foldl dispatch d

/-- There is nothing left to do for the task. -/
def Drained (d : AuditDispatcher) : Prop := d.queue.items = [] ∧ d.hand = none

/-- The part of what a sink was handed that was dispatched from `start` on and before `stop`. -/
def delivered (d : AuditDispatcher) (i start stop : ℕ) : List NumberedEntry :=
  (d.written i).filter fun e => start ≤ e.2 ∧ e.2 < stop

/-- The last entries of a burst, as many as the queue is large. -/
def newest (d : AuditDispatcher) (burst : List AuditEntry) : List NumberedEntry :=
  (burst.zipIdx d.dispatched).drop (burst.length - min burst.length d.queue.capacity)

/-- After a burst the task comes to an end, and whenever it does, every sink was handed the newest
entries of the burst, every one at most once and in order, and the others are counted. -/
def KeepsNewest (d : AuditDispatcher) (burst : List AuditEntry) : Prop :=
  (∃ as t, machine.Runs Machine.unrestricted (d.dispatchAll burst) as t ∧ t.Drained) ∧
    ∀ as t, machine.Runs Machine.unrestricted (d.dispatchAll burst) as t → t.Drained →
      ∀ i < d.sinks.length,
        let delivered := t.delivered i d.dispatched (d.dispatched + burst.length)
        delivered.Pairwise (fun e e' => e.2 < e'.2) ∧ d.newest burst ⊆ delivered ∧
          (d.dispatchAll burst).persistErrors bufferFull + delivered.length =
            d.persistErrors bufferFull + burst.length

/-- The entry in hand, if the sink is still to get it. -/
def toCome (hand : Option (NumberedEntry × ℕ)) (i : ℕ) : List NumberedEntry :=
  match hand with
  | some (e, next) => if next ≤ i then [e] else []
  | none => []

/-- All that a sink was handed, or will be, of what was accepted so far. -/
def pipeline (d : AuditDispatcher) (i : ℕ) : List NumberedEntry :=
  d.written i ++ toCome d.hand i ++ d.queue.items

/-- How many steps are left for the task. -/
def work (d : AuditDispatcher) : ℕ :=
  (d.sinks.length + 1) * d.queue.items.length +
    match d.hand with
    | some (_, next) => d.sinks.length - next
    | none => 0

/-- The entry in hand is for a sink that there is. -/
def HandValid (d : AuditDispatcher) : Prop := ∀ e i, d.hand = some (e, i) → i < d.sinks.length

variable {d d' : AuditDispatcher} {entry : AuditEntry} {result : Except String Unit} {i : ℕ}

/-- The entry is accepted if there is a free place. -/
theorem dispatch_of_free (entry : AuditEntry) (hsinks : d.sinks ≠ []) (h : 0 < d.queue.free) :
    ∃ queue : BoundedQueue NumberedEntry,
      d.dispatch entry = { d with queue, dispatched := d.dispatched + 1 } ∧
        queue.items = d.queue.items ++ [(entry, d.dispatched)] ∧
          queue.capacity = d.queue.capacity := by
  obtain ⟨queue, hsend, hitems⟩ := BoundedQueue.trySend_of_free h (entry, d.dispatched)
  refine ⟨queue, ?_, hitems⟩
  rw [dispatch, if_neg hsinks, hsend]

/-- The entry is dropped if there is none. -/
theorem dispatch_of_full (hsinks : d.sinks ≠ []) (h : d.queue.free = 0) :
    d.dispatch entry =
      { d with persistErrors := d.countError bufferFull, dispatched := d.dispatched + 1 } := by
  rw [dispatch, if_neg hsinks, BoundedQueue.trySend_of_full h]

/-- What the task receives goes on to all sinks. -/
theorem recv_spec (h : d.recv = some d') :
    ∃ e queue, d.queue.items = e :: queue.items ∧ queue.capacity = d.queue.capacity ∧
      d' = { d with queue, hand := some (e, 0) } := by
  obtain ⟨⟨e, queue⟩, hrecv, rfl⟩ := Option.map_eq_some_iff.mp h
  obtain ⟨hitems, hcapacity⟩ := BoundedQueue.items_of_recv hrecv
  exact ⟨e, queue, hitems, hcapacity, rfl⟩

/-- What the task does with the entry in hand. -/
theorem write_spec {e : NumberedEntry} (h : d.write e i result = some d') :
    i < d.sinks.length ∧ ∃ persistErrors,
      d' = { d with
        hand := if i + 1 < d.sinks.length then some (e, i + 1) else none
        written := Function.update d.written i (d.written i ++ [e])
        persistErrors } := by
  obtain ⟨sink, hsink, rfl⟩ := Option.map_eq_some_iff.mp h
  exact ⟨(List.getElem?_eq_some_iff.mp hsink).1, _, rfl⟩

/-- What is to come for a sink after the next one was called, with what that one got. -/
theorem toCome_next (e : NumberedEntry) {next n : ℕ} (hi : i < n) :
    (if i = next then [e] else []) ++
        toCome (if next + 1 < n then some (e, next + 1) else none) i =
      toCome (some (e, next)) i := by
  unfold toCome
  split_ifs <;> grind

/-- What a step of the task keeps. -/
structure Consumes (d d' : AuditDispatcher) : Prop where
  /-- The pipelines are left alone. -/
  pipeline : ∀ i < d.sinks.length, d'.pipeline i = d.pipeline i
  /-- There is less to do. -/
  work : d'.work < d.work
  handValid : d'.HandValid
  sinks : d'.sinks = d.sinks
  dispatched : d'.dispatched = d.dispatched
  capacity : d'.queue.capacity = d.queue.capacity

/-- Receiving an entry. -/
theorem consumes_recv (h : d.recv = some d') (hnone : d.hand = none) (hsinks : d.sinks ≠ []) :
    Consumes d d' := by
  obtain ⟨e, queue, hitems, hcapacity, rfl⟩ := recv_spec h
  have hpos : 0 < d.sinks.length := List.length_pos_of_ne_nil hsinks
  refine ⟨fun i _ => ?_, ?_, ?_, rfl, rfl, hcapacity⟩
  · simp only [pipeline, toCome, hnone, hitems, Nat.zero_le, if_true, List.append_nil,
      List.append_assoc, List.singleton_append]
  · -- An entry in the queue is one step more than one in hand.
    simp only [work, hnone, hitems, List.length_cons]
    have hmul : (d.sinks.length + 1) * (queue.items.length + 1) =
        (d.sinks.length + 1) * queue.items.length + (d.sinks.length + 1) := Nat.mul_succ _ _
    omega
  · rintro _ _ ⟨⟩
    exact hpos

/-- Handing the entry to a sink. -/
theorem consumes_write {e : NumberedEntry} {next : ℕ} (h : d.write e next result = some d')
    (hhand : d.hand = some (e, next)) : Consumes d d' := by
  obtain ⟨hnext, _, rfl⟩ := write_spec h
  refine ⟨fun i hi => ?_, ?_, ?_, rfl, rfl, rfl⟩
  · have hwritten : Function.update d.written next (d.written next ++ [e]) i =
        d.written i ++ if i = next then [e] else [] := by
      split
      next heq => rw [heq, Function.update_self]
      next hne => rw [Function.update_of_ne hne, List.append_nil]
    simp only [pipeline, hwritten, hhand, List.append_assoc]
    rw [← List.append_assoc _ _ d.queue.items, toCome_next e hi]
  · simp only [work, hhand]
    split_ifs with hlast
    · dsimp only
      omega
    · dsimp only
      omega
  · intro e' i' heq
    obtain ⟨hlast, heq⟩ := Option.ite_none_right_eq_some.mp heq
    cases heq
    exact hlast

/-- A step of the task. -/
theorem consumes_of_consume (h : d.consume result = some d') (hsinks : d.sinks ≠ []) :
    Consumes d d' := by
  unfold consume at h
  split at h
  next hnone => exact consumes_recv h hnone hsinks
  next e i hhand => exact consumes_write h hhand

/-- The task goes on until there is nothing left to do. -/
theorem consume_eq_none_iff (hhand : d.HandValid) : d.consume result = none ↔ d.Drained := by
  unfold consume Drained
  split
  next hnone =>
    rw [and_iff_left hnone, recv, Option.map_eq_none_iff, BoundedQueue.recv_eq_none_iff]
  next e i hsome =>
    refine iff_of_false (fun h => ?_) fun h => ?_
    · rw [write, Option.map_eq_none_iff, List.getElem?_eq_none_iff] at h
      exact absurd (hhand e i hsome) (Nat.not_lt.mpr h)
    · rw [hsome] at h
      cases h.2

/-- The task comes to an end. -/
theorem exists_drained (hsinks : d.sinks ≠ []) (hhand : d.HandValid) :
    ∃ as t, machine.Runs Machine.unrestricted d as t ∧ t.Drained := by
  induction hwork : d.work using Nat.strong_induction_on generalizing d with
  | _ n ih =>
      cases hconsume : d.consume (.ok ()) with
      | none => exact ⟨[], d, .nil d, (consume_eq_none_iff hhand).mp hconsume⟩
      | some d' =>
          have hstep := consumes_of_consume hconsume hsinks
          obtain ⟨as, t, hrun, hdrained⟩ := ih d'.work (hwork ▸ hstep.work)
            (hstep.sinks ▸ hsinks) hstep.handValid rfl
          exact ⟨.consume (.ok ()) :: as, t, .cons trivial hconsume hrun, hdrained⟩

/-- What happens to the pipelines: `later` is accepted behind what is there. -/
structure Grows (d d' : AuditDispatcher) (later : List NumberedEntry) : Prop where
  pipeline : ∀ i < d.sinks.length, d'.pipeline i = d.pipeline i ++ later
  numbers : ∀ e ∈ later, d.dispatched ≤ e.2 ∧ e.2 < d'.dispatched
  ordered : later.Pairwise fun e e' => e.2 < e'.2
  sinks : d'.sinks = d.sinks
  capacity : d'.queue.capacity = d.queue.capacity
  dispatched : d.dispatched ≤ d'.dispatched
  handValid : d.HandValid → d'.HandValid

/-- One after the other. -/
theorem Grows.trans {d'' : AuditDispatcher} {later later' : List NumberedEntry}
    (h : Grows d d' later) (h' : Grows d' d'' later') : Grows d d'' (later ++ later') where
  pipeline i hi := by
    rw [h'.pipeline i (h.sinks ▸ hi), h.pipeline i hi, List.append_assoc]
  numbers e he := by
    rcases List.mem_append.mp he with he | he
    · exact (h.numbers e he).imp_right fun hlt => hlt.trans_le h'.dispatched
    · exact (h'.numbers e he).imp_left h.dispatched.trans
  ordered := by
    refine List.pairwise_append.mpr ⟨h.ordered, h'.ordered, fun e he e' he' => ?_⟩
    exact (h.numbers e he).2.trans_le (h'.numbers e' he').1
  sinks := h'.sinks.trans h.sinks
  capacity := h'.capacity.trans h.capacity
  dispatched := h.dispatched.trans h'.dispatched
  handValid hd := h'.handValid (h.handValid hd)

/-- Where nothing happens. -/
theorem Grows.refl (d : AuditDispatcher) : Grows d d [] where
  pipeline _ _ := (List.append_nil _).symm
  numbers := by simp
  ordered := .nil
  sinks := rfl
  capacity := rfl
  dispatched := le_rfl
  handValid := id

/-- A step of the task. -/
theorem Consumes.grows (h : Consumes d d') : Grows d d' [] where
  pipeline i hi := (h.pipeline i hi).trans (List.append_nil _).symm
  numbers := by simp
  ordered := .nil
  sinks := h.sinks
  capacity := h.capacity
  dispatched := h.dispatched.ge
  handValid _ := h.handValid

/-- A dispatch: the entry is accepted if there is a free place. -/
theorem grows_dispatch (hsinks : d.sinks ≠ []) (entry : AuditEntry) :
    Grows d (d.dispatch entry) ([(entry, d.dispatched)].take d.queue.free) ∧
      (d.dispatch entry).dispatched = d.dispatched + 1 ∧
      (d.dispatch entry).queue.free = d.queue.free - 1 ∧
      (0 < d.queue.free → (d.dispatch entry).persistErrors = d.persistErrors) := by
  rcases Nat.eq_zero_or_pos d.queue.free with hfull | hfree
  · rw [dispatch_of_full hsinks hfull, hfull]
    exact ⟨⟨fun i _ => (List.append_nil _).symm, by simp, .nil, rfl, rfl, Nat.le_succ _, id⟩, rfl,
      rfl, fun h => absurd h (lt_irrefl 0)⟩
  · obtain ⟨queue, hdispatch, hitems, hcapacity⟩ := dispatch_of_free entry hsinks hfree
    have htake : [(entry, d.dispatched)].take d.queue.free = [(entry, d.dispatched)] :=
      List.take_of_length_le hfree
    rw [hdispatch, htake]
    refine ⟨⟨fun i _ => ?_, ?_, List.pairwise_singleton _ _, rfl, hcapacity, Nat.le_succ _, id⟩,
      rfl, ?_, fun _ => rfl⟩
    · simp only [pipeline, hitems, List.append_assoc]
    · intro e he
      rw [List.mem_singleton.mp he]
      exact ⟨le_rfl, Nat.lt_succ_self _⟩
    · simp only [BoundedQueue.free, hitems, hcapacity, List.length_append, List.length_singleton]
      omega

/-- A burst: as many entries are accepted as there are free places. -/
theorem grows_dispatchAll (hsinks : d.sinks ≠ []) (burst : List AuditEntry) :
    Grows d (d.dispatchAll burst) ((burst.zipIdx d.dispatched).take d.queue.free) ∧
      (d.dispatchAll burst).dispatched = d.dispatched + burst.length ∧
      (burst.length ≤ d.queue.free → (d.dispatchAll burst).persistErrors = d.persistErrors) := by
  induction burst generalizing d with
  | nil => exact ⟨by rw [List.zipIdx_nil, List.take_nil]; exact .refl d, rfl, fun _ => rfl⟩
  | cons entry burst ih =>
      obtain ⟨hgrows, hdispatched, hfree, herrors⟩ := grows_dispatch hsinks entry
      obtain ⟨hrest, hdispatched', herrors'⟩ := ih (d := d.dispatch entry) (hgrows.sinks ▸ hsinks)
      have hall : d.dispatchAll (entry :: burst) = (d.dispatch entry).dispatchAll burst := rfl
      rw [hdispatched, hfree] at hrest
      rw [hall, List.zipIdx_cons]
      refine ⟨?_, ?_, fun hle => ?_⟩
      · have htake : ((entry, d.dispatched) :: burst.zipIdx (d.dispatched + 1)).take d.queue.free =
            [(entry, d.dispatched)].take d.queue.free ++
              (burst.zipIdx (d.dispatched + 1)).take (d.queue.free - 1) := by
          cases d.queue.free with
          | zero => rfl
          | succ n =>
              rw [List.take_succ_cons, List.take_succ_cons, List.take_nil, Nat.add_sub_cancel]
              rfl
        rw [htake]
        exact hgrows.trans hrest
      · rw [hdispatched', hdispatched, List.length_cons]
        omega
      · rw [List.length_cons] at hle
        rw [herrors' (by omega), herrors (by omega)]

/-- A step. -/
theorem grows_step (hsinks : d.sinks ≠ []) {a : AuditAction} (h : d.step a = some d') :
    ∃ later, Grows d d' later := by
  cases a with
  | dispatch entry =>
      cases h
      exact ⟨_, (grows_dispatch hsinks entry).1⟩
  | consume result => exact ⟨[], (consumes_of_consume h hsinks).grows⟩

/-- A run. -/
theorem grows_of_runs (hsinks : d.sinks ≠ []) {as : List AuditAction}
    (hrun : machine.Runs Machine.unrestricted d as d') : ∃ later, Grows d d' later := by
  refine hrun.invariant (I := fun t => ∃ later, Grows d t later) ?_ ⟨[], .refl d⟩
  rintro s a t ⟨later, hs⟩ - h
  obtain ⟨later', ht⟩ := grows_step (hs.sinks ▸ hsinks) h
  exact ⟨later ++ later', hs.trans ht⟩

/-- A new dispatcher. -/
theorem new_spec {sinks : List AuditSink} {bufferSize : ℕ} (h : new sinks bufferSize = some d) :
    d.sinks = sinks ∧ d.HandValid ∧ d.dispatched = 0 ∧ d.queue.capacity = max bufferSize 1 ∧
      ∀ i, d.pipeline i = [] := by
  obtain ⟨-, hd⟩ := Option.ite_none_right_eq_some.mp h
  cases hd
  exact ⟨rfl, by rintro _ _ ⟨⟩, rfl, rfl, fun _ => rfl⟩

/-- What a sink was handed when there is nothing left to do. -/
theorem written_of_drained (h : d.Drained) (i : ℕ) : d.written i = d.pipeline i := by
  rw [pipeline, h.1, h.2, toCome, List.append_nil, List.append_nil]

/-- What the sinks get of a burst in the end: as many of its first entries as there are free
places. -/
theorem delivered_of_drained {sinks : List AuditSink} {bufferSize : ℕ} {d₀ t : AuditDispatcher}
    (hnew : new sinks bufferSize = some d₀) (hsinks : sinks ≠ []) {as as' : List AuditAction}
    (hrun : machine.Runs Machine.unrestricted d₀ as d) (burst : List AuditEntry)
    (hrun' : machine.Runs Machine.unrestricted (d.dispatchAll burst) as' t) (ht : t.Drained)
    (hi : i < d.sinks.length) :
    t.delivered i d.dispatched (d.dispatched + burst.length) =
      (burst.zipIdx d.dispatched).take d.queue.free := by
  obtain ⟨hnewSinks, -, -, -, hempty⟩ := new_spec hnew
  subst hnewSinks
  obtain ⟨before, hbefore⟩ := grows_of_runs hsinks hrun
  have hd : d.sinks ≠ [] := hbefore.sinks ▸ hsinks
  obtain ⟨hburst, hdispatched, -⟩ := grows_dispatchAll hd burst
  obtain ⟨later, hlater⟩ := grows_of_runs (hburst.sinks ▸ hd) hrun'
  rw [delivered, written_of_drained ht, hlater.pipeline i (hburst.sinks ▸ hi),
    hburst.pipeline i hi, hbefore.pipeline i (hbefore.sinks ▸ hi), hempty, List.nil_append,
    List.filter_append, List.filter_append]
  -- What was accepted before and after the burst has other numbers.
  have hnone : before.filter (fun e => d.dispatched ≤ e.2 ∧
      e.2 < d.dispatched + burst.length) = [] := by
    refine List.filter_eq_nil_iff.mpr fun e he => ?_
    have hlt := (hbefore.numbers e he).2
    simp only [decide_eq_true_eq]
    omega
  have hall : ((burst.zipIdx d.dispatched).take d.queue.free).filter (fun e =>
      d.dispatched ≤ e.2 ∧ e.2 < d.dispatched + burst.length) =
        (burst.zipIdx d.dispatched).take d.queue.free := by
    refine List.filter_eq_self.mpr fun e he => ?_
    have hnumber := hburst.numbers e he
    rw [hdispatched] at hnumber
    exact decide_eq_true hnumber
  have hnone' : later.filter (fun e => d.dispatched ≤ e.2 ∧
      e.2 < d.dispatched + burst.length) = [] := by
    refine List.filter_eq_nil_iff.mpr fun e he => ?_
    have hle := (hlater.numbers e he).1
    simp only [decide_eq_true_eq]
    omega
  rw [hnone, hall, hnone', List.nil_append, List.append_nil]

/-- The entries that are accepted have low numbers. -/
theorem number_lt_of_mem_take {burst : List AuditEntry} {start n : ℕ} {e : NumberedEntry}
    (h : e ∈ (burst.zipIdx start).take n) : e.2 < start + n := by
  obtain ⟨j, hj, rfl⟩ := List.mem_take_iff_getElem.mp h
  rw [List.getElem_zipIdx]
  dsimp only
  omega

/-- The last entry of a burst is one of the newest. -/
theorem exists_mem_newest (d : AuditDispatcher) {burst : List AuditEntry} (hburst : burst ≠ [])
    (hcapacity : 1 ≤ d.queue.capacity) :
    ∃ e ∈ d.newest burst, e.2 = d.dispatched + (burst.length - 1) := by
  have hpos : 0 < burst.length := List.length_pos_of_ne_nil hburst
  have hlast : burst.length - 1 < (burst.zipIdx d.dispatched).length := by
    rw [List.length_zipIdx]
    omega
  refine ⟨(burst.zipIdx d.dispatched)[burst.length - 1], ?_, by rw [List.getElem_zipIdx]⟩
  refine List.mem_drop_iff_getElem.mpr
    ⟨min burst.length d.queue.capacity - 1, by rw [List.length_zipIdx]; omega, ?_⟩
  congr 1
  omega

/-- Where the newest entries are delivered, the burst fits: what does not fit is at its end. -/
theorem KeepsNewest.length_le {sinks : List AuditSink} {bufferSize : ℕ} {d₀ : AuditDispatcher}
    (hnew : new sinks bufferSize = some d₀) (hsinks : sinks ≠ []) {as : List AuditAction}
    (hrun : machine.Runs Machine.unrestricted d₀ as d) {burst : List AuditEntry}
    (h : d.KeepsNewest burst) : burst.length ≤ d.queue.free := by
  obtain ⟨hnewSinks, -, -, hcapacity, -⟩ := new_spec hnew
  obtain ⟨before, hbefore⟩ := grows_of_runs (hnewSinks ▸ hsinks) hrun
  have hpos : 0 < d.sinks.length := by
    rw [hbefore.sinks, hnewSinks]
    exact List.length_pos_of_ne_nil hsinks
  obtain ⟨⟨as', t, hrun', ht⟩, hall⟩ := h
  by_contra hover
  have hburst : burst ≠ [] := by
    rintro rfl
    exact hover (Nat.zero_le _)
  -- The last entry of the burst is among the newest, but has a number that was not accepted.
  obtain ⟨e, he, hnumber⟩ := exists_mem_newest d hburst
    (by rw [hbefore.capacity, hcapacity]; exact le_max_right _ _)
  obtain ⟨-, hnewest, -⟩ := hall as' t hrun' ht 0 hpos
  rw [delivered_of_drained hnew hsinks hrun burst hrun' ht hpos] at hnewest
  have hlt := number_lt_of_mem_take (hnewest he)
  omega

/-- In every state the newest entries of a burst are delivered exactly if the burst fits into the
free places of the queue. -/
theorem keepsNewest_iff {sinks : List AuditSink} {bufferSize : ℕ} {d₀ : AuditDispatcher}
    (hnew : new sinks bufferSize = some d₀) (hsinks : sinks ≠ []) {as : List AuditAction}
    (hrun : machine.Runs Machine.unrestricted d₀ as d) (burst : List AuditEntry) :
    d.KeepsNewest burst ↔ burst.length ≤ d.queue.free := by
  refine ⟨fun h => h.length_le hnew hsinks hrun, fun hle => ?_⟩
  obtain ⟨hnewSinks, hvalid, -, -, -⟩ := new_spec hnew
  obtain ⟨before, hbefore⟩ := grows_of_runs (hnewSinks ▸ hsinks) hrun
  have hd : d.sinks ≠ [] := by
    rw [hbefore.sinks, hnewSinks]
    exact hsinks
  obtain ⟨hburst, -, herrors⟩ := grows_dispatchAll hd burst
  have htake : (burst.zipIdx d.dispatched).take d.queue.free = burst.zipIdx d.dispatched := by
    refine List.take_of_length_le ?_
    rwa [List.length_zipIdx]
  refine ⟨exists_drained (hburst.sinks ▸ hd) (hburst.handValid (hbefore.handValid hvalid)),
    fun as' t hrun' ht i hi => ?_⟩
  rw [delivered_of_drained hnew hsinks hrun burst hrun' ht hi]
  refine ⟨hburst.ordered, ?_, ?_⟩
  · rw [htake]
    exact List.drop_subset _ _
  · rw [herrors hle, htake, List.length_zipIdx]

/-- A request that is audited. -/
def sampleEntry (path : String) : AuditEntry :=
  ⟨"2026-05-14T00:00:00Z", "127.0.0.1", "GET", path, 200, "curl", none, "req-1", 2, 0, 100⟩

/-- Two entries fit into a queue of two. -/
theorem keepsNewest_twoOfTwo :
    ∃ d, new [.file "/var/log/xira/audit.jsonl"] 2 = some d ∧
      d.KeepsNewest [sampleEntry "/a", sampleEntry "/b"] := by
  obtain ⟨d, hnew, hfree⟩ : ∃ d, new [.file "/var/log/xira/audit.jsonl"] 2 = some d ∧
      d.queue.free = 2 := ⟨_, rfl, rfl⟩
  refine ⟨d, hnew, (keepsNewest_iff hnew (by simp) (.nil d) _).mpr ?_⟩
  rw [hfree]
  exact le_rfl

/-- Of two entries that go to a queue of one, the newer one is lost. -/
theorem keepsNewest_fails :
    ¬∀ (sinks : List AuditSink) (bufferSize : ℕ) (d₀ d : AuditDispatcher) (as : List AuditAction)
      (burst : List AuditEntry), new sinks bufferSize = some d₀ → sinks ≠ [] → 1 ≤ bufferSize →
        machine.Runs Machine.unrestricted d₀ as d → d.KeepsNewest burst := by
  intro hall
  obtain ⟨d, hnew, hfree⟩ : ∃ d, new [.file "/var/log/xira/audit.jsonl"] 1 = some d ∧
      d.queue.free = 1 := ⟨_, rfl, rfl⟩
  -- One free place, and a burst of two.
  have hkeeps := hall _ 1 d d [] [sampleEntry "/a", sampleEntry "/b"] hnew (by simp) le_rfl (.nil d)
  have hle := hkeeps.length_le hnew (by simp) (.nil d)
  rw [hfree] at hle
  exact absurd hle (by decide)

end AuditDispatcher

end XiraNet

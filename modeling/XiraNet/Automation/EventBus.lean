import XiraNet.Http
import XiraNet.Lib.DashCount
import XiraNet.Lib.LossyChannel
import XiraNet.Lib.Runs

/-!
# Event bus

The event bus of `automation/event_bus.rs`. A `publish` sends its event to the channel of the topic
and appends it to the log in two steps, between which other calls run and at which its future may be
dropped.

* `EventBusState.delivered_of_runs`: in every interleaving a receiver is told of every event that
  was published on its topic since it subscribed, once and in order, and the log holds the last
  events of those that were appended.
* `EventBusState.received_iff_of_runs`: a receiver misses nothing exactly if it never has more than
  the channel's capacity ahead when it asks.
-/

namespace XiraNet

/-- An event. -/
structure Event where
  id : String
  topic : String
  source : String
  data : Json
  timestamp : ℕ

/-- The capacity of a topic's channel. -/
def eventChannelCapacity : ℕ := 1024

/-- The event bus. -/
structure EventBus where
  channels : DashMap String (LossyChannel Event)
  /-- Topic to subscriber ids. -/
  subscriptions : DashMap String (List String)
  eventLog : List Event
  maxLogSize : ℕ

/-- The answer of `stats`. -/
structure EventStats where
  totalEvents : ℕ
  topics : ℕ
  topicCounts : DashMap String ℕ

namespace EventBus

/-- `new`. -/
def new (maxLogSize : ℕ) : EventBus := ⟨∅, ∅, [], maxLogSize⟩

/-- The first step of `publish`. -/
def send (b : EventBus) (event : Event) : EventBus :=
  { b with channels := b.channels.modify event.topic (·.send event) }

/-- The second step of `publish`, under the lock of the log. -/
def append (b : EventBus) (event : Event) : EventBus :=
  let log := b.eventLog ++ [event]
  { b with eventLog := log.drop (log.length - b.maxLogSize) }

/-- `subscribe`, with the receiver it returns. -/
def subscribe (b : EventBus) (topic subscriberId : String) (receiver : ℕ) : EventBus :=
  let channel := (b.channels.lookup topic).getD (.new eventChannelCapacity)
  let subs := (b.subscriptions.lookup topic).getD []
  { b with
    channels := b.channels.insert topic (channel.subscribe receiver)
    subscriptions := b.subscriptions.insert topic
      (if subscriberId ∈ subs then subs else subs ++ [subscriberId]) }

/-- A receiver of a topic asks for an event. -/
def recv (b : EventBus) (topic : String) (receiver : ℕ) : Option (Told Event × EventBus) :=
  (b.channels.lookup topic).bind fun channel =>
    (channel.recv receiver).map fun (told, channel) =>
      (told, { b with channels := b.channels.insert topic channel })

/-- A receiver of a topic is dropped. -/
def unsubscribe (b : EventBus) (topic : String) (receiver : ℕ) : EventBus :=
  { b with channels := b.channels.modify topic (·.unsubscribe receiver) }

/-- `list_topics`. -/
def listTopics (b : EventBus) : List String := b.channels.keys

/-- `topic_subscribers`. -/
def topicSubscribers (b : EventBus) (topic : String) : List String :=
  (b.subscriptions.lookup topic).getD []

/-- `recent_events`. -/
def recentEvents (b : EventBus) (limit : ℕ) : List Event := b.eventLog.reverse.take limit

/-- `stats`. -/
def stats (b : EventBus) : EventStats where
  totalEvents := b.eventLog.length
  topics := b.channels.keys.length
  topicCounts := b.eventLog.foldl
    (fun counts event => counts.insert event.topic ((counts.lookup event.topic).getD 0 + 1)) ∅

end EventBus

/-- A receiver that somebody holds. -/
structure Subscriber where
  topic : String
  /-- The number of events that had been published when it subscribed. -/
  since : ℕ
  /-- What it has been told. -/
  told : List (Told Event)

/-- The bus with the calls of `publish` under way, and what has happened. -/
structure EventBusState where
  bus : EventBus
  /-- The calls of `publish` between their two steps. -/
  publishing : DashMap ℕ Event
  subscribers : DashMap ℕ Subscriber
  /-- The events whose `publish` has taken its first step. -/
  published : List Event
  /-- The events that were appended to the log. -/
  appended : List Event
  /-- The events whose `publish` was dropped between its steps. -/
  dropped : List Event

/-- One step of a call. -/
inductive EventBusAction
  /-- `publish` sends its event, with the id and the time it draws. -/
  | send (call : ℕ) (event : Event)
  /-- `publish` appends its event to the log. -/
  | append (call : ℕ)
  /-- The future of a `publish` is dropped. -/
  | drop (call : ℕ)
  | subscribe (receiver : ℕ) (topic subscriberId : String)
  | recv (receiver : ℕ)
  | unsubscribe (receiver : ℕ)

namespace EventBusState

/-- One step. -/
def step (s : EventBusState) : EventBusAction → Option EventBusState
  | .send call event =>
      if (s.publishing.lookup call).isSome then none
      else some { s with
        bus := s.bus.send event
        publishing := s.publishing.insert call event
        published := s.published ++ [event] }
  | .append call =>
      (s.publishing.lookup call).map fun event =>
        { s with
          bus := s.bus.append event
          publishing := s.publishing.erase call
          appended := s.appended ++ [event] }
  | .drop call =>
      (s.publishing.lookup call).map fun event =>
        { s with publishing := s.publishing.erase call, dropped := event :: s.dropped }
  | .subscribe receiver topic subscriberId =>
      if (s.subscribers.lookup receiver).isSome then none
      else some { s with
        bus := s.bus.subscribe topic subscriberId receiver
        subscribers := s.subscribers.insert receiver ⟨topic, s.published.length, []⟩ }
  | .recv receiver =>
      (s.subscribers.lookup receiver).bind fun sub =>
        (s.bus.recv sub.topic receiver).map fun (told, bus) =>
          { s with
            bus
            subscribers := s.subscribers.insert receiver { sub with told := sub.told ++ [told] } }
  | .unsubscribe receiver =>
      (s.subscribers.lookup receiver).map fun sub =>
        { s with
          bus := s.bus.unsubscribe sub.topic receiver
          subscribers := s.subscribers.erase receiver }

/-- A new bus. -/
def initial (maxLogSize : ℕ) : EventBusState := ⟨.new maxLogSize, ∅, ∅, [], [], []⟩

/-- Every interleaving of calls. -/
def machine : Machine EventBusState EventBusAction := ⟨step⟩

/-- The events that were published on the topic of a receiver since it subscribed. -/
def owed (s : EventBusState) (sub : Subscriber) : List Event :=
  (s.published.drop sub.since).filter fun event => event.topic = sub.topic

/-- Receivers are told of every event, and the log keeps the last ones. -/
structure Delivered (s : EventBusState) : Prop where
  /-- A receiver has been told of the events it is owed, once and in order, but for those that are
  ahead; and if there are any ahead, it is told something when it asks. -/
  receivers : ∀ id sub, s.subscribers.lookup id = some sub → ∃ rest,
    Reads sub.told (s.owed sub) rest ∧ (s.bus.recv sub.topic id = none ↔ rest = [])
  log : s.bus.eventLog = s.appended.drop (s.appended.length - s.bus.maxLogSize)
  /-- Every event is appended once, unless its `publish` is under way or was dropped. -/
  once : s.published.Perm (s.appended ++ s.publishing.values ++ s.dropped)

/-- A receiver of a topic that has the number `next` stands within the events `sent` of the channel:
those since it subscribed are the ones it is owed, and it has been told of those before `next`. -/
def Stands (s : EventBusState) (topic : String) (sent : List Event) (id next : ℕ) : Prop :=
  ∃ sub, s.subscribers.lookup id = some sub ∧ sub.topic = topic ∧
    sub.since ≤ s.published.length ∧ ∃ start ≤ sent.length, s.owed sub = sent.drop start ∧
      Reads sub.told (sent.drop start) (sent.drop next)

/-- A channel keeps the last events that it has sent, and all its receivers stand within them. -/
def ChannelOk (s : EventBusState) (topic : String) (c : LossyChannel Event) : Prop :=
  ∃ sent, c.Keeps sent ∧ c.capacity = eventChannelCapacity ∧
    ∀ id next, c.receivers.lookup id = some next → s.Stands topic sent id next

/-- The invariant. -/
structure Inv (s : EventBusState) : Prop where
  channels : ∀ topic c, s.bus.channels.lookup topic = some c → s.ChannelOk topic c
  subscribers : ∀ id sub, s.subscribers.lookup id = some sub → ∃ c next,
    s.bus.channels.lookup sub.topic = some c ∧ c.receivers.lookup id = some next
  log : s.bus.eventLog = s.appended.drop (s.appended.length - s.bus.maxLogSize)
  once : s.published.Perm (s.appended ++ s.publishing.values ++ s.dropped)

variable {s s' : EventBusState}

/-- The log after an append holds the last of one more event. -/
theorem log_append {log appended : List Event} {size : ℕ}
    (h : log = appended.drop (appended.length - size)) (event : Event) :
    (log ++ [event]).drop ((log ++ [event]).length - size) =
      (appended ++ [event]).drop ((appended ++ [event]).length - size) := by
  have hcut : log ++ [event] = (appended ++ [event]).drop (appended.length - size) := by
    rw [h, List.drop_append_of_le_length (Nat.sub_le _ _)]
  rw [hcut, List.drop_drop, List.length_drop, List.length_append, List.length_singleton]
  congr 1
  omega

/-- A new bus. -/
theorem inv_initial (maxLogSize : ℕ) : (initial maxLogSize).Inv where
  channels := fun topic c h => by simp [initial, EventBus.new] at h
  subscribers := fun id sub h => by simp [initial] at h
  log := List.drop_nil.symm
  once := List.Perm.refl _

/-- Where a receiver stands depends on the published events and on what it has been told. -/
theorem Stands.of_eq {topic : String} {sent : List Event} {id next : ℕ}
    (h : s.Stands topic sent id next) (hpublished : s'.published = s.published)
    (hsubscribers : s'.subscribers.lookup id = s.subscribers.lookup id) :
    s'.Stands topic sent id next := by
  obtain ⟨sub, hsub, htopic, hsince, hstart⟩ := h
  unfold Stands owed
  rw [hsubscribers, hpublished]
  exact ⟨sub, hsub, htopic, hsince, hstart⟩

/-- A receiver is owed one more event on its topic. -/
theorem owed_send {event : Event} {sub : Subscriber} (hsince : sub.since ≤ s.published.length)
    (hpublished : s'.published = s.published ++ [event]) :
    s'.owed sub = s.owed sub ++ if event.topic = sub.topic then [event] else [] := by
  unfold owed
  rw [hpublished, List.drop_append_of_le_length hsince, List.filter_append]
  by_cases htopic : event.topic = sub.topic
  · rw [if_pos htopic, List.filter_cons_of_pos (by simpa using htopic), List.filter_nil]
  · rw [if_neg htopic, List.filter_cons_of_neg (by simpa using htopic), List.filter_nil]

/-- An event is sent to the receivers of its topic. -/
theorem Inv.send (h : s.Inv) {call : ℕ} {event : Event}
    (hcall : s.publishing.lookup call = none) :
    Inv { s with
      bus := s.bus.send event
      publishing := s.publishing.insert call event
      published := s.published ++ [event] } where
  channels := by
    intro topic c hc
    rw [EventBus.send, DashMap.lookup_modify] at hc
    split at hc
    next htopic =>
      subst htopic
      obtain ⟨old, hold, rfl⟩ := Option.map_eq_some_iff.mp hc
      obtain ⟨sent, hkeeps, hcapacity, hstands⟩ := h.channels _ old hold
      by_cases hnone : old.receivers.entries = []
      -- Nobody listens, and the event is not sent.
      · rw [LossyChannel.send_of_none hnone]
        refine ⟨sent, hkeeps, hcapacity, fun id next hnext => ?_⟩
        have hmem := AList.mem_lookup_iff.mp (Option.mem_def.mpr hnext)
        rw [hnone] at hmem
        exact absurd hmem List.not_mem_nil
      -- For every receiver of the topic the event is owed, and it is the last one ahead.
      · obtain ⟨hkeeps', hreceivers, hcapacity'⟩ := hkeeps.send hnone event
        refine ⟨sent ++ [event], hkeeps', hcapacity'.trans hcapacity, fun id next hnext => ?_⟩
        rw [hreceivers] at hnext
        obtain ⟨sub, hsub, htopic, hsince, start, hstart, howed, hreads⟩ := hstands id next hnext
        refine ⟨sub, hsub, htopic, ?_, start, ?_, ?_, ?_⟩
        · rw [List.length_append]
          exact hsince.trans (Nat.le_add_right _ _)
        · rw [List.length_append]
          exact hstart.trans (Nat.le_add_right _ _)
        · rw [owed_send hsince rfl, if_pos htopic.symm, howed,
            List.drop_append_of_le_length hstart]
        · rw [List.drop_append_of_le_length hstart,
            List.drop_append_of_le_length (hkeeps.receivers id next hnext)]
          exact hreads.sent_append event
    next htopic =>
      -- The receivers of another topic are owed nothing new.
      obtain ⟨sent, hkeeps, hcapacity, hstands⟩ := h.channels topic c hc
      refine ⟨sent, hkeeps, hcapacity, fun id next hnext => ?_⟩
      obtain ⟨sub, hsub, rfl, hsince, start, hstart, howed, hreads⟩ := hstands id next hnext
      refine ⟨sub, hsub, rfl, ?_, start, hstart, ?_, hreads⟩
      · rw [List.length_append]
        exact hsince.trans (Nat.le_add_right _ _)
      · rw [owed_send hsince rfl, if_neg (Ne.symm htopic), List.append_nil, howed]
  subscribers := by
    intro id sub hsub
    obtain ⟨c, next, hc, hnext⟩ := h.subscribers id sub hsub
    rw [EventBus.send]
    simp only [DashMap.lookup_modify]
    split
    next htopic =>
      rw [← htopic, hc]
      refine ⟨c.send event, next, rfl, ?_⟩
      unfold LossyChannel.send
      split <;> exact hnext
    next => exact ⟨c, next, hc, hnext⟩
  log := h.log
  once := by
    rw [DashMap.values_insert, DashMap.values_erase_of_none hcall]
    refine (h.once.append_right [event]).trans ?_
    have hmove : (s.publishing.values ++ s.dropped ++ [event]).Perm
        (event :: s.publishing.values ++ s.dropped) := List.perm_append_singleton event _
    simpa only [List.append_assoc] using hmove.append_left s.appended

/-- An event is appended to the log. -/
theorem Inv.append (h : s.Inv) {call : ℕ} {event : Event}
    (hcall : s.publishing.lookup call = some event) :
    Inv { s with
      bus := s.bus.append event
      publishing := s.publishing.erase call
      appended := s.appended ++ [event] } where
  channels topic c hc := by
    obtain ⟨sent, hkeeps, hcapacity, hstands⟩ := h.channels topic c hc
    exact ⟨sent, hkeeps, hcapacity, fun id next hnext => (hstands id next hnext).of_eq rfl rfl⟩
  subscribers := h.subscribers
  log := log_append h.log event
  once := by
    refine h.once.trans (List.Perm.append_right _ ?_)
    rw [List.append_assoc]
    exact List.Perm.append_left _ (DashMap.perm_values_erase hcall)

/-- The future of a `publish` is dropped. -/
theorem Inv.drop (h : s.Inv) {call : ℕ} {event : Event}
    (hcall : s.publishing.lookup call = some event) :
    Inv { s with publishing := s.publishing.erase call, dropped := event :: s.dropped } where
  channels topic c hc := by
    obtain ⟨sent, hkeeps, hcapacity, hstands⟩ := h.channels topic c hc
    exact ⟨sent, hkeeps, hcapacity, fun id next hnext => (hstands id next hnext).of_eq rfl rfl⟩
  subscribers := h.subscribers
  log := h.log
  once := by
    refine h.once.trans ?_
    rw [List.append_assoc, List.append_assoc]
    refine List.Perm.append_left _ ?_
    exact ((DashMap.perm_values_erase hcall).append_right _).trans List.perm_middle.symm

/-- A new receiver is owed nothing yet. -/
theorem Inv.subscribe (h : s.Inv) {receiver : ℕ} (topic subscriberId : String)
    (hreceiver : s.subscribers.lookup receiver = none) :
    Inv { s with
      bus := s.bus.subscribe topic subscriberId receiver
      subscribers := s.subscribers.insert receiver ⟨topic, s.published.length, []⟩ } := by
  -- The receivers that are there are others.
  have hothers : ∀ {sent : List Event} {topic' : String} {id next : ℕ},
      s.Stands topic' sent id next → Stands { s with
        bus := s.bus.subscribe topic subscriberId receiver
        subscribers := s.subscribers.insert receiver ⟨topic, s.published.length, []⟩ }
          topic' sent id next := by
    rintro sent topic' id next ⟨sub, hsub, hstands⟩
    refine Stands.of_eq ⟨sub, hsub, hstands⟩ rfl ?_
    rw [DashMap.lookup_insert, if_neg]
    rintro rfl
    rw [hreceiver] at hsub
    cases hsub
  refine ⟨fun topic' c hc => ?_, fun id sub hsub => ?_, h.log, h.once⟩
  · rcases DashMap.lookup_insert_cases hc with ⟨rfl, rfl⟩ | ⟨-, hold⟩
    · obtain ⟨sent, hkeeps, hcapacity, hstands⟩ : s.ChannelOk topic'
          ((s.bus.channels.lookup topic').getD (.new eventChannelCapacity)) := by
        cases hlookup : s.bus.channels.lookup topic' with
        | some c => exact h.channels topic' c hlookup
        | none =>
            exact ⟨[], LossyChannel.keeps_new _, rfl, fun id next h => by
              simp [LossyChannel.new] at h⟩
      refine ⟨sent, ⟨hkeeps.tail, hkeeps.kept, fun id next hnext => ?_⟩, hcapacity,
        fun id next hnext => ?_⟩
      · rcases DashMap.lookup_insert_cases hnext with ⟨-, rfl⟩ | ⟨-, hold⟩
        · exact hkeeps.tail.le
        · exact hkeeps.receivers id next hold
      · rcases DashMap.lookup_insert_cases hnext with ⟨rfl, rfl⟩ | ⟨-, hold⟩
        -- The new receiver stands at the end, where it is owed nothing.
        · refine ⟨⟨topic', s.published.length, []⟩, ?_, rfl, le_rfl, sent.length, le_rfl, ?_, ?_⟩
          · rw [DashMap.lookup_insert, if_pos rfl]
          · unfold owed
            rw [List.drop_length, List.drop_length]
            rfl
          · rw [hkeeps.tail]
            exact .nil _
        · exact hothers (hstands id next hold)
    · obtain ⟨sent, hkeeps, hcapacity, hstands⟩ := h.channels topic' c hold
      exact ⟨sent, hkeeps, hcapacity, fun id next hnext => hothers (hstands id next hnext)⟩
  · simp only [EventBus.subscribe, DashMap.lookup_insert]
    rcases DashMap.lookup_insert_cases hsub with ⟨rfl, rfl⟩ | ⟨hne, hold⟩
    · rw [if_pos rfl]
      refine ⟨_, ((s.bus.channels.lookup topic).getD (.new eventChannelCapacity)).tail, rfl, ?_⟩
      rw [LossyChannel.subscribe, DashMap.lookup_insert, if_pos rfl]
    · obtain ⟨c, next, hc, hnext⟩ := h.subscribers id sub hold
      by_cases htopic : sub.topic = topic
      · rw [if_pos htopic]
        refine ⟨_, next, rfl, ?_⟩
        rw [LossyChannel.subscribe, DashMap.lookup_insert, if_neg hne, ← htopic, hc]
        exact hnext
      · rw [if_neg htopic]
        exact ⟨c, next, hc, hnext⟩

/-- A receiver is told of the next event, or that it has missed some. -/
theorem Inv.recv (h : s.Inv) {receiver : ℕ} {sub : Subscriber} {told : Told Event} {bus : EventBus}
    (hsub : s.subscribers.lookup receiver = some sub)
    (hrecv : s.bus.recv sub.topic receiver = some (told, bus)) :
    Inv { s with
      bus
      subscribers := s.subscribers.insert receiver { sub with told := sub.told ++ [told] } } := by
  obtain ⟨c, hc, hmap⟩ := Option.bind_eq_some_iff.mp hrecv
  obtain ⟨⟨told', c'⟩, hgot, heq⟩ := Option.map_eq_some_iff.mp hmap
  cases heq
  obtain ⟨c₀, next, hc₀, hnext⟩ := h.subscribers receiver sub hsub
  obtain rfl : c₀ = c := Option.some.inj (hc₀.symm.trans hc)
  obtain ⟨sent, hkeeps, hcapacity, hstands⟩ := h.channels sub.topic c₀ hc
  obtain ⟨sub₀, hsub₀, -, hsince, start, hstart, howed, hreads⟩ := hstands receiver next hnext
  obtain rfl : sub₀ = sub := Option.some.inj (hsub₀.symm.trans hsub)
  -- Wherever the receiver goes on, it has been told of what is before.
  obtain ⟨next', hle, hreads', rfl⟩ : ∃ next' ≤ sent.length,
      Reads (sub₀.told ++ [told]) (sent.drop start) (sent.drop next') ∧
        c' = { c₀ with receivers := c₀.receivers.insert receiver next' } := by
    -- It is told of the next event, or how many the channel has forgotten in between.
    rcases hkeeps.recv hnext hgot with
      ⟨e, rest, hdrop, rfl, -, rfl, hle⟩ | ⟨missed, rest, hdrop, hmissed, rfl, -, rfl, hle⟩
    · refine ⟨next + 1, hle, ?_, rfl⟩
      have hrest : sent.drop (next + 1) = rest := by
        rw [← List.drop_drop, hdrop]
        rfl
      rw [hrest]
      exact (hdrop ▸ hreads).told_got
    · refine ⟨next + missed.length, hle, ?_, rfl⟩
      have hrest : sent.drop (next + missed.length) = rest := by
        rw [← List.drop_drop, hdrop, List.drop_left]
      rw [hrest]
      exact (hdrop ▸ hreads).told_lagged hmissed
  refine ⟨fun topic d hd => ?_, fun id sub' hsub' => ?_, h.log, h.once⟩
  · rcases DashMap.lookup_insert_cases hd with ⟨rfl, rfl⟩ | ⟨hne, hold⟩
    · refine ⟨sent, ⟨hkeeps.tail, hkeeps.kept, fun id n hn => ?_⟩, hcapacity, fun id n hn => ?_⟩
      · rcases DashMap.lookup_insert_cases hn with ⟨-, rfl⟩ | ⟨-, hold⟩
        · exact hle
        · exact hkeeps.receivers id n hold
      -- The other receivers of the topic stand where they stood.
      · rcases DashMap.lookup_insert_cases hn with ⟨rfl, rfl⟩ | ⟨hne, hold⟩
        · refine ⟨{ sub₀ with told := sub₀.told ++ [told] }, ?_, rfl, hsince, start, hstart, howed,
            hreads'⟩
          rw [DashMap.lookup_insert, if_pos rfl]
        · exact (hstands id n hold).of_eq rfl (by rw [DashMap.lookup_insert, if_neg hne])
    · obtain ⟨sent', hkeeps', hcapacity', hstands'⟩ := h.channels topic d hold
      refine ⟨sent', hkeeps', hcapacity', fun id n hn => ?_⟩
      refine (hstands' id n hn).of_eq rfl ?_
      rw [DashMap.lookup_insert, if_neg]
      -- A receiver of another topic is another receiver.
      rintro rfl
      obtain ⟨sub', hsub', htopic, -⟩ := hstands' id n hn
      cases hsub'.symm.trans hsub
      exact hne htopic.symm
  · simp only [DashMap.lookup_insert]
    rcases DashMap.lookup_insert_cases hsub' with ⟨rfl, rfl⟩ | ⟨hne, hold⟩
    · rw [if_pos rfl]
      exact ⟨_, next', rfl, by rw [DashMap.lookup_insert, if_pos rfl]⟩
    · obtain ⟨d, n, hd, hn⟩ := h.subscribers id sub' hold
      by_cases htopic : sub'.topic = sub₀.topic
      · rw [if_pos htopic]
        obtain rfl : c₀ = d := Option.some.inj (hc.symm.trans (htopic ▸ hd))
        exact ⟨_, n, rfl, by rw [DashMap.lookup_insert, if_neg hne, hn]⟩
      · rw [if_neg htopic]
        exact ⟨d, n, hd, hn⟩

/-- A receiver goes away. -/
theorem Inv.unsubscribe (h : s.Inv) {receiver : ℕ} {sub : Subscriber}
    (hsub : s.subscribers.lookup receiver = some sub) :
    Inv { s with
      bus := s.bus.unsubscribe sub.topic receiver
      subscribers := s.subscribers.erase receiver } := by
  refine ⟨fun topic c hc => ?_, fun id sub' hsub' => ?_, h.log, h.once⟩
  · rw [EventBus.unsubscribe, DashMap.lookup_modify] at hc
    split at hc
    next htopic =>
      obtain ⟨old, hold, rfl⟩ := Option.map_eq_some_iff.mp hc
      obtain ⟨sent, hkeeps, hcapacity, hstands⟩ := h.channels sub.topic old hold
      rw [htopic]
      refine ⟨sent, ⟨hkeeps.tail, hkeeps.kept, fun id n hn => ?_⟩, hcapacity, fun id n hn => ?_⟩
      · exact hkeeps.receivers id n (DashMap.lookup_erase_cases hn).2
      · obtain ⟨hne, hold⟩ := DashMap.lookup_erase_cases hn
        exact (hstands id n hold).of_eq rfl (by rw [DashMap.lookup_erase, if_neg hne])
    next htopic =>
      obtain ⟨sent, hkeeps, hcapacity, hstands⟩ := h.channels topic c hc
      refine ⟨sent, hkeeps, hcapacity, fun id n hn => (hstands id n hn).of_eq rfl ?_⟩
      rw [DashMap.lookup_erase, if_neg]
      rintro rfl
      obtain ⟨sub', hsub', htopic', -⟩ := hstands id n hn
      cases hsub'.symm.trans hsub
      exact htopic htopic'.symm
  · obtain ⟨hne, hold⟩ := DashMap.lookup_erase_cases hsub'
    obtain ⟨c, n, hc, hn⟩ := h.subscribers id sub' hold
    rw [EventBus.unsubscribe]
    simp only [DashMap.lookup_modify]
    split
    next htopic =>
      rw [← htopic, hc]
      refine ⟨c.unsubscribe receiver, n, rfl, ?_⟩
      rw [LossyChannel.unsubscribe, DashMap.lookup_erase, if_neg hne, hn]
    next => exact ⟨c, n, hc, hn⟩

/-- A step keeps the invariant. -/
theorem inv_step (s : EventBusState) (a : EventBusAction) (s' : EventBusState) (hs : s.Inv)
    (h : s.step a = some s') : s'.Inv := by
  cases a with
  | send call event =>
      simp only [step] at h
      split at h
      next => cases h
      next hfree =>
        cases h
        exact hs.send (Option.not_isSome_iff_eq_none.mp hfree)
  | append call =>
      obtain ⟨event, hcall, rfl⟩ := Option.map_eq_some_iff.mp h
      exact hs.append hcall
  | drop call =>
      obtain ⟨event, hcall, rfl⟩ := Option.map_eq_some_iff.mp h
      exact hs.drop hcall
  | subscribe receiver topic subscriberId =>
      simp only [step] at h
      split at h
      next => cases h
      next hfree =>
        cases h
        exact hs.subscribe topic subscriberId (Option.not_isSome_iff_eq_none.mp hfree)
  | recv receiver =>
      obtain ⟨sub, hsub, h⟩ := Option.bind_eq_some_iff.mp h
      obtain ⟨⟨told, bus⟩, hrecv, rfl⟩ := Option.map_eq_some_iff.mp h
      exact hs.recv hsub hrecv
  | unsubscribe receiver =>
      obtain ⟨sub, hsub, rfl⟩ := Option.map_eq_some_iff.mp h
      exact hs.unsubscribe hsub

/-- What is ahead of a receiver. -/
theorem Inv.ahead (hs : s.Inv) {id : ℕ} {sub : Subscriber}
    (hsub : s.subscribers.lookup id = some sub) : ∃ rest,
      Reads sub.told (s.owed sub) rest ∧ (s.bus.recv sub.topic id = none ↔ rest = []) ∧
        ∀ told bus, s.bus.recv sub.topic id = some (told, bus) →
          ((∃ missed, told = .lagged missed) ↔ eventChannelCapacity < rest.length) := by
  obtain ⟨c, next, hc, hnext⟩ := hs.subscribers id sub hsub
  obtain ⟨sent, hkeeps, hcapacity, hstands⟩ := hs.channels sub.topic c hc
  obtain ⟨sub', hsub', -, -, start, -, howed, hreads⟩ := hstands id next hnext
  obtain rfl : sub' = sub := Option.some.inj (hsub'.symm.trans hsub)
  have hrecv : s.bus.recv sub'.topic id = (c.recv id).map fun (told, channel) =>
      (told, { s.bus with channels := s.bus.channels.insert sub'.topic channel }) := by
    rw [EventBus.recv, hc, Option.bind_some]
  -- What is ahead are the events that the channel has sent from its number on.
  refine ⟨sent.drop next, howed ▸ hreads, ⟨fun hnone => ?_, fun hempty => ?_⟩,
    fun told bus htold => ?_⟩
  · rw [hrecv, Option.map_eq_none_iff] at hnone
    exact hkeeps.recv_eq_none hnext hnone
  · rw [hrecv, Option.map_eq_none_iff, Option.eq_none_iff_forall_not_mem]
    rintro ⟨told, c'⟩ hsome
    rcases hkeeps.recv hnext hsome with
      ⟨e, rest, hdrop, -⟩ | ⟨missed, rest, hdrop, hmissed, -⟩
    · rw [hempty] at hdrop
      cases hdrop
    · rw [hempty] at hdrop
      exact hmissed (List.append_eq_nil_iff.mp hdrop.symm).1
  · rw [hrecv] at htold
    obtain ⟨⟨told', c'⟩, hsome, heq⟩ := Option.map_eq_some_iff.mp htold
    cases heq
    rw [List.length_drop, ← hcapacity]
    rcases hkeeps.recv hnext hsome with
      ⟨e, rest, -, rfl, hle, -⟩ | ⟨missed, rest, -, -, rfl, hlt, -⟩
    · refine ⟨fun ⟨_, h⟩ => ?_, fun hlt => absurd hlt hle.not_gt⟩
      cases h
    · exact ⟨fun _ => hlt, fun _ => ⟨_, rfl⟩⟩

/-- In every interleaving of calls, receivers are told of every event, and the log keeps the last
ones. -/
theorem delivered_of_runs {maxLogSize : ℕ} {as : List EventBusAction} {s : EventBusState}
    (hrun : machine.Runs Machine.unrestricted (initial maxLogSize) as s) : s.Delivered := by
  have hs : s.Inv :=
    hrun.invariant (fun s a s' hs _ h => inv_step s a s' hs h) (inv_initial maxLogSize)
  refine ⟨fun id sub hsub => ?_, hs.log, hs.once⟩
  obtain ⟨rest, hreads, hnone, -⟩ := hs.ahead hsub
  exact ⟨rest, hreads, hnone⟩

/-- A deployment event. -/
def deployed (id : String) : Event := ⟨id, "deploy", "admin", .null, 0⟩

/-- A receiver that subscribes between two deployments asks after the third. -/
def twoDeployments : List EventBusAction :=
  [.send 0 (deployed "a"), .subscribe 7 "deploy" "ui", .send 1 (deployed "b"), .append 1,
    .send 2 (deployed "c"), .append 0, .recv 7, .drop 2]

/-- The first deployment is not owed, and the second is received while the third is ahead. -/
theorem delivered_twoDeployments : ∃ s sub,
    machine.Runs Machine.unrestricted (initial 1) twoDeployments s ∧
      s.subscribers.lookup 7 = some sub ∧ sub.told = [.got (deployed "b")] ∧ s.Delivered := by
  obtain ⟨s, hs, sub, hsub, htold⟩ :
      ∃ s, machine.exec Machine.unrestricted (initial 1) twoDeployments = some s ∧
        ∃ sub, s.subscribers.lookup 7 = some sub ∧ sub.told = [.got (deployed "b")] :=
    ⟨_, rfl, _, rfl, rfl⟩
  have hrun := Machine.runs_of_exec hs
  exact ⟨s, sub, hrun, hsub, htold, delivered_of_runs hrun⟩

/-- The number of events that a receiver is owed and has not been told of. -/
def behind (s : EventBusState) (sub : Subscriber) : ℕ :=
  (s.owed sub).length - Reads.counted sub.told

/-- The receiver does not ask when more events are ahead than the channel keeps. -/
def KeepsUp (receiver : ℕ) (s : EventBusState) (a : EventBusAction) : Prop :=
  a = .recv receiver →
    ∀ sub, s.subscribers.lookup receiver = some sub → s.behind sub ≤ eventChannelCapacity

/-- The receiver has received the events it is owed, in order, and all of them when there is nothing
to tell it. -/
def Received (receiver : ℕ) (s : EventBusState) : Prop :=
  ∀ sub, s.subscribers.lookup receiver = some sub →
    sub.told <+: (s.owed sub).map .got ∧
      (s.bus.recv sub.topic receiver = none → sub.told = (s.owed sub).map .got)

/-- What a step tells a receiver. -/
theorem told_step {a : EventBusAction} (h : s.step a = some s') {id : ℕ} {sub' : Subscriber}
    (hsub' : s'.subscribers.lookup id = some sub') :
    sub'.told = [] ∨ s.subscribers.lookup id = some sub' ∨
      ∃ sub told bus, a = .recv id ∧ s.subscribers.lookup id = some sub ∧
        s.bus.recv sub.topic id = some (told, bus) ∧ sub'.told = sub.told ++ [told] := by
  cases a with
  | send call event =>
      simp only [step] at h
      split at h
      next => cases h
      next =>
        cases h
        exact .inr (.inl hsub')
  | append call =>
      obtain ⟨event, hcall, rfl⟩ := Option.map_eq_some_iff.mp h
      exact .inr (.inl hsub')
  | drop call =>
      obtain ⟨event, hcall, rfl⟩ := Option.map_eq_some_iff.mp h
      exact .inr (.inl hsub')
  | subscribe receiver topic subscriberId =>
      simp only [step] at h
      split at h
      next => cases h
      next =>
        cases h
        rcases DashMap.lookup_insert_cases hsub' with ⟨rfl, rfl⟩ | ⟨-, hold⟩
        · exact .inl rfl
        · exact .inr (.inl hold)
  | recv receiver =>
      obtain ⟨sub, hsub, h⟩ := Option.bind_eq_some_iff.mp h
      obtain ⟨⟨told, bus⟩, hrecv, rfl⟩ := Option.map_eq_some_iff.mp h
      rcases DashMap.lookup_insert_cases hsub' with ⟨rfl, rfl⟩ | ⟨-, hold⟩
      · exact .inr (.inr ⟨sub, told, bus, rfl, hsub, hrecv, rfl⟩)
      · exact .inr (.inl hold)
  | unsubscribe receiver =>
      obtain ⟨sub, hsub, rfl⟩ := Option.map_eq_some_iff.mp h
      exact .inr (.inl (DashMap.lookup_erase_cases hsub').2)

/-- What is behind is ahead. -/
theorem behind_eq {sub : Subscriber} {rest : List Event}
    (h : Reads sub.told (s.owed sub) rest) : s.behind sub = rest.length := by
  unfold behind
  rw [← h.counted_add_length, Nat.add_sub_cancel_left]

/-- A receiver that has missed nothing has received the events it is owed. -/
theorem Inv.received (hs : s.Inv) {receiver : ℕ}
    (hnone : ∀ sub, s.subscribers.lookup receiver = some sub → ∀ n, .lagged n ∉ sub.told) :
    s.Received receiver := by
  intro sub hsub
  obtain ⟨rest, hreads, hrecv, -⟩ := hs.ahead hsub
  have htold := hreads.told_append (hnone sub hsub)
  refine ⟨⟨_, htold⟩, fun h => ?_⟩
  rw [hrecv.mp h, List.map_nil, List.append_nil] at htold
  exact htold

/-- In every interleaving of calls, a receiver receives all events it is owed exactly if it never
asks when more are ahead than the channel keeps. -/
theorem received_iff_of_runs {maxLogSize receiver : ℕ} {as : List EventBusAction}
    {s : EventBusState} (hrun : machine.Runs Machine.unrestricted (initial maxLogSize) as s) :
    machine.Throughout (Received receiver) (initial maxLogSize) as ↔
      machine.Runs (KeepsUp receiver) (initial maxLogSize) as s := by
  refine Machine.Runs.throughout_iff
    (I := fun s => s.Inv ∧
      ∀ sub, s.subscribers.lookup receiver = some sub → ∀ n, .lagged n ∉ sub.told)
    (fun s hs => hs.1.received hs.2) (fun s a s' hs hok h => ?_) (fun s a s' hs hbad h hend => ?_)
    hrun ⟨inv_initial maxLogSize, fun sub hsub => by simp [initial] at hsub⟩
  · refine ⟨inv_step s a s' hs.1 h, fun sub' hsub' n hn => ?_⟩
    rcases told_step h hsub' with hnil | hold | ⟨sub, told, bus, rfl, hsub, hrecv, htold⟩
    · rw [hnil] at hn
      exact absurd hn List.not_mem_nil
    · exact hs.2 sub' hold n hn
    · rw [htold, List.mem_append, List.mem_singleton] at hn
      rcases hn with hn | rfl
      · exact hs.2 sub hsub n hn
      -- Being told of missed events means that more were ahead than the channel keeps.
      · obtain ⟨rest, hreads, -, hlagged⟩ := hs.1.ahead hsub
        have hlt := (hlagged _ _ hrecv).mp ⟨n, rfl⟩
        rw [← behind_eq hreads] at hlt
        exact absurd (hok rfl sub hsub) hlt.not_ge
  -- Who asks with too many events ahead is told that it has missed some.
  · simp only [KeepsUp, Classical.not_imp, not_forall, not_le] at hbad
    obtain ⟨rfl, sub, hsub, hlt⟩ := hbad
    obtain ⟨sub₀, hsub₀, h⟩ := Option.bind_eq_some_iff.mp h
    obtain rfl : sub₀ = sub := Option.some.inj (hsub₀.symm.trans hsub)
    obtain ⟨⟨told, bus⟩, hrecv, rfl⟩ := Option.map_eq_some_iff.mp h
    obtain ⟨rest, hreads, -, hlagged⟩ := hs.1.ahead hsub
    rw [behind_eq hreads] at hlt
    obtain ⟨n, rfl⟩ := (hlagged _ _ hrecv).mpr hlt
    -- What it was told is no list of events any more.
    obtain ⟨⟨rest', heq⟩, -⟩ := hend _ (by rw [DashMap.lookup_insert, if_pos rfl])
    have hmem : Told.lagged n ∈ (s.owed sub₀).map Told.got := by
      have hin : Told.lagged n ∈ (sub₀.told ++ [Told.lagged n]) ++ rest' := by simp
      rw [heq] at hin
      exact hin
    obtain ⟨e, -, he⟩ := List.mem_map.mp hmem
    cases he

/-- The receiver of the deployments asks in time. -/
theorem received_twoDeployments :
    machine.Throughout (Received 7) (initial 1) twoDeployments := by
  refine (received_iff_of_runs (s := (machine.exec Machine.unrestricted (initial 1)
    twoDeployments).getD (initial 1)) (Machine.runs_of_exec rfl)).mpr ?_
  have hother : ∀ s a, a ≠ .recv 7 → KeepsUp 7 s a := fun s a hne h => absurd h hne
  refine .cons (hother _ _ nofun) rfl (.cons (hother _ _ nofun) rfl (.cons (hother _ _ nofun) rfl
    (.cons (hother _ _ nofun) rfl (.cons (hother _ _ nofun) rfl (.cons (hother _ _ nofun) rfl
      (.cons (fun _ sub hsub => ?_) rfl (.cons (hother _ _ nofun) rfl (.nil _))))))))
  -- It asks once, with two events ahead.
  cases hsub
  decide

end EventBusState

end XiraNet

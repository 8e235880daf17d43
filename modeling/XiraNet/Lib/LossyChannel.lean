import Mathlib.Data.List.Basic
import XiraNet.Lib.DashMap

/-!
# Broadcast channels that forget

A channel that hands every message to each of its receivers and keeps no more than a fixed number of
messages. A receiver that is further behind is told how many messages it has missed and goes on with
the oldest one that is kept. Without receivers nothing is sent.

* `LossyChannel.Keeps`: the channel keeps the last of all messages sent, and `Keeps.recv` is what a
  receiver is told in terms of these.
* `Reads.told_append`: who has missed nothing has received everything but what is ahead.
-/

universe u

/-- What a receiver is told. -/
inductive Told (E : Type u)
  | got (e : E)
  | lagged (missed : ℕ)
  deriving DecidableEq, Repr

/-- `Reads told sent rest`: who was told this about the messages `sent` has `rest` of them ahead. -/
inductive Reads {E : Type u} : List (Told E) → List E → List E → Prop
  | nil (rest : List E) : Reads [] rest rest
  | got {told : List (Told E)} {sent rest : List E} (e : E) :
      Reads told sent rest → Reads (.got e :: told) (e :: sent) rest
  | lagged {told : List (Told E)} {sent rest : List E} (missed : List E) :
      missed ≠ [] → Reads told sent rest →
        Reads (.lagged missed.length :: told) (missed ++ sent) rest

namespace Reads

variable {E : Type u} {told : List (Told E)} {sent rest : List E}

/-- A further message is ahead of whoever has not been told of it. -/
theorem sent_append (h : Reads told sent rest) (e : E) :
    Reads told (sent ++ [e]) (rest ++ [e]) := by
  induction h with
  | nil rest => exact .nil _
  | got e' _ ih => exact .got e' ih
  | lagged missed hmissed _ ih =>
      rw [List.append_assoc]
      exact .lagged missed hmissed ih

/-- The next message is received. -/
theorem told_got {e : E} (h : Reads told sent (e :: rest)) :
    Reads (told ++ [.got e]) sent rest := by
  generalize hahead : e :: rest = ahead at h
  induction h with
  | nil ahead =>
      subst hahead
      exact .got e (.nil rest)
  | got e' _ ih => exact .got e' (ih hahead)
  | lagged missed hmissed _ ih => exact .lagged missed hmissed (ih hahead)

/-- The next messages are missed. -/
theorem told_lagged {missed : List E} (hmissed : missed ≠ [])
    (h : Reads told sent (missed ++ rest)) :
    Reads (told ++ [.lagged missed.length]) sent rest := by
  generalize hahead : missed ++ rest = ahead at h
  induction h with
  | nil ahead =>
      subst hahead
      exact .lagged missed hmissed (.nil rest)
  | got e' _ ih => exact .got e' (ih hahead)
  | lagged missed' hmissed' _ ih => exact .lagged missed' hmissed' (ih hahead)

/-- The number of messages that were received or missed. -/
def counted : List (Told E) → ℕ
  | [] => 0
  | .got _ :: told => counted told + 1
  | .lagged missed :: told => counted told + missed

/-- The numbers add up. -/
theorem counted_add_length (h : Reads told sent rest) :
    counted told + rest.length = sent.length := by
  induction h with
  | nil rest => exact Nat.zero_add _
  | got e _ ih =>
      rw [counted, List.length_cons]
      omega
  | lagged missed _ _ ih =>
      rw [counted, List.length_append]
      omega

/-- Who has missed nothing has received everything but what is ahead. -/
theorem told_append (h : Reads told sent rest) (hnone : ∀ n, .lagged n ∉ told) :
    told ++ rest.map .got = sent.map .got := by
  induction h with
  | nil rest => rfl
  | got e _ ih =>
      rw [List.cons_append, ih fun n hn => hnone n (List.mem_cons_of_mem _ hn), List.map_cons]
  | lagged missed _ _ _ => exact absurd List.mem_cons_self (hnone _)

end Reads

/-- A channel. Messages are numbered in the order in which they are sent; a receiver is the number
of the message it reads next. -/
structure LossyChannel (E : Type u) where
  capacity : ℕ
  /-- The number of the next message. -/
  tail : ℕ
  /-- The last messages. -/
  kept : List E
  receivers : DashMap ℕ ℕ

namespace LossyChannel

variable {E : Type u}

/-- A channel without receivers. -/
def new (capacity : ℕ) : LossyChannel E := ⟨capacity, 0, [], ∅⟩

/-- The number of the oldest message that is kept. -/
def oldest (c : LossyChannel E) : ℕ := c.tail - c.kept.length

/-- Send a message. -/
def send (c : LossyChannel E) (e : E) : LossyChannel E :=
  if c.receivers.entries = [] then c
  else
    let kept := c.kept ++ [e]
    { c with tail := c.tail + 1, kept := kept.drop (kept.length - c.capacity) }

/-- A new receiver, which begins with the next message. -/
def subscribe (c : LossyChannel E) (id : ℕ) : LossyChannel E :=
  { c with receivers := c.receivers.insert id c.tail }

/-- A receiver goes away. -/
def unsubscribe (c : LossyChannel E) (id : ℕ) : LossyChannel E :=
  { c with receivers := c.receivers.erase id }

/-- A receiver asks for a message; there is nothing to tell if it has read them all. -/
def recv (c : LossyChannel E) (id : ℕ) : Option (Told E × LossyChannel E) :=
  (c.receivers.lookup id).bind fun next =>
    if next < c.oldest then
      some (.lagged (c.oldest - next), { c with receivers := c.receivers.insert id c.oldest })
    else
      (c.kept[next - c.oldest]?).map fun e =>
        (.got e, { c with receivers := c.receivers.insert id (next + 1) })

/-- The channel keeps the last messages of those sent, and every receiver stands within them. -/
structure Keeps (c : LossyChannel E) (sent : List E) : Prop where
  tail : c.tail = sent.length
  kept : c.kept = sent.drop (sent.length - c.capacity)
  receivers : ∀ id next, c.receivers.lookup id = some next → next ≤ sent.length

/-- Nothing has been sent. -/
theorem keeps_new (capacity : ℕ) : (new capacity : LossyChannel E).Keeps [] where
  tail := rfl
  kept := List.drop_nil.symm
  receivers := fun id next h => by simp [new] at h

variable {c : LossyChannel E} {sent : List E}

/-- A message that is sent to receivers is the last one. -/
theorem Keeps.send (h : c.Keeps sent) (hreceivers : c.receivers.entries ≠ []) (e : E) :
    (c.send e).Keeps (sent ++ [e]) ∧ (c.send e).receivers = c.receivers ∧
      (c.send e).capacity = c.capacity := by
  unfold LossyChannel.send
  rw [if_neg hreceivers]
  refine ⟨⟨?_, ?_, fun id next hnext => ?_⟩, rfl, rfl⟩
  · rw [List.length_append, h.tail]
    rfl
  · show (c.kept ++ [e]).drop ((c.kept ++ [e]).length - c.capacity) =
      (sent ++ [e]).drop ((sent ++ [e]).length - c.capacity)
    rw [h.kept]
    -- Cutting twice is cutting once.
    have hcut : sent.drop (sent.length - c.capacity) ++ [e] =
        (sent ++ [e]).drop (sent.length - c.capacity) := by
      rw [List.drop_append_of_le_length (Nat.sub_le _ _)]
    rw [hcut, List.drop_drop, List.length_drop, List.length_append, List.length_singleton]
    congr 1
    omega
  · rw [List.length_append]
    exact (h.receivers id next hnext).trans (Nat.le_add_right _ _)

/-- Without receivers nothing is sent. -/
theorem send_of_none (hreceivers : c.receivers.entries = []) (e : E) : c.send e = c :=
  if_pos hreceivers

/-- The oldest message that is kept. -/
theorem Keeps.oldest_eq (h : c.Keeps sent) : c.oldest = sent.length - c.capacity := by
  unfold oldest
  rw [h.tail, h.kept, List.length_drop]
  omega

/-- What a receiver is told, in terms of the messages sent: the next one, or, if there is more ahead
than is kept, how many of them are missed. -/
theorem Keeps.recv (h : c.Keeps sent) {id next : ℕ} (hnext : c.receivers.lookup id = some next)
    {told : Told E} {c' : LossyChannel E} (hrecv : c.recv id = some (told, c')) :
    (∃ e rest, sent.drop next = e :: rest ∧ told = .got e ∧
        sent.length - next ≤ c.capacity ∧
        c' = { c with receivers := c.receivers.insert id (next + 1) } ∧ next + 1 ≤ sent.length) ∨
      ∃ missed rest, sent.drop next = missed ++ rest ∧ missed ≠ [] ∧ told = .lagged missed.length ∧
        c.capacity < sent.length - next ∧
        c' = { c with receivers := c.receivers.insert id (next + missed.length) } ∧
        next + missed.length ≤ sent.length := by
  unfold LossyChannel.recv at hrecv
  rw [hnext, Option.bind_some, h.oldest_eq] at hrecv
  split at hrecv
  next hlt =>
    cases hrecv
    refine .inr ⟨(sent.drop next).take (sent.length - c.capacity - next),
      (sent.drop next).drop (sent.length - c.capacity - next), (List.take_append_drop _ _).symm,
      ?_, ?_, by omega, ?_, ?_⟩
    · rw [ne_eq, ← List.length_eq_zero_iff, List.length_take, List.length_drop]
      omega
    · rw [List.length_take, List.length_drop]
      congr 1
      omega
    · rw [List.length_take, List.length_drop]
      congr 2
      omega
    · rw [List.length_take, List.length_drop]
      omega
  next hle =>
    obtain ⟨e, he, heq⟩ := Option.map_eq_some_iff.mp hrecv
    cases heq
    rw [h.kept, List.getElem?_drop] at he
    have hindex : sent.length - c.capacity + (next - (sent.length - c.capacity)) = next := by omega
    rw [hindex] at he
    obtain ⟨hlt, rfl⟩ := List.getElem?_eq_some_iff.mp he
    exact .inl ⟨sent[next], sent.drop (next + 1), List.drop_eq_getElem_cons hlt, rfl, by omega,
      rfl, hlt⟩

/-- There is nothing to tell only to a receiver that has read everything. -/
theorem Keeps.recv_eq_none (h : c.Keeps sent) {id next : ℕ}
    (hnext : c.receivers.lookup id = some next) (hnone : c.recv id = none) :
    sent.drop next = [] := by
  unfold LossyChannel.recv at hnone
  rw [hnext, Option.bind_some, h.oldest_eq] at hnone
  split at hnone
  next => cases hnone
  next hle =>
    rw [Option.map_eq_none_iff, h.kept, List.getElem?_drop] at hnone
    have hindex : sent.length - c.capacity + (next - (sent.length - c.capacity)) = next := by omega
    rw [hindex, List.getElem?_eq_none_iff] at hnone
    exact List.drop_of_length_le hnone

end LossyChannel

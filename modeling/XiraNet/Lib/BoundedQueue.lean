import Mathlib.Data.List.Basic

/-!
# Bounded queues

A queue for a number of elements at most, as a channel between a sender who does not wait and a
receiver.
-/

universe u

/-- A queue with a capacity. -/
structure BoundedQueue (E : Type u) where
  capacity : ℕ
  items : List E
  length_le : items.length ≤ capacity

namespace BoundedQueue

variable {E : Type u}

/-- A queue without elements. -/
def empty (capacity : ℕ) : BoundedQueue E := ⟨capacity, [], Nat.zero_le _⟩

/-- The number of free places. -/
def free (q : BoundedQueue E) : ℕ := q.capacity - q.items.length

/-- Add an element at the end, unless the queue is full. -/
def trySend (q : BoundedQueue E) (e : E) : Option (BoundedQueue E) :=
  if h : q.items.length < q.capacity then
    some ⟨q.capacity, q.items ++ [e], by rw [List.length_append]; exact h⟩
  else none

/-- Take the first element. -/
def recv (q : BoundedQueue E) : Option (E × BoundedQueue E) :=
  match h : q.items with
  | [] => none
  | e :: rest =>
      some (e, ⟨q.capacity, rest, by have := q.length_le; rw [h, List.length_cons] at this; omega⟩)

variable {q q' : BoundedQueue E} {e : E}

/-- A full queue takes nothing more. -/
theorem trySend_of_full (h : q.free = 0) (e : E) : q.trySend e = none := by
  refine dif_neg ?_
  unfold free at h
  omega

/-- A queue with a free place takes an element. -/
theorem trySend_of_free (h : 0 < q.free) (e : E) :
    ∃ q', q.trySend e = some q' ∧ q'.items = q.items ++ [e] ∧ q'.capacity = q.capacity := by
  unfold free at h
  exact ⟨_, dif_pos (by omega), rfl, rfl⟩

/-- There is something to take unless the queue is empty. -/
theorem recv_eq_none_iff : q.recv = none ↔ q.items = [] := by
  unfold recv
  split
  next h => exact iff_of_true rfl h
  next h => exact iff_of_false (by simp) (by simp [h])

/-- What is taken is the first element. -/
theorem items_of_recv (h : q.recv = some (e, q')) :
    q.items = e :: q'.items ∧ q'.capacity = q.capacity := by
  unfold recv at h
  split at h
  next => cases h
  next hitems =>
    cases h
    exact ⟨hitems, rfl⟩

end BoundedQueue

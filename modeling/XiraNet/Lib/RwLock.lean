import Mathlib.Data.List.Basic

/-!
# Reader-writer locks

Locks that are held by any number of readers or by one writer, and that a holder cannot take once
more. An operation that has to wait is not enabled.

* `RwLock.act_write_eq_none`: while there is a reader, nobody writes.
* `RwLock.mem_readers_act`: what others do does not take a reader its guard.
-/

universe u

/-- The holders of a lock. -/
structure RwLock (ι : Type u) where
  readers : List ι
  writer : Option ι
  deriving DecidableEq

namespace RwLock

variable {ι : Type u} [DecidableEq ι]

/-- A lock that nobody holds. -/
def free : RwLock ι := ⟨[], none⟩

/-- What a thread does with a lock. -/
inductive Op
  | read
  | write
  | dropRead
  | dropWrite
  deriving DecidableEq, Repr

/-- The lock after an operation of the thread `i`. -/
def act (l : RwLock ι) (i : ι) : Op → Option (RwLock ι)
  | .read => if l.writer = none then some { l with readers := i :: l.readers } else none
  | .write => if l.writer = none ∧ l.readers = [] then some { l with writer := some i } else none
  | .dropRead => if i ∈ l.readers then some { l with readers := l.readers.erase i } else none
  | .dropWrite => if l.writer = some i then some { l with writer := none } else none

variable {l l' : RwLock ι} {i j : ι}

/-- While there is a reader, nobody can start to write, the reader included. -/
theorem act_write_eq_none (h : i ∈ l.readers) (j : ι) : l.act j .write = none :=
  if_neg fun hfree => List.ne_nil_of_mem h hfree.2

/-- A reader keeps its guard, whatever others do. -/
theorem mem_readers_act {op : Op} (h : i ∈ l.readers) (hne : i ≠ j) (hact : l.act j op = some l') :
    i ∈ l'.readers := by
  cases op with
  | read =>
      obtain ⟨-, hact⟩ := Option.ite_none_right_eq_some.mp hact
      cases hact
      exact List.mem_cons_of_mem _ h
  | write =>
      rw [act_write_eq_none h] at hact
      cases hact
  | dropRead =>
      obtain ⟨-, hact⟩ := Option.ite_none_right_eq_some.mp hact
      cases hact
      exact (List.mem_erase_of_ne hne).mpr h
  | dropWrite =>
      obtain ⟨-, hact⟩ := Option.ite_none_right_eq_some.mp hact
      cases hact
      exact h

end RwLock

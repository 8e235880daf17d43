import Mathlib.Data.List.AList

/-!
# Least recently used caches

A map of bounded size that forgets the entry used longest ago. The entries are kept in the order
of their last use, the latest first; looking an entry up is a use of it.

* `peek_get`: looking an entry up forgets nothing.
* `peek_put_self`, `peek_of_peek_put`: a new entry is found, and every other entry that is found
  was there before.
-/

universe u v

/-- A cache of at most `cap` entries, the entry used last in front. -/
structure LruCache (K : Type u) (V : Type v) where
  cap : ℕ
  items : AList fun _ : K => V
  cap_pos : 0 < cap
  length_le : items.entries.length ≤ cap

namespace LruCache

variable {K : Type u} {V : Type v} [DecidableEq K]

/-- The empty cache. -/
def new (cap : ℕ) (h : 0 < cap) : LruCache K V := ⟨cap, ∅, h, Nat.zero_le _⟩

/-- The entry of a key, without using it. -/
def peek (c : LruCache K V) (k : K) : Option V := c.items.lookup k

/-- A map whose first entries fill a cache. -/
def ofItems (cap : ℕ) (h : 0 < cap) (items : AList fun _ : K => V) : LruCache K V where
  cap := cap
  items := ⟨items.entries.take cap, items.nodupKeys.sublist (List.take_sublist _ _)⟩
  cap_pos := h
  length_le := List.length_take_le _ _

/-- Store an entry, which counts as a use of it. When the cache is full, the entry used longest
ago is dropped. -/
def put (c : LruCache K V) (k : K) (x : V) : LruCache K V :=
  ofItems c.cap c.cap_pos (c.items.insert k x)

/-- Look an entry up and use it. -/
def get (c : LruCache K V) (k : K) : Option V × LruCache K V :=
  match c.peek k with
  | some x => (some x, c.put k x)
  | none => (none, c)

/-- Remove an entry. -/
def pop (c : LruCache K V) (k : K) : LruCache K V where
  cap := c.cap
  items := c.items.erase k
  cap_pos := c.cap_pos
  length_le := le_trans (List.kerase_sublist k _).length_le c.length_le

/-- Remove every entry. -/
def clear (c : LruCache K V) : LruCache K V := new c.cap c.cap_pos

/-- The empty cache finds nothing. -/
@[simp]
theorem peek_new (cap : ℕ) (h : 0 < cap) (k : K) : (new cap h : LruCache K V).peek k = none :=
  AList.lookup_empty k

/-- A cleared cache finds nothing. -/
@[simp]
theorem peek_clear (c : LruCache K V) (k : K) : c.clear.peek k = none := peek_new _ _ k

/-- What is found after a removal. -/
theorem peek_pop (c : LruCache K V) (k k' : K) :
    (c.pop k).peek k' = if k' = k then none else c.peek k' := by
  split
  next h =>
    subst h
    exact AList.lookup_erase _ c.items
  next h => exact AList.lookup_erase_ne h

/-- What is found among the first entries of a map is found in the map. -/
theorem lookup_of_peek_ofItems {cap : ℕ} {h : 0 < cap} {items : AList fun _ : K => V} {k : K}
    {x : V} (hx : (ofItems cap h items).peek k = some x) : items.lookup k = some x := by
  apply AList.mem_lookup_iff.mpr
  exact List.mem_of_mem_take (AList.mem_lookup_iff.mp hx)

/-- A new entry is found: there is room for at least one. -/
@[simp]
theorem peek_put_self (c : LruCache K V) (k : K) (x : V) : (c.put k x).peek k = some x := by
  apply AList.mem_lookup_iff.mpr
  show _ ∈ (c.items.insert k x).entries.take c.cap
  -- The entry stands in front, where nothing is dropped.
  obtain ⟨n, hn⟩ := Nat.exists_eq_succ_of_ne_zero (Nat.ne_of_gt c.cap_pos)
  rw [AList.entries_insert, hn, List.take_succ_cons]
  exact List.mem_cons_self

/-- An entry that is found after another one was stored was there before. -/
theorem peek_of_peek_put {c : LruCache K V} {k k' : K} {x y : V} (hne : k' ≠ k)
    (h : (c.put k x).peek k' = some y) : c.peek k' = some y :=
  (AList.lookup_insert_ne hne).symm.trans (lookup_of_peek_ofItems h)

/-- Storing what is there already forgets nothing. -/
theorem peek_put_of_peek {c : LruCache K V} {k : K} {x : V} (h : c.peek k = some x) (k' : K) :
    (c.put k x).peek k' = c.peek k' := by
  -- One entry leaves its place for the front, so the number of entries stays the same.
  have hlength : (c.items.insert k x).entries.length ≤ c.cap := by
    have hmem : k ∈ c.items.keys :=
      List.mem_keys_of_mem (AList.mem_lookup_iff.mp h)
    obtain ⟨y, l₁, l₂, -, hsplit, herase⟩ := List.exists_of_kerase hmem
    have hle := c.length_le
    rw [hsplit] at hle
    rw [AList.entries_insert, herase]
    simpa [Nat.add_assoc] using hle
  -- So nothing is dropped.
  have hitems : (c.put k x).items = c.items.insert k x := by
    apply AList.ext
    exact List.take_of_length_le hlength
  unfold peek
  rw [hitems]
  by_cases hk : k' = k
  · subst hk
    rw [AList.lookup_insert]
    exact h.symm
  · exact AList.lookup_insert_ne hk

/-- What a lookup finds. -/
@[simp]
theorem get_fst (c : LruCache K V) (k : K) : (c.get k).1 = c.peek k := by
  unfold get
  cases c.peek k <;> rfl

/-- Looking an entry up forgets nothing. -/
@[simp]
theorem peek_get (c : LruCache K V) (k k' : K) : (c.get k).2.peek k' = c.peek k' := by
  unfold get
  split
  next x h => exact peek_put_of_peek h k'
  next => rfl

end LruCache

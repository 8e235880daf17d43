import XiraNet.Lib.DashMap

/-!
# The values of a map

The values of a map as a multiset, and how many of them have a property, before and after one
operation on the map.
-/

universe u v

namespace DashMap

variable {K : Type u} {V : Type v}

/-- The number of values with a property. -/
def count (m : DashMap K V) (p : V → Bool) : ℕ := m.values.countP p

/-- Nothing is counted in an empty map. -/
@[simp]
theorem count_empty (p : V → Bool) : count (∅ : DashMap K V) p = 0 := rfl

variable [DecidableEq K]

/-- Removing a key takes its value off the values. -/
theorem perm_values_erase {m : DashMap K V} {k : K} {x : V} (h : m.lookup k = some x) :
    m.values.Perm (x :: values (m.erase k)) := by
  have hk : k ∈ m.entries.keys := AList.lookup_isSome.mp (Option.isSome_of_eq_some h)
  obtain ⟨y, before, after, -, hsplit, herase⟩ := List.exists_of_kerase hk
  have hy : m.lookup k = some y := by
    rw [← Option.mem_def, AList.mem_lookup_iff, hsplit]
    exact List.mem_append_right _ List.mem_cons_self
  obtain rfl : x = y := Option.some.inj (h.symm.trans hy)
  show (m.entries.map Sigma.snd).Perm (x :: (m.entries.kerase k).map Sigma.snd)
  rw [herase, hsplit, List.map_append, List.map_cons, List.map_append]
  exact List.perm_middle

/-- Removing a key that is not there leaves the values. -/
theorem values_erase_of_none {m : DashMap K V} {k : K} (h : m.lookup k = none) :
    values (m.erase k) = m.values := by
  have hk : k ∉ m.entries.keys := AList.lookup_eq_none.mp h
  show (m.entries.kerase k).map Sigma.snd = m.entries.map Sigma.snd
  rw [List.kerase_of_notMem_keys hk]

/-- The values after an insertion. -/
theorem values_insert (m : DashMap K V) (k : K) (x : V) :
    values (m.insert k x) = x :: values (m.erase k) := by
  unfold values
  rw [AList.entries_insert, List.map_cons]
  rfl

/-- What a removal takes off the number. -/
theorem count_erase (m : DashMap K V) (k : K) (p : V → Bool) :
    count (m.erase k) p + (m.lookup k).toList.countP p = m.count p := by
  cases h : m.lookup k with
  | none =>
      unfold count
      rw [values_erase_of_none h]
      rfl
  | some x =>
      unfold count
      rw [(perm_values_erase h).countP_eq, List.countP_cons, Option.toList_some,
        List.countP_singleton]

/-- What an insertion adds to the number and takes off it. -/
theorem count_insert (m : DashMap K V) (k : K) (x : V) (p : V → Bool) :
    count (m.insert k x) p + (m.lookup k).toList.countP p = m.count p + if p x then 1 else 0 := by
  have herase := count_erase m k p
  have hinsert : count (m.insert k x) p = count (m.erase k) p + if p x then 1 else 0 := by
    unfold count
    rw [values_insert, List.countP_cons]
  omega

/-- What is stored under a key, or removed, changes the number by what was there and what is. -/
theorem count_put (m : DashMap K V) (k : K) (x : Option V) (p : V → Bool) :
    count (m.put k x) p + (m.lookup k).toList.countP p = m.count p + x.toList.countP p := by
  cases x with
  | none => simpa [put] using count_erase m k p
  | some x => simpa [put, List.countP_cons] using count_insert m k x p

end DashMap

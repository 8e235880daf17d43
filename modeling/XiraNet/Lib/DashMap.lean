import Mathlib.Data.List.AList
import Mathlib.Data.List.Sort

/-!
# Maps with locked entries

A concurrent map whose single operations are atomic, as an association list without repeated
keys. The order of the list is the order in which an iteration meets the entries.
-/

universe u v

/-- A map from `K` to `V`. -/
abbrev DashMap (K : Type u) (V : Type v) := AList fun _ : K => V

namespace DashMap

variable {K : Type u} {V : Type v} [DecidableEq K]

/-- What is found after an insertion. -/
theorem lookup_insert (m : DashMap K V) (k k' : K) (x : V) :
    (m.insert k x).lookup k' = if k' = k then some x else m.lookup k' := by
  split
  next h =>
    subst h
    exact AList.lookup_insert m
  next h => exact AList.lookup_insert_ne h

/-- What is found after a removal. -/
theorem lookup_erase (m : DashMap K V) (k k' : K) :
    (m.erase k).lookup k' = if k' = k then none else m.lookup k' := by
  split
  next h =>
    subst h
    exact AList.lookup_erase _ m
  next h => exact AList.lookup_erase_ne h

/-- What is found after an insertion is the new value or was there before. -/
theorem lookup_insert_cases {m : DashMap K V} {k k' : K} {x y : V}
    (h : (m.insert k x).lookup k' = some y) :
    k' = k ∧ y = x ∨ k' ≠ k ∧ m.lookup k' = some y := by
  rw [lookup_insert] at h
  split at h
  next heq => exact .inl ⟨heq, (Option.some.inj h).symm⟩
  next hne => exact .inr ⟨hne, h⟩

/-- What is found after a removal was there before. -/
theorem lookup_erase_cases {m : DashMap K V} {k k' : K} {y : V}
    (h : (m.erase k).lookup k' = some y) : k' ≠ k ∧ m.lookup k' = some y := by
  rw [lookup_erase] at h
  split at h
  next => cases h
  next hne => exact ⟨hne, h⟩

/-- A map whose values stand under their own keys stays so when one more is inserted. -/
theorem keyed_insert {key : V → K} {m : DashMap K V}
    (hm : ∀ k x, m.lookup k = some x → key x = k) (x : V) (k : K) (y : V)
    (h : (m.insert (key x) x).lookup k = some y) : key y = k := by
  rcases lookup_insert_cases h with ⟨rfl, rfl⟩ | ⟨-, hold⟩
  · rfl
  · exact hm k y hold

/-- A map that is filled with values under their own keys. -/
theorem keyed_foldl_insert {key : V → K} (xs : List V) {m : DashMap K V}
    (hm : ∀ k x, m.lookup k = some x → key x = k) (k : K) (y : V)
    (h : (xs.foldl (fun m x => m.insert (key x) x) m).lookup k = some y) : key y = k := by
  induction xs generalizing m with
  | nil => exact hm k y h
  | cons x xs ih => exact ih (keyed_insert hm x) h

/-- Update the entry of `k`, if there is one (`get_mut`). -/
def modify (m : DashMap K V) (k : K) (f : V → V) : DashMap K V :=
  match m.lookup k with
  | some x => m.insert k (f x)
  | none => m

/-- What is found after an update. -/
theorem lookup_modify (m : DashMap K V) (k k' : K) (f : V → V) :
    (m.modify k f).lookup k' = if k' = k then (m.lookup k).map f else m.lookup k' := by
  unfold modify
  cases hk : m.lookup k with
  | none =>
      by_cases h : k' = k
      · subst h
        simpa using hk
      · simp [h]
  | some x => simp [lookup_insert]

/-- Store a value under a key, or remove the key. -/
def put (m : DashMap K V) (k : K) : Option V → DashMap K V
  | some x => m.insert k x
  | none => m.erase k

/-- What is found after an entry was stored or removed. -/
theorem lookup_put (m : DashMap K V) (k k' : K) (x : Option V) :
    (m.put k x).lookup k' = if k' = k then x else m.lookup k' := by
  cases x with
  | some x => exact lookup_insert m k k' x
  | none => exact lookup_erase m k k'

/-- Keep the entries that satisfy `p` (`retain`). -/
def retain (m : DashMap K V) (p : K → V → Bool) : DashMap K V :=
  ⟨m.entries.filter fun e => p e.1 e.2, m.nodupKeys.sublist List.filter_sublist⟩

/-- What is found after entries were dropped. -/
theorem lookup_retain (m : DashMap K V) (p : K → V → Bool) (k : K) :
    (m.retain p).lookup k = (m.lookup k).filter (p k) := by
  refine Option.ext fun x => ?_
  have hkept : (m.retain p).lookup k = some x ↔ m.lookup k = some x ∧ p k x = true := by
    rw [← Option.mem_def, AList.mem_lookup_iff, ← Option.mem_def, AList.mem_lookup_iff]
    exact List.mem_filter
  rw [hkept, Option.filter_eq_some_iff]

omit [DecidableEq K] in
/-- Dropping entries makes a map no longer. -/
theorem length_retain_le (m : DashMap K V) (p : K → V → Bool) :
    (m.retain p).entries.length ≤ m.entries.length :=
  List.length_filter_le _ _

/-- Removing a key makes a map no longer. -/
theorem length_erase_le (m : DashMap K V) (k : K) :
    (m.erase k).entries.length ≤ m.entries.length := by
  have h := (List.erase_sublist (a := k) (l := m.keys)).length_le
  rw [← AList.keys_erase] at h
  simpa only [AList.keys, List.keys, List.length_map] using h

/-- Removing a key that is there makes a map shorter. -/
theorem length_erase_lt {m : DashMap K V} {k : K} {x : V} (h : m.lookup k = some x) :
    (m.erase k).entries.length < m.entries.length := by
  have hmem : k ∈ m.keys := AList.lookup_isSome.mp (Option.isSome_of_eq_some h)
  have hlength := List.length_erase_of_mem hmem
  have hpos := List.length_pos_of_mem hmem
  rw [← AList.keys_erase] at hlength
  simp only [AList.keys, List.keys, List.length_map] at hlength hpos
  omega

/-- An insertion adds at most one entry. -/
theorem length_insert_le (m : DashMap K V) (k : K) (x : V) :
    (m.insert k x).entries.length ≤ m.entries.length + 1 := by
  have h := length_erase_le m k
  rw [AList.entries_insert, List.length_cons]
  exact Nat.succ_le_succ h

/-- The values in iteration order. -/
def values (m : DashMap K V) : List V := m.entries.map Sigma.snd

/-- A value that iteration meets is found under some key. -/
theorem mem_values_iff (m : DashMap K V) (x : V) : x ∈ m.values ↔ ∃ k, m.lookup k = some x := by
  simp only [values, List.mem_map]
  constructor
  · rintro ⟨⟨k, y⟩, hmem, rfl⟩
    exact ⟨k, AList.mem_lookup_iff.mpr hmem⟩
  · rintro ⟨k, hk⟩
    exact ⟨⟨k, x⟩, AList.mem_lookup_iff.mp hk, rfl⟩

omit [DecidableEq K] in
/-- The values do not depend on the order of the iteration. -/
theorem mem_values_of_perm {m m' : DashMap K V} (h : m'.entries.Perm m.entries) (x : V) :
    x ∈ m'.values ↔ x ∈ m.values :=
  (h.map Sigma.snd).mem_iff

/-- The entries in the order of their keys. -/
def sorted [LinearOrder K] (m : DashMap K V) : List (Sigma fun _ : K => V) :=
  m.entries.insertionSort fun a b => a.1 ≤ b.1

omit [DecidableEq K] in
/-- The order of the keys does not depend on the order of the iteration. -/
theorem sorted_of_perm [LinearOrder K] {m m' : DashMap K V} (h : m'.entries.Perm m.entries) :
    m'.sorted = m.sorted := by
  have hperm := List.perm_insertionSort (fun a b : Sigma fun _ : K => V => a.1 ≤ b.1)
  have hsorted (n : DashMap K V) : n.sorted.Pairwise fun a b => a.1 ≤ b.1 :=
    List.pairwise_insertionSort (fun a b : Sigma fun _ : K => V => a.1 ≤ b.1) n.entries
  refine List.Perm.eq_of_pairwise ?_ (hsorted m') (hsorted m)
    ((hperm _).trans (h.trans (hperm _).symm))
  intro a b ha hb hab hba
  -- Two entries with the same key are the same.
  have ha : a ∈ m.entries := h.mem_iff.mp ((hperm _).mem_iff.mp ha)
  exact m.nodupKeys.eq_of_fst_eq ha ((hperm _).mem_iff.mp hb) (le_antisymm hab hba)

/-- Filling a map under pairwise different keys. -/
theorem lookup_foldl_insert_of {X : Type*} (key : X → K) (val : X → V) (xs : List X)
    (m : DashMap K V) (k : K) (hkeys : xs.Pairwise fun x y => key x ≠ key y) :
    (xs.foldl (fun m x => m.insert (key x) (val x)) m).lookup k =
      ((xs.find? fun x => key x = k).map val).or (m.lookup k) := by
  induction xs generalizing m with
  | nil => rfl
  | cons x xs ih =>
      obtain ⟨hx, hrest⟩ := List.pairwise_cons.mp hkeys
      rw [List.foldl_cons, ih _ hrest, lookup_insert]
      -- Keys do not repeat, so no later value overwrites this one.
      by_cases h : key x = k
      · have hnone : (xs.find? fun y => key y = k) = none := by
          rw [List.find?_eq_none]
          intro y hy
          simpa [← h] using (hx y hy).symm
        simp [h, hnone]
      · simp [h, Ne.symm h]

/-- Filling a map with values under pairwise different keys. -/
theorem lookup_foldl_insert (key : V → K) (xs : List V) (m : DashMap K V) (k : K)
    (hkeys : xs.Pairwise fun x y => key x ≠ key y) :
    (xs.foldl (fun m x => m.insert (key x) x) m).lookup k =
      (xs.find? fun x => key x = k).or (m.lookup k) := by
  rw [lookup_foldl_insert_of key (fun x => x) xs m k hkeys, Option.map_id']

/-- What is found in a map that was filled under pairwise different keys. -/
theorem lookup_foldl_insert_iff {X : Type*} (key : X → K) (val : X → V) (xs : List X) (k : K)
    (v : V) (hkeys : xs.Pairwise fun x y => key x ≠ key y) :
    (xs.foldl (fun m x => m.insert (key x) (val x)) (∅ : DashMap K V)).lookup k = some v ↔
      ∃ x ∈ xs, key x = k ∧ val x = v := by
  rw [lookup_foldl_insert_of key val xs ∅ k hkeys, AList.lookup_empty, Option.or_none,
    Option.map_eq_some_iff]
  constructor
  · rintro ⟨x, hfind, hval⟩
    exact ⟨x, List.mem_of_find?_eq_some hfind,
      by simpa using List.find?_some (p := fun x => decide (key x = k)) hfind, hval⟩
  · rintro ⟨x, hmem, hkey, hval⟩
    have hsome : (xs.find? fun y => decide (key y = k)).isSome := by
      rw [List.find?_isSome]
      exact ⟨x, hmem, decide_eq_true hkey⟩
    obtain ⟨y, hy⟩ := Option.isSome_iff_exists.mp hsome
    have hykey : key y = k := by
      simpa using List.find?_some (p := fun x => decide (key x = k)) hy
    have hnodup : (xs.map key).Nodup := List.pairwise_map.mpr hkeys
    have hxy : y = x :=
      List.inj_on_of_nodup_map hnodup (List.mem_of_find?_eq_some hy) hmem (hykey.trans hkey.symm)
    exact ⟨y, hy, hxy ▸ hval⟩

end DashMap

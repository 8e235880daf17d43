import Mathlib.Data.List.Nodup
import Mathlib.Data.List.Perm.Basic
import Mathlib.Order.Basic
import Mathlib.Order.Lattice

/-!
# Sorted maps

A map as a list of keys and values in the order of the keys. What is found after an operation does
not depend on the order; that a map is sorted makes it the only one with its keys and values.

* `lookup_insert` and `lookup_erase`: what is found after an operation.
* `Sorted.ext`: two maps are equal if the same is found in them.
-/

universe u v

namespace SortedMap

variable {K : Type u} {V : Type v}

/-- The keys ascend. -/
def Sorted [LT K] (m : List (K × V)) : Prop := m.Pairwise fun a b => a.1 < b.1

/-- Remove a key. -/
def erase [DecidableEq K] (m : List (K × V)) (k : K) : List (K × V) := m.filter (·.1 ≠ k)

/-- Insert a value, or replace the one that is there. -/
def insert [LinearOrder K] (m : List (K × V)) (k : K) (x : V) : List (K × V) :=
  match m with
  | [] => [(k, x)]
  | (k', x') :: rest =>
      if k < k' then (k, x) :: (k', x') :: rest
      else if k = k' then (k, x) :: rest
      else (k', x') :: insert rest k x

/-- Change the value of a key, if it has one. -/
def modify [DecidableEq K] (m : List (K × V)) (k : K) (f : V → V) : List (K × V) :=
  match m with
  | [] => []
  | (k', x) :: rest => if k = k' then (k', f x) :: rest else (k', x) :: modify rest k f

variable [LinearOrder K] [BEq K] [LawfulBEq K]

omit [LinearOrder K] in
/-- What is found in a map with a first entry. -/
theorem lookup_cons (k k' : K) (x : V) (m : List (K × V)) [Decidable (k' = k)] :
    ((k, x) :: m).lookup k' = if k' = k then some x else m.lookup k' := by
  rw [List.lookup_cons]
  by_cases h : k' = k
  · rw [beq_iff_eq.mpr h, if_pos h]
  · rw [beq_eq_false_iff_ne.mpr h, if_neg h]

/-- What is found after an insertion. -/
theorem lookup_insert (m : List (K × V)) (k k' : K) (x : V) :
    (insert m k x).lookup k' = if k' = k then some x else m.lookup k' := by
  induction m with
  | nil => simp only [insert, lookup_cons]
  | cons e m ih =>
      obtain ⟨k'', x''⟩ := e
      rw [insert]
      split
      next => exact lookup_cons ..
      next =>
        split
        next heq =>
          subst heq
          simp only [lookup_cons]
          split <;> rfl
        next hne =>
          simp only [lookup_cons, ih]
          by_cases h : k' = k''
          · subst h
            simp [Ne.symm hne]
          · simp [h]

omit [BEq K] [LawfulBEq K] in
/-- A removal from a map with a first entry. -/
theorem erase_cons (k k' : K) (x : V) (m : List (K × V)) :
    erase ((k, x) :: m) k' = if k = k' then erase m k' else (k, x) :: erase m k' := by
  by_cases h : k = k' <;> simp [erase, h]

/-- What is found after a removal. -/
theorem lookup_erase (m : List (K × V)) (k k' : K) :
    (erase m k).lookup k' = if k' = k then none else m.lookup k' := by
  induction m with
  | nil => simp [erase]
  | cons e m ih =>
      obtain ⟨k'', x''⟩ := e
      rw [erase_cons, lookup_cons]
      by_cases hk : k'' = k
      · subst hk
        rw [if_pos rfl, ih]
        by_cases h : k' = k'' <;> simp [h]
      · rw [if_neg hk, lookup_cons, ih]
        by_cases h : k' = k''
        · subst h
          simp [hk]
        · simp [h]

omit [LinearOrder K] in
/-- What is found after a change of the values. -/
theorem lookup_map (m : List (K × V)) (f : V → V) (k : K) :
    (m.map fun e => (e.1, f e.2)).lookup k = (m.lookup k).map f := by
  classical
  induction m with
  | nil => rfl
  | cons e m ih =>
      obtain ⟨k', x'⟩ := e
      rw [List.map_cons, lookup_cons, lookup_cons, ih]
      split <;> rfl

omit [LinearOrder K] in
/-- What is found after a change of one value. -/
theorem lookup_modify [DecidableEq K] (m : List (K × V)) (k k' : K) (f : V → V) :
    (modify m k f).lookup k' = if k' = k then (m.lookup k').map f else m.lookup k' := by
  induction m with
  | nil => simp [modify]
  | cons e m ih =>
      obtain ⟨k'', x⟩ := e
      rw [modify]
      split
      next heq =>
        subst heq
        rw [lookup_cons, lookup_cons]
        split <;> simp
      next hne =>
        rw [lookup_cons, lookup_cons, ih]
        by_cases h : k' = k''
        · subst h
          simp [Ne.symm hne]
        · simp [h]

omit [LinearOrder K] [BEq K] [LawfulBEq K] in
/-- Two changes of the same value. -/
theorem modify_modify_self [DecidableEq K] (m : List (K × V)) (k : K) (f g : V → V) :
    modify (modify m k g) k f = modify m k fun x => f (g x) := by
  induction m with
  | nil => rfl
  | cons e m ih =>
      obtain ⟨k', x⟩ := e
      by_cases h : k = k'
      · simp [modify, h]
      · simp [modify, h, ih]

omit [LinearOrder K] [BEq K] [LawfulBEq K] in
/-- Changes of different values. -/
theorem modify_comm [DecidableEq K] (m : List (K × V)) {k k' : K} (hne : k ≠ k') (f g : V → V) :
    modify (modify m k' g) k f = modify (modify m k f) k' g := by
  induction m with
  | nil => rfl
  | cons e m ih =>
      obtain ⟨k'', x⟩ := e
      by_cases h : k = k''
      · subst h
        simp [modify, Ne.symm hne]
      · by_cases h' : k' = k''
        · subst h'
          simp [modify, h]
        · simp [modify, h, h', ih]

omit [LinearOrder K] in
/-- A change depends on the value that it finds. -/
theorem modify_congr [DecidableEq K] {m : List (K × V)} {k : K} {x : V} {f g : V → V}
    (hlookup : m.lookup k = some x) (h : f x = g x) : modify m k f = modify m k g := by
  induction m with
  | nil => rfl
  | cons e m ih =>
      obtain ⟨k', x'⟩ := e
      rw [lookup_cons] at hlookup
      rw [modify, modify]
      split at hlookup
      next heq => rw [if_pos heq, if_pos heq, Option.some.inj hlookup, h]
      next hne => rw [if_neg hne, if_neg hne, ih hlookup]

omit [LinearOrder K] [BEq K] [LawfulBEq K] in
/-- The keys after a change. -/
theorem keys_modify [DecidableEq K] (m : List (K × V)) (k : K) (f : V → V) :
    (modify m k f).map Prod.fst = m.map Prod.fst := by
  induction m with
  | nil => rfl
  | cons e m ih =>
      obtain ⟨k', x⟩ := e
      rw [modify]
      split
      next => rfl
      next => rw [List.map_cons, ih, List.map_cons]

omit [LinearOrder K] in
/-- What is found is an entry. -/
theorem mem_of_lookup {m : List (K × V)} {k : K} {x : V} (h : m.lookup k = some x) :
    (k, x) ∈ m := by
  classical
  induction m with
  | nil => cases h
  | cons e m ih =>
      obtain ⟨k', x'⟩ := e
      rw [lookup_cons] at h
      split at h
      next heq => exact heq ▸ Option.some.inj h ▸ List.mem_cons_self
      next => exact List.mem_cons_of_mem _ (ih h)

omit [LinearOrder K] in
/-- Where keys are unique, an entry is found. -/
theorem lookup_of_mem {m : List (K × V)} (hnodup : (m.map Prod.fst).Nodup) {k : K} {x : V}
    (h : (k, x) ∈ m) : m.lookup k = some x := by
  classical
  induction m with
  | nil => cases h
  | cons e m ih =>
      obtain ⟨k', x'⟩ := e
      obtain ⟨hfirst, hrest⟩ := List.nodup_cons.mp hnodup
      rw [lookup_cons]
      rcases List.mem_cons.mp h with heq | hlater
      · obtain ⟨rfl, rfl⟩ := Prod.mk.inj heq
        exact if_pos rfl
      · have hne : k ≠ k' := by
          rintro rfl
          exact hfirst (List.mem_map.mpr ⟨(k, x), hlater, rfl⟩)
        rw [if_neg hne, ih hrest hlater]

omit [LinearOrder K] in
/-- Where keys are unique, the order does not matter for what is found. -/
theorem lookup_perm {m m' : List (K × V)} (hnodup : (m.map Prod.fst).Nodup) (hperm : m'.Perm m)
    (k : K) : m'.lookup k = m.lookup k := by
  have hnodup' : (m'.map Prod.fst).Nodup := (hperm.map _).nodup_iff.mpr hnodup
  cases hk : m'.lookup k with
  | some x => exact (lookup_of_mem hnodup (hperm.subset (mem_of_lookup hk))).symm
  | none =>
      cases hk' : m.lookup k with
      | none => rfl
      | some x =>
          rw [lookup_of_mem hnodup' (hperm.symm.subset (mem_of_lookup hk'))] at hk
          cases hk

omit [BEq K] [LawfulBEq K] in
/-- The keys after an insertion. -/
theorem mem_insert {m : List (K × V)} {k : K} {x : V} {e : K × V} (h : e ∈ insert m k x) :
    e = (k, x) ∨ e ∈ m := by
  induction m with
  | nil => exact .inl (List.mem_singleton.mp h)
  | cons e' m ih =>
      obtain ⟨k', x'⟩ := e'
      rw [insert] at h
      split at h
      next => exact List.mem_cons.mp h
      next =>
        split at h
        next => exact (List.mem_cons.mp h).imp_right (List.mem_cons_of_mem _)
        next =>
          rcases List.mem_cons.mp h with rfl | h
          · exact .inr List.mem_cons_self
          · exact (ih h).imp_right (List.mem_cons_of_mem _)

omit [BEq K] [LawfulBEq K] in
/-- An insertion keeps the order. -/
theorem Sorted.insert {m : List (K × V)} (hm : Sorted m) (k : K) (x : V) :
    Sorted (insert m k x) := by
  induction m with
  | nil => exact List.pairwise_singleton _ _
  | cons e m ih =>
      obtain ⟨k', x'⟩ := e
      obtain ⟨hfirst, hrest⟩ := List.pairwise_cons.mp hm
      rw [SortedMap.insert]
      split
      next hlt =>
        refine List.pairwise_cons.mpr ⟨fun e he => ?_, hm⟩
        rcases List.mem_cons.mp he with rfl | he
        · exact hlt
        · exact hlt.trans (hfirst e he)
      next hnlt =>
        split
        next heq =>
          subst heq
          exact List.pairwise_cons.mpr ⟨hfirst, hrest⟩
        next hne =>
          refine List.pairwise_cons.mpr ⟨fun e he => ?_, ih hrest⟩
          rcases mem_insert he with rfl | he
          · exact lt_of_le_of_ne (not_lt.mp hnlt) (Ne.symm hne)
          · exact hfirst e he

omit [BEq K] [LawfulBEq K] in
/-- A removal keeps the order. -/
theorem Sorted.erase {m : List (K × V)} (hm : Sorted m) (k : K) : Sorted (erase m k) :=
  List.Pairwise.filter _ hm

omit [BEq K] [LawfulBEq K] in
/-- A change of the values keeps the order. -/
theorem Sorted.map {m : List (K × V)} (hm : Sorted m) (f : V → V) :
    Sorted (m.map fun e => (e.1, f e.2)) :=
  List.Pairwise.map _ (fun _ _ h => h) hm

omit [BEq K] [LawfulBEq K] in
/-- A change of one value keeps the order. -/
theorem Sorted.modify {m : List (K × V)} (hm : Sorted m) (k : K) (f : V → V) :
    Sorted (modify m k f) := by
  have hkeys : (m.map Prod.fst).Pairwise (· < ·) := List.pairwise_map.mpr hm
  rw [← keys_modify m k f] at hkeys
  exact List.pairwise_map.mp hkeys

/-- A key that comes before all keys is not found. -/
theorem lookup_eq_none {m : List (K × V)} {k : K} (h : ∀ e ∈ m, k < e.1) : m.lookup k = none := by
  cases hk : m.lookup k with
  | none => rfl
  | some x => exact absurd (h _ (mem_of_lookup hk)) (lt_irrefl k)

/-- Sorted maps are equal if the same is found in them. -/
theorem Sorted.ext {m m' : List (K × V)} (hm : Sorted m) (hm' : Sorted m')
    (h : ∀ k, m.lookup k = m'.lookup k) : m = m' := by
  induction m generalizing m' with
  | nil =>
      cases m' with
      | nil => rfl
      | cons e m' =>
          obtain ⟨k, x⟩ := e
          have hfound := h k
          rw [lookup_cons, if_pos rfl] at hfound
          cases hfound
  | cons e m ih =>
      obtain ⟨k, x⟩ := e
      obtain ⟨hfirst, hrest⟩ := List.pairwise_cons.mp hm
      cases m' with
      | nil =>
          have hfound := h k
          rw [lookup_cons, if_pos rfl] at hfound
          cases hfound
      | cons e' m' =>
          obtain ⟨k', x'⟩ := e'
          obtain ⟨hfirst', hrest'⟩ := List.pairwise_cons.mp hm'
          -- Each of the first keys is found in the other map, so neither is the smaller one.
          have hle : ¬ k < k' := fun hlt => by
            have hnone : ((k', x') :: m').lookup k = none := lookup_eq_none fun e he => by
              rcases List.mem_cons.mp he with rfl | he
              · exact hlt
              · exact hlt.trans (hfirst' e he)
            rw [← h, lookup_cons, if_pos rfl] at hnone
            cases hnone
          have hge : ¬ k' < k := fun hlt => by
            have hnone : ((k, x) :: m).lookup k' = none := lookup_eq_none fun e he => by
              rcases List.mem_cons.mp he with rfl | he
              · exact hlt
              · exact hlt.trans (hfirst e he)
            rw [h, lookup_cons, if_pos rfl] at hnone
            cases hnone
          obtain rfl : k = k' := le_antisymm (not_lt.mp hge) (not_lt.mp hle)
          have hx : x = x' := by simpa [lookup_cons] using h k
          subst hx
          rw [ih hrest hrest' fun j => ?_]
          have hj := h j
          simp only [lookup_cons] at hj
          split at hj
          next heq => rw [heq, lookup_eq_none hfirst, lookup_eq_none hfirst']
          next => exact hj

/-- A value that is removed may be changed before. -/
theorem Sorted.erase_modify_self {m : List (K × V)} (hm : Sorted m) (k : K) (f : V → V) :
    SortedMap.erase (SortedMap.modify m k f) k = SortedMap.erase m k := by
  apply ((hm.modify k f).erase k).ext (hm.erase k)
  intro j
  simp only [lookup_erase, lookup_modify]
  split <;> rfl

/-- A value is changed before or after another one is removed. -/
theorem Sorted.erase_modify_of_ne {m : List (K × V)} (hm : Sorted m) {k k' : K} (hne : k' ≠ k)
    (f : V → V) :
    SortedMap.erase (SortedMap.modify m k f) k' =
      SortedMap.modify (SortedMap.erase m k') k f := by
  apply ((hm.modify k f).erase k').ext ((hm.erase k').modify k f)
  intro j
  simp only [lookup_erase, lookup_modify]
  by_cases hj : j = k
  · subst hj
    simp [Ne.symm hne]
  · simp [hj]

/-- A value that is replaced may be changed before. -/
theorem Sorted.insert_modify_self {m : List (K × V)} (hm : Sorted m) (k : K) (x : V) (f : V → V) :
    SortedMap.insert (SortedMap.modify m k f) k x = SortedMap.insert m k x := by
  apply ((hm.modify k f).insert k x).ext (hm.insert k x)
  intro j
  simp only [lookup_insert, lookup_modify]
  split <;> rfl

/-- A value is changed before or after another one is inserted. -/
theorem Sorted.insert_modify_of_ne {m : List (K × V)} (hm : Sorted m) {k k' : K} (hne : k' ≠ k)
    (x : V) (f : V → V) :
    SortedMap.insert (SortedMap.modify m k f) k' x =
      SortedMap.modify (SortedMap.insert m k' x) k f := by
  apply ((hm.modify k f).insert k' x).ext ((hm.insert k' x).modify k f)
  intro j
  simp only [lookup_insert, lookup_modify]
  by_cases hj : j = k
  · subst hj
    simp [Ne.symm hne]
  · simp [hj]

/-- A value is changed before or after it is inserted. -/
theorem Sorted.modify_insert_self {m : List (K × V)} (hm : Sorted m) (k : K) (x : V) (f : V → V) :
    SortedMap.modify (SortedMap.insert m k x) k f = SortedMap.insert m k (f x) := by
  apply ((hm.insert k x).modify k f).ext (hm.insert k (f x))
  intro j
  simp only [lookup_insert, lookup_modify]
  split <;> simp

end SortedMap

import Mathlib.Data.List.Nodup

/-!
# Lists with keys

A list of records, each with a key that no other has, which is searched for a key from its start.

* `modify_findIdx?_eq_map`: where keys are unique, the first record with a key is the only one.
-/

universe u v

namespace KeyedList

variable {R : Type u} {K : Type v} [DecidableEq K] {key : R → K}

/-- Where keys are unique, a change of the first record with a key changes all of them. -/
theorem modify_findIdx?_eq_map {l : List R} (hnodup : (l.map key).Nodup) (k : K) (f : R → R) :
    (match l.findIdx? fun r => key r = k with
      | some i => l.modify i f
      | none => l) = l.map fun r => if key r = k then f r else r := by
  induction l with
  | nil => rfl
  | cons r l ih =>
      obtain ⟨hfirst, hrest⟩ := List.nodup_cons.mp hnodup
      rw [List.findIdx?_cons, List.map_cons]
      by_cases hkey : key r = k
      · have hothers : (l.map fun r => if key r = k then f r else r) = l := by
          rw [List.map_congr_left (g := fun r => r), List.map_id']
          intro r' hr'
          rw [if_neg]
          rintro rfl
          exact hfirst (hkey ▸ List.mem_map_of_mem hr')
        simp [hkey, hothers]
      · rw [← ih hrest]
        cases l.findIdx? fun r => key r = k <;> simp [hkey]

omit [DecidableEq K] in
/-- A change of records keeps their keys. -/
theorem map_key_map {f : R → R} (hf : ∀ r, key (f r) = key r) (l : List R) :
    (l.map f).map key = l.map key := by
  simp [hf]

/-- Where keys are unique, a record is found by its key. -/
theorem find?_eq_some {l : List R} (hnodup : (l.map key).Nodup) {r : R} (hr : r ∈ l) :
    l.find? (fun r' => key r' = key r) = some r := by
  cases hfind : l.find? fun r' => key r' = key r with
  | none => exact absurd (List.find?_eq_none.mp hfind r hr) (by simp)
  | some r' =>
      have hkey : key r' = key r := by simpa using List.find?_some hfind
      rw [List.inj_on_of_nodup_map hnodup (List.mem_of_find?_eq_some hfind) hr hkey]

omit [DecidableEq K] in
/-- The first record with a property is found again after it was replaced by one with it. -/
theorem find?_set_findIdx {l : List R} {p : R → Bool} {r r' : R} (h : l.find? p = some r)
    (hr' : p r' = true) : (l.set (l.findIdx p) r').find? p = some r' := by
  induction l with
  | nil => cases h
  | cons x l ih =>
      rw [List.findIdx_cons]
      cases hx : p x with
      | true => simp [hr']
      | false =>
          rw [List.find?_cons_of_neg (by simp [hx])] at h
          simp [hx, ih h]

end KeyedList

import Mathlib.Data.Int.CardIntervalMod
import Mathlib.Data.List.GetD
import Mathlib.Data.List.Nodup

/-!
# Lists read in a circle

A list that is read again from the start when its end is reached.

* `Cyclic.count_segment`: of a list of `n` elements without repetitions, `k` steps meet every
  element `k / n` times or once more.
* `Cyclic.count_segment_le`: so no element is met two times more than another.
-/

namespace Cyclic

variable {α : Type*}

/-- The element at position `i` of the circle; `d` stands for what an empty list lacks. -/
def nth (d : α) (xs : List α) (i : ℕ) : α := xs.getD (i % xs.length) d

/-- The elements that `k` steps from position `start` on meet. -/
def segment (d : α) (xs : List α) (start k : ℕ) : List α := (List.range' start k).map (nth d xs)

/-- One more step at the front. -/
theorem segment_succ (d : α) (xs : List α) (start k : ℕ) :
    segment d xs start (k + 1) = nth d xs start :: segment d xs (start + 1) k := rfl

/-- A window of a segment is a segment. -/
theorem take_drop_segment (d : α) (xs : List α) (start m i k : ℕ) :
    ((segment d xs start m).drop i).take k = segment d xs (start + i) (min k (m - i)) := by
  unfold segment
  rw [← List.map_drop, ← List.map_take, List.drop_range', Nat.mul_one]
  rcases Nat.le_total k (m - i) with hle | hle
  · rw [List.take_range'_of_length_ge hle, Nat.min_eq_left hle]
  · rw [List.take_range'_of_length_le hle, Nat.min_eq_right hle]

/-- Every residue is met by `k / r` of `k` consecutive numbers, or by one more. -/
theorem count_add_modEq {r : ℕ} (hr : 0 < r) (start v k : ℕ) :
    Nat.count (fun j => start + j ≡ v [MOD r]) k = k / r ∨
      Nat.count (fun j => start + j ≡ v [MOD r]) k = k / r + 1 := by
  -- Counted from `start` on, the residue is another one.
  obtain ⟨w, hw⟩ : ∃ w, start + w ≡ v [MOD r] := by
    refine ⟨v + start * (r - 1), ?_⟩
    have hsum : start + (v + start * (r - 1)) = v + start * r := by
      obtain ⟨q, rfl⟩ := Nat.exists_eq_add_of_lt hr
      simp only [Nat.zero_add, Nat.add_sub_cancel]
      ring
    rw [hsum]
    exact Nat.add_mul_modulus_modEq_iff.mpr rfl
  have hshift : (fun j => start + j ≡ v [MOD r]) = fun j => j ≡ w [MOD r] := by
    funext j
    refine propext ⟨fun h => ?_, fun h => ?_⟩
    · exact Nat.ModEq.add_left_cancel' start (h.trans hw.symm)
    · exact (Nat.ModEq.add_left start h).trans hw
  have hcount := Nat.count_modEq_card (b := k) hr w
  simp only [hshift]
  split at hcount
  · exact .inr hcount
  · exact .inl hcount

variable [DecidableEq α]

/-- How often a value comes up in a list of values of a function. -/
theorem count_map_range' (f : ℕ → α) (x : α) (start k : ℕ) :
    ((List.range' start k).map f).count x = Nat.count (fun j => f (start + j) = x) k := by
  induction k with
  | zero => rfl
  | succ k ih =>
      rw [List.range'_concat, List.map_append, List.count_append, ih, Nat.count_succ, Nat.one_mul]
      simp only [List.map_cons, List.map_nil, List.count_singleton, beq_iff_eq]

/-- Where an element of a list without repetitions stands in the circle. -/
theorem nth_eq_iff {d : α} {xs : List α} (hnodup : xs.Nodup) {x : α} (hx : x ∈ xs) (i : ℕ) :
    nth d xs i = x ↔ i ≡ xs.idxOf x [MOD xs.length] := by
  have hidx : xs.idxOf x < xs.length := List.idxOf_lt_length_of_mem hx
  have hlt : i % xs.length < xs.length := Nat.mod_lt _ (Nat.zero_lt_of_lt hidx)
  unfold nth Nat.ModEq
  rw [List.getD_eq_getElem _ _ hlt, Nat.mod_eq_of_lt hidx]
  constructor
  · rintro rfl
    exact (hnodup.idxOf_getElem _ hlt).symm
  · intro h
    simp only [h, List.getElem_idxOf]

/-- Every element is met equally often, up to one time. -/
theorem count_segment {d : α} {xs : List α} (hnodup : xs.Nodup) {x : α} (hx : x ∈ xs)
    (start k : ℕ) :
    (segment d xs start k).count x = k / xs.length ∨
      (segment d xs start k).count x = k / xs.length + 1 := by
  have hlen : 0 < xs.length := List.length_pos_of_mem hx
  unfold segment
  rw [count_map_range']
  simp only [nth_eq_iff hnodup hx]
  exact count_add_modEq hlen start _ k

/-- No element is met two times more than another. -/
theorem count_segment_le {d : α} {xs : List α} (hnodup : xs.Nodup) {x y : α} (hx : x ∈ xs)
    (hy : y ∈ xs) (start k : ℕ) :
    (segment d xs start k).count x ≤ (segment d xs start k).count y + 1 := by
  have hcountx := count_segment (d := d) hnodup hx start k
  have hcounty := count_segment (d := d) hnodup hy start k
  omega

end Cyclic

import Mathlib.Algebra.GroupWithZero.Nat
import Mathlib.Algebra.Order.BigOperators.Group.List
import Mathlib.Data.Nat.Count
import Mathlib.Tactic.Cases

/-!
# Choosing by running sums

A number below the total of some weights chooses the first key at which the running sum of the
weights exceeds it. Every key is then chosen by as many numbers as its weight says, in whatever
order the keys stand.
-/

universe u

namespace CumulativePick

variable {K : Type u}

/-- The sum of the weights. -/
def totalWeight (l : List (K × ℕ)) : ℕ := (l.map Prod.snd).sum

@[simp]
theorem totalWeight_nil : totalWeight ([] : List (K × ℕ)) = 0 := rfl

@[simp]
theorem totalWeight_cons (p : K × ℕ) (l : List (K × ℕ)) :
    totalWeight (p :: l) = p.2 + totalWeight l := by
  simp [totalWeight]

/-- The first key at which the running sum exceeds the roll. -/
def pick (roll : ℕ) : ℕ → List (K × ℕ) → Option K
  | _, [] => none
  | cumulative, (k, w) :: l =>
      if roll < cumulative + w then some k else pick roll (cumulative + w) l

/-- A roll below the total chooses a key with a positive weight. -/
theorem exists_pick {roll cumulative : ℕ} {l : List (K × ℕ)} (hle : cumulative ≤ roll)
    (hlt : roll < cumulative + totalWeight l) :
    ∃ p ∈ l, 0 < p.2 ∧ pick roll cumulative l = some p.1 := by
  induction l generalizing cumulative with
  | nil =>
      rw [totalWeight_nil] at hlt
      omega
  | cons p l ih =>
      rw [totalWeight_cons] at hlt
      by_cases hp : roll < cumulative + p.2
      · -- The roll lies between the running sums before and after this key.
        refine ⟨p, List.mem_cons_self, by omega, ?_⟩
        rw [pick, if_pos hp]
      · obtain ⟨q, hq, hpos, hpick⟩ := ih (by omega : cumulative + p.2 ≤ roll) (by omega)
        refine ⟨q, List.mem_cons_of_mem p hq, hpos, ?_⟩
        rw [pick, if_neg hp, hpick]

/-- Only a key of the list is chosen. -/
theorem mem_of_pick {roll cumulative : ℕ} {l : List (K × ℕ)} {k : K}
    (h : pick roll cumulative l = some k) : k ∈ l.map Prod.fst := by
  induction l generalizing cumulative with
  | nil => cases h
  | cons p l ih =>
      rw [pick] at h
      rw [List.map_cons, List.mem_cons]
      split at h
      next => exact .inl (Option.some.inj h).symm
      next => exact .inr (ih h)

variable [DecidableEq K]

/-- Each key is chosen by as many rolls as its weight says. -/
theorem count_pick (cumulative : ℕ) {l : List (K × ℕ)} (hl : (l.map Prod.fst).Nodup)
    {p : K × ℕ} (hp : p ∈ l) :
    Nat.count (fun r => pick (cumulative + r) cumulative l = some p.1) (totalWeight l) = p.2 := by
  induction l generalizing cumulative with
  | nil => cases hp
  | cons q l ih =>
      rw [List.map_cons, List.nodup_cons] at hl
      -- The rolls past the weight of the first key go to the other keys.
      have hrest : (fun r => pick (cumulative + (q.2 + r)) cumulative (q :: l) = some p.1) =
          fun r => pick (cumulative + q.2 + r) (cumulative + q.2) l = some p.1 := by
        funext r
        rw [pick, if_neg (by omega), ← Nat.add_assoc]
      rw [totalWeight_cons, Nat.count_add]
      simp only [hrest]
      rcases List.mem_cons.mp hp with rfl | hmem
      · -- The first key: all of the first rolls, and none of the others.
        rw [Nat.count_of_forall fun r hr => by rw [pick, if_pos (by omega)],
          Nat.count_of_forall_not fun r _ h => hl.1 (mem_of_pick h), Nat.add_zero]
      · have hne : q.1 ≠ p.1 := fun h => hl.1 (h ▸ List.mem_map_of_mem hmem)
        rw [Nat.count_of_forall_not fun r hr h => ?_, Nat.zero_add, ih _ hl.2 hmem]
        rw [pick, if_pos (by omega)] at h
        exact hne (Option.some.inj h)

theorem sum_indicator_eq_count (k : K) (ks : List K) :
    (ks.map fun k' => if some k = some k' then 1 else 0).sum = ks.count k := by
  induction ks with
  | nil => rfl
  | cons k' ks ih =>
      rw [List.map_cons, List.sum_cons, ih, List.count_cons, Nat.add_comm]
      by_cases h : k' = k
      · simp [h]
      · simp [h, Ne.symm h]

/-- Numbers that each choose at most one key choose in all at most as often as there are numbers
that choose. -/
theorem sum_count_le (f : ℕ → Option K) (n : ℕ) {ks : List K} (hks : ks.Nodup) :
    (ks.map fun k => Nat.count (fun r => f r = some k) n).sum ≤
      Nat.count (fun r => (f r).isSome) n := by
  induction n with
  | zero => simp
  | succ n ih =>
      -- The last number counts for at most one key.
      have hlast : (ks.map fun k => if f n = some k then 1 else 0).sum ≤
          if (f n).isSome then 1 else 0 := by
        cases hf : f n with
        | none => simp
        | some k =>
            rw [sum_indicator_eq_count]
            exact List.nodup_iff_count_le_one.mp hks k
      simp only [Nat.count_succ, List.sum_map_add]
      exact Nat.add_le_add ih hlast

/-- There are at most `m` numbers below `m`. -/
theorem count_le_of_lt {p : ℕ → Prop} [DecidablePred p] {m : ℕ} (hp : ∀ r, p r → r < m)
    (n : ℕ) : Nat.count p n ≤ m := by
  rw [Nat.count_eq_card_filter_range]
  calc _ ≤ (Finset.range m).card :=
        Finset.card_le_card fun r hr => Finset.mem_range.mpr (hp r (Finset.mem_filter.mp hr).2)
    _ = m := Finset.card_range m

end CumulativePick

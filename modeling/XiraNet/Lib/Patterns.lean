import Mathlib.Data.List.Infix

/-!
# Searching a list for a pattern

The first occurrence of a pattern in a list, and the parts between its occurrences.

* `splitOnce_append_cons`: an element that is not in the pattern cuts a search in two.
* `splitOnce_eq_none_iff`: nothing is found exactly if the pattern is no infix.
-/

universe u

namespace Pattern

variable {α : Type u} [DecidableEq α]

/-- The parts before and after the first occurrence of a pattern. -/
def splitOnce (pat : List α) : List α → Option (List α × List α)
  | [] => if pat.isPrefixOf [] then some ([], []) else none
  | c :: s =>
      if pat.isPrefixOf (c :: s) then some ([], (c :: s).drop pat.length)
      else (splitOnce pat s).map fun parts => (c :: parts.1, parts.2)

/-- The parts between at most so many occurrences of a pattern. -/
def splitUpTo (pat : List α) : ℕ → List α → List (List α)
  | 0, s => [s]
  | n + 1, s =>
      match splitOnce pat s with
      | some (first, rest) => first :: splitUpTo pat n rest
      | none => [s]

/-- The parts between the occurrences of a pattern that is not empty. -/
def split (pat s : List α) : List (List α) := splitUpTo pat s.length s

variable {pat s t : List α} {c : α}

omit [DecidableEq α] in
/-- A prefix does not go past an element that is not in it. -/
theorem prefix_append_cons_iff (hc : c ∉ pat) : pat <+: s ++ c :: t ↔ pat <+: s := by
  refine ⟨fun h => ?_, fun h => h.trans (List.prefix_append _ _)⟩
  rcases List.prefix_or_prefix_of_prefix h (List.prefix_append s (c :: t)) with hshort | ⟨l, rfl⟩
  · exact hshort
  · cases l with
    | nil => rw [List.append_nil]
    | cons d l =>
        rw [List.prefix_append_right_inj] at h
        obtain ⟨rfl, -⟩ := List.cons_prefix_cons.mp h
        exact absurd (List.mem_append_right _ List.mem_cons_self) hc

omit [DecidableEq α] in
/-- An infix does not go across an element that is not in it. -/
theorem infix_append_cons_iff (hc : c ∉ pat) :
    pat <:+: s ++ c :: t ↔ pat <:+: s ∨ pat <:+: t := by
  induction s with
  | nil =>
      rw [List.nil_append, List.infix_cons_iff, List.infix_nil]
      refine or_congr_left ?_
      rw [← List.nil_append (c :: t), prefix_append_cons_iff hc, List.prefix_nil]
  | cons d s ih =>
      rw [List.cons_append, List.infix_cons_iff, ih, List.infix_cons_iff, ← List.cons_append,
        prefix_append_cons_iff hc, or_assoc]

omit [DecidableEq α] in
/-- What is not in the pattern can be left out at the start. -/
theorem infix_gap_append_iff {gap : List α} (hpat : pat ≠ []) (hgap : ∀ c ∈ gap, c ∉ pat) :
    pat <:+: gap ++ t ↔ pat <:+: t := by
  induction gap with
  | nil => rfl
  | cons c gap ih =>
      obtain ⟨hc, hgap⟩ := List.forall_mem_cons.mp hgap
      rw [List.cons_append, ← List.nil_append (c :: (gap ++ t)), infix_append_cons_iff hc, ih hgap,
        List.infix_nil, or_iff_right hpat]

omit [DecidableEq α] in
/-- What is not in the pattern can be left out at the end. -/
theorem infix_append_gap_iff {gap : List α} (hpat : pat ≠ []) (hgap : ∀ c ∈ gap, c ∉ pat) :
    pat <:+: s ++ gap ↔ pat <:+: s := by
  cases gap with
  | nil => rw [List.append_nil]
  | cons c gap =>
      obtain ⟨hc, hgap⟩ := List.forall_mem_cons.mp hgap
      have hnone : ¬ pat <:+: gap := by
        intro hinfix
        have h := (infix_gap_append_iff (t := []) hpat hgap).mp (by rwa [List.append_nil])
        exact hpat (List.infix_nil.mp h)
      rw [infix_append_cons_iff hc, or_iff_left hnone]

omit [DecidableEq α] in
/-- What is not in the pattern cuts a search in two. -/
theorem infix_append_gap_append_iff {gap : List α} (hpat : pat ≠ []) (hne : gap ≠ [])
    (hgap : ∀ c ∈ gap, c ∉ pat) :
    pat <:+: s ++ gap ++ t ↔ pat <:+: s ∨ pat <:+: t := by
  cases gap with
  | nil => exact absurd rfl hne
  | cons c gap =>
      obtain ⟨hc, hgap⟩ := List.forall_mem_cons.mp hgap
      rw [List.append_assoc, List.cons_append, infix_append_cons_iff hc,
        infix_gap_append_iff hpat hgap]

/-- Nothing is found exactly if the pattern does not occur. -/
theorem splitOnce_eq_none_iff : splitOnce pat s = none ↔ ¬ pat <:+: s := by
  induction s with
  | nil => simp [splitOnce]
  | cons c s ih =>
      rw [splitOnce, List.infix_cons_iff, ← List.isPrefixOf_iff_prefix]
      cases pat.isPrefixOf (c :: s) <;> simp [ih]

/-- The parts make the list. -/
theorem append_of_splitOnce {a b : List α} (h : splitOnce pat s = some (a, b)) :
    a ++ pat ++ b = s := by
  induction s generalizing a with
  | nil =>
      simp only [splitOnce, Option.ite_none_right_eq_some, Option.some.injEq, Prod.mk.injEq] at h
      obtain ⟨hpat, rfl, rfl⟩ := h
      simpa using hpat
  | cons c s ih =>
      rw [splitOnce] at h
      split at h
      next hprefix =>
        obtain ⟨rfl, rfl⟩ := Prod.mk.inj (Option.some.inj h)
        obtain ⟨t, ht⟩ := List.isPrefixOf_iff_prefix.mp hprefix
        rw [← ht, List.nil_append, List.drop_left]
      next =>
        obtain ⟨⟨a', b'⟩, hparts, heq⟩ := Option.map_eq_some_iff.mp h
        obtain ⟨rfl, rfl⟩ := Prod.mk.inj heq
        rw [List.cons_append, List.cons_append, ih hparts]

/-- What stands before an element that is not in the pattern, without the pattern in it, is passed
over. -/
theorem splitOnce_append_cons (hc : c ∉ pat) (hs : ¬ pat <:+: s) :
    splitOnce pat (s ++ c :: t) =
      (splitOnce pat t).map fun parts => (s ++ c :: parts.1, parts.2) := by
  have hno (s : List α) (hs : ¬ pat <:+: s) : pat.isPrefixOf (s ++ c :: t) = false := by
    rw [Bool.eq_false_iff, ne_eq, List.isPrefixOf_iff_prefix, prefix_append_cons_iff hc]
    exact fun h => hs h.isInfix
  induction s with
  | nil =>
      rw [List.nil_append, splitOnce, show pat.isPrefixOf (c :: t) = false from hno [] hs]
      rfl
  | cons d s ih =>
      rw [List.cons_append, splitOnce, show pat.isPrefixOf (d :: (s ++ c :: t)) = false from
        hno (d :: s) hs, ih fun h => hs (h.trans (List.suffix_cons d s).isInfix),
        if_neg Bool.false_ne_true, Option.map_map]
      rfl

/-- More at the end does not change what is found. -/
theorem splitOnce_append {a b : List α} (h : splitOnce pat s = some (a, b)) (t : List α) :
    splitOnce pat (s ++ t) = some (a, b ++ t) := by
  induction s generalizing a with
  | nil =>
      simp only [splitOnce, Option.ite_none_right_eq_some, Option.some.injEq, Prod.mk.injEq] at h
      obtain ⟨hpat, rfl, rfl⟩ := h
      obtain rfl : pat = [] := by simpa using hpat
      cases t <;> simp [splitOnce]
  | cons c s ih =>
      rw [splitOnce] at h
      rw [List.cons_append, splitOnce]
      split at h
      next hprefix =>
        have hprefix' := List.isPrefixOf_iff_prefix.mp hprefix
        obtain ⟨rfl, rfl⟩ := Prod.mk.inj (Option.some.inj h)
        rw [← List.cons_append,
          if_pos (List.isPrefixOf_iff_prefix.mpr (hprefix'.trans (List.prefix_append _ t))),
          List.drop_append_of_le_length hprefix'.length_le]
      next hno =>
        obtain ⟨⟨a', b'⟩, hparts, heq⟩ := Option.map_eq_some_iff.mp h
        obtain ⟨rfl, rfl⟩ := Prod.mk.inj heq
        have hlength : pat.length ≤ (c :: s).length := by
          rw [← append_of_splitOnce hparts]
          simp
          omega
        rw [if_neg fun hprefix => hno (List.isPrefixOf_iff_prefix.mpr ?_), ih hparts]
        · rfl
        · exact List.prefix_of_prefix_length_le (List.isPrefixOf_iff_prefix.mp hprefix)
            (List.prefix_append (c :: s) t) hlength

/-- Without the pattern there is one part. -/
theorem splitUpTo_of_not_infix (n : ℕ) (h : ¬ pat <:+: s) : splitUpTo pat n s = [s] := by
  cases n with
  | zero => rfl
  | succ n => rw [splitUpTo, splitOnce_eq_none_iff.mpr h]

/-- With the pattern there are at least two parts. -/
theorem two_le_length_splitUpTo (n : ℕ) (h : pat <:+: s) :
    2 ≤ (splitUpTo pat (n + 1) s).length := by
  cases hparts : splitOnce pat s with
  | none => exact absurd h (splitOnce_eq_none_iff.mp hparts)
  | some parts =>
      rw [splitUpTo, hparts]
      have hpos : 0 < (splitUpTo pat n parts.2).length := by
        cases n with
        | zero => exact Nat.one_pos
        | succ n =>
            rw [splitUpTo]
            split <;> simp
      simp
      omega

end Pattern

import Mathlib.Data.List.Forall2
import Mathlib.Data.List.Infix

/-!
# Regular expressions with assertions

Regular expressions over single elements, with assertions about what stands before and after a
place, and the search for a match in a list.

* `RegExp.mem_ends_iff`: the matches that start at a place.
* `RegExp.found_iff`: the search finds a match exactly if there is one.
-/

universe u

/-- Regular expressions in which only sets of elements are repeated. -/
inductive RegExp (α : Type u)
  | one (p : α → Bool)
  | many (p : α → Bool)
  | check (p : List α → List α → Bool)
  | seq (r s : RegExp α)
  | alt (r s : RegExp α)

namespace RegExp

variable {α : Type u}

/-- A match between what stands before and after it. -/
def Matches : RegExp α → List α → List α → List α → Prop
  | one p, _, m, _ => ∃ c, m = [c] ∧ p c
  | many p, _, m, _ => ∀ c ∈ m, p c
  | check p, b, m, a => m = [] ∧ p b a
  | seq r s, b, m, a =>
      ∃ m₁ m₂, m = m₁ ++ m₂ ∧ r.Matches b m₁ (m₂ ++ a) ∧ s.Matches (b ++ m₁) m₂ a
  | alt r s, b, m, a => r.Matches b m a ∨ s.Matches b m a

/-- There is a match somewhere. -/
def Occurs (r : RegExp α) (s : List α) : Prop := ∃ b m a, s = b ++ m ++ a ∧ r.Matches b m a

/-- The elements of `p` at the start of a list, in all numbers, with what follows. -/
def runs (p : α → Bool) : List α → List (List α × List α)
  | [] => [([], [])]
  | c :: t => ([], c :: t) :: if p c then (runs p t).map fun e => (c :: e.1, e.2) else []

/-- The matches at a place, with what follows. -/
def ends : RegExp α → List α → List α → List (List α × List α)
  | one p, _, t =>
      match t with
      | c :: t => if p c then [([c], t)] else []
      | [] => []
  -- all numbers of elements are tried, not only the largest
  | many p, _, t => runs p t
  | check p, b, t => if p b t then [([], t)] else []
  | seq r s, b, t =>
      (ends r b t).flatMap fun e => (ends s (b ++ e.1) e.2).map fun e' => (e.1 ++ e'.1, e'.2)
  | alt r s, b, t => ends r b t ++ ends s b t

/-- The search from a place on. -/
def foundFrom (r : RegExp α) (b : List α) : List α → Bool
  | [] => !(r.ends b []).isEmpty
  | c :: t => !(r.ends b (c :: t)).isEmpty || foundFrom r (b ++ [c]) t

/-- The search for a match. -/
def found (r : RegExp α) (s : List α) : Bool := r.foundFrom [] s

/-- At least one element of `p`. -/
def plus (p : α → Bool) : RegExp α := seq (one p) (many p)

/-- One expression after the other. -/
def inOrder : List (RegExp α) → RegExp α
  | [] => check fun _ _ => true
  | r :: rs => seq r (inOrder rs)

/-- Elements of these sets, one after the other. -/
def word (ps : List (α → Bool)) : RegExp α := inOrder (ps.map one)

/-- One of these expressions. -/
def anyOf : List (RegExp α) → RegExp α
  | [] => check fun _ _ => false
  | r :: rs => alt r (anyOf rs)

variable {r s : RegExp α} {p : α → Bool} {b m a t : List α}

theorem mem_runs_iff : (m, a) ∈ runs p t ↔ t = m ++ a ∧ ∀ c ∈ m, p c := by
  induction t generalizing m with
  | nil =>
      rw [runs, List.mem_singleton, Prod.mk.injEq, eq_comm (a := []), List.append_eq_nil_iff]
      exact ⟨fun ⟨hm, ha⟩ => ⟨⟨hm, ha⟩, by simp [hm]⟩, And.left⟩
  | cons c t ih =>
      rw [runs, List.mem_cons]
      cases m with
      | nil =>
          have hnot : ([], a) ∉ if p c then (runs p t).map fun e => (c :: e.1, e.2) else [] := by
            split <;> simp
          rw [or_iff_left hnot, Prod.mk.injEq, and_iff_right rfl, List.nil_append, eq_comm]
          exact (and_iff_left (List.forall_mem_nil _)).symm
      | cons d m =>
          have hmem : (d :: m, a) ∈ (if p c then (runs p t).map fun e => (c :: e.1, e.2) else []) ↔
              p c ∧ (m, a) ∈ runs p t ∧ c = d := by
            cases p c <;> simp
          rw [hmem, ih, List.cons_append, List.cons.injEq, List.forall_mem_cons]
          constructor
          · rintro (h | ⟨hc, ⟨ht, hm⟩, rfl⟩)
            · simp at h
            · exact ⟨⟨rfl, ht⟩, hc, hm⟩
          · rintro ⟨⟨rfl, ht⟩, hc, hm⟩
            exact .inr ⟨hc, ⟨ht, hm⟩, rfl⟩

/-- The matches that start at a place. -/
theorem mem_ends_iff : (m, a) ∈ r.ends b t ↔ t = m ++ a ∧ r.Matches b m a := by
  -- the rest after a match is where the next expression goes on
  induction r generalizing b t m a with
  | one p =>
      cases t with
      | nil =>
          refine ⟨fun h => absurd h List.not_mem_nil, ?_⟩
          rintro ⟨ht, c, rfl, -⟩
          exact absurd ht.symm (List.cons_ne_nil _ _)
      | cons c t =>
          have hmem : (m, a) ∈ (if p c then [([c], t)] else []) ↔ p c ∧ m = [c] ∧ a = t := by
            cases p c <;> simp
          rw [ends, hmem]
          constructor
          · rintro ⟨hc, rfl, rfl⟩
            exact ⟨rfl, c, rfl, hc⟩
          · rintro ⟨ht, d, rfl, hd⟩
            obtain ⟨rfl, rfl⟩ := List.cons.inj ht
            exact ⟨hd, rfl, rfl⟩
  | many p => exact mem_runs_iff
  | check p =>
      have hmem : (m, a) ∈ (if p b t then [([], t)] else []) ↔ p b t ∧ m = [] ∧ a = t := by
        cases p b t <;> simp
      rw [ends, hmem]
      constructor
      · rintro ⟨ht, rfl, rfl⟩
        exact ⟨rfl, rfl, ht⟩
      · rintro ⟨rfl, rfl, ht⟩
        exact ⟨ht, rfl, rfl⟩
  | seq r s ihr ihs =>
      rw [ends, List.mem_flatMap]
      constructor
      · rintro ⟨⟨m₁, t₁⟩, hr, hs⟩
        obtain ⟨⟨m₂, a'⟩, hs', heq⟩ := List.mem_map.mp hs
        obtain ⟨rfl, rfl⟩ := Prod.mk.inj heq
        obtain ⟨ht₁, hs'⟩ := ihs.mp hs'
        obtain ⟨ht, hr'⟩ := ihr.mp hr
        dsimp only at ht₁ hr'
        subst ht₁ ht
        exact ⟨(List.append_assoc _ _ _).symm, m₁, m₂, rfl, hr', hs'⟩
      · rintro ⟨rfl, m₁, m₂, rfl, hr, hs⟩
        exact ⟨(m₁, m₂ ++ a), ihr.mpr ⟨List.append_assoc _ _ _, hr⟩,
          List.mem_map.mpr ⟨(m₂, a), ihs.mpr ⟨rfl, hs⟩, rfl⟩⟩
  | alt r s ihr ihs => rw [ends, List.mem_append, ihr, ihs, ← and_or_left, Matches]

/-- There is a match at a place. -/
theorem ends_ne_nil_iff : (!(r.ends b t).isEmpty) = true ↔
    ∃ m a, t = m ++ a ∧ r.Matches b m a := by
  simp only [Bool.not_eq_true', List.isEmpty_eq_false_iff_exists_mem, Prod.exists, mem_ends_iff]

/-- The search from a place on finds a match exactly if there is one there or later. -/
theorem foundFrom_iff : r.foundFrom b t = true ↔
    ∃ b' m a, t = b' ++ m ++ a ∧ r.Matches (b ++ b') m a := by
  induction t generalizing b with
  | nil =>
      rw [foundFrom, ends_ne_nil_iff]
      constructor
      · rintro ⟨m, a, ht, h⟩
        exact ⟨[], m, a, ht, by rwa [List.append_nil]⟩
      · rintro ⟨b', m, a, ht, h⟩
        obtain ⟨rfl, rfl, -⟩ : b' = [] ∧ m = [] ∧ a = [] := by simpa using ht.symm
        exact ⟨[], a, ht, by rwa [List.append_nil] at h⟩
  | cons c t ih =>
      rw [foundFrom, Bool.or_eq_true, ends_ne_nil_iff, ih]
      constructor
      -- a match starts here or after the first element
      · rintro (⟨m, a, ht, h⟩ | ⟨b', m, a, rfl, h⟩)
        · exact ⟨[], m, a, ht, by rwa [List.append_nil]⟩
        · exact ⟨c :: b', m, a, rfl, by rwa [List.append_assoc, List.singleton_append] at h⟩
      · rintro ⟨b', m, a, ht, h⟩
        cases b' with
        | nil => exact .inl ⟨m, a, ht, by rwa [List.append_nil] at h⟩
        | cons d b' =>
            obtain ⟨rfl, rfl⟩ := List.cons.inj ht
            exact .inr ⟨b', m, a, rfl, by rwa [List.append_assoc, List.singleton_append]⟩

/-- The search finds a match exactly if there is one. -/
theorem found_iff : r.found t = true ↔ r.Occurs t := foundFrom_iff

/-- At least one element. -/
theorem matches_plus_iff : (plus p).Matches b m a ↔ m ≠ [] ∧ ∀ c ∈ m, p c := by
  constructor
  · rintro ⟨_, m₂, rfl, ⟨c, rfl, hc⟩, hm⟩
    exact ⟨List.cons_ne_nil _ _, List.forall_mem_cons.mpr ⟨hc, hm⟩⟩
  · rintro ⟨hne, hm⟩
    cases m with
    | nil => exact absurd rfl hne
    | cons c m =>
        obtain ⟨hc, hm⟩ := List.forall_mem_cons.mp hm
        exact ⟨[c], m, rfl, ⟨c, rfl, hc⟩, hm⟩

/-- The elements one by one. -/
theorem matches_word_iff {ps : List (α → Bool)} :
    (word ps).Matches b m a ↔ List.Forall₂ (fun p c => p c = true) ps m := by
  induction ps generalizing b m with
  | nil => simp [word, inOrder, Matches, List.forall₂_nil_left_iff]
  | cons p ps ih =>
      constructor
      · rintro ⟨_, m₂, rfl, ⟨c, rfl, hc⟩, hm⟩
        exact .cons hc (ih.mp hm)
      · intro h
        obtain ⟨c, m, hc, hm, rfl⟩ := List.forall₂_cons_left_iff.mp h
        exact ⟨[c], m, rfl, ⟨c, rfl, hc⟩, ih.mpr hm⟩

end RegExp

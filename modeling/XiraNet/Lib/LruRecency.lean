import Mathlib.Data.Finset.Card
import XiraNet.Lib.LruCache

/-!
# What a least recently used cache remembers

A cache of bounded size next to a map that forgets nothing, under the same operations. `Follows`
relates the two by the list of the keys that were used, the latest first.

* `Follows.put`, `Follows.get`, `Follows.pop`, `Follows.forget`, `Follows.clear`: the operations
  keep the relation.
* `Follows.peek_eq`: the cache agrees with the map on a key as long as fewer other keys than it has
  room for were used after that one.
-/

universe u v

namespace LruCache

variable {K : Type u} {V : Type v} [DecidableEq K]

/-- The uses of other keys since a key was used last. -/
def usesSince (uses : List K) (k : K) : List K := uses.takeWhile fun k' => decide (k' ≠ k)

/-- A use of another key is one more. -/
theorem usesSince_cons_of_ne {uses : List K} {k k' : K} (h : k' ≠ k) :
    usesSince (k' :: uses) k = k' :: usesSince uses k :=
  List.takeWhile_cons_of_pos (decide_eq_true h)

/-- The cache holds a part of what a map holds that forgets nothing. -/
structure Follows (c : LruCache K V) (plain : K → Option V) (uses : List K) : Prop where
  /-- An entry that stands before another one was used after it. -/
  ordered : c.items.keys.Pairwise fun k k' => k ∈ usesSince uses k'
  sound : ∀ {k x}, c.peek k = some x → plain k = some x
  /-- An entry is missing only after as many other keys were used as there is room for. -/
  kept : ∀ {k x}, plain k = some x → c.peek k = none → c.cap ≤ (usesSince uses k).toFinset.card

/-- A key is absent from a cache that finds nothing under it. -/
theorem peek_eq_none_iff {c : LruCache K V} {k : K} : c.peek k = none ↔ k ∉ c.items.keys :=
  AList.lookup_eq_none.trans (not_congr AList.mem_keys)

/-- The keys in a cache after an entry was stored. -/
theorem keys_put (c : LruCache K V) (k : K) (x : V) :
    (c.put k x).items.keys = (k :: c.items.keys.erase k).take c.cap := by
  rw [← AList.keys_insert]
  exact List.map_take

/-- Using an entry before it is removed makes no difference. -/
theorem pop_get (c : LruCache K V) (k : K) : (c.get k).2.pop k = c.pop k := by
  unfold get
  split
  next x hx =>
    -- Nothing is dropped when the entry comes to the front.
    have hmem : k ∈ c.items.keys := not_not.mp fun h => by
      rw [peek_eq_none_iff.mpr h] at hx
      cases hx
    have hlength : (c.items.insert k x).entries.length ≤ c.cap := by
      have hkeys := congrArg List.length (AList.keys_insert (a := k) (b := x) c.items)
      rw [List.length_cons, List.length_erase_add_one hmem] at hkeys
      simpa only [AList.keys, List.keys, List.length_map] using hkeys.trans_le
        ((List.length_map _).trans_le c.length_le)
    have hentries : (c.items.insert k x).entries.take c.cap =
        ⟨k, x⟩ :: c.items.entries.kerase k := by
      rw [List.take_of_length_le hlength, AList.entries_insert]
    unfold pop
    congr 1
    apply AList.ext
    show ((c.items.insert k x).entries.take c.cap).kerase k = c.items.entries.kerase k
    rw [hentries]
    exact List.kerase_cons_eq rfl
  next => rfl

namespace Follows

variable {c : LruCache K V} {plain : K → Option V} {uses : List K} {k : K} {x : V}

/-- At the start nothing is there. -/
theorem new (cap : ℕ) (h : 0 < cap) (uses : List K) :
    Follows (LruCache.new cap h : LruCache K V) (fun _ => none) uses where
  ordered := List.Pairwise.nil
  sound hx := by
    rw [peek_new] at hx
    cases hx
  kept hx := nomatch hx

/-- The order of the entries after one was stored. -/
theorem ordered_cons (h : c.Follows plain uses) (k : K) :
    (k :: c.items.keys.erase k).Pairwise fun k₁ k₂ => k₁ ∈ usesSince (k :: uses) k₂ := by
  have hne : ∀ k' ∈ c.items.keys.erase k, k ≠ k' := fun k' hk' heq =>
    (c.items.keys_nodup.mem_erase_iff.mp hk').1 heq.symm
  refine List.pairwise_cons.mpr ⟨fun k' hk' => ?_, ?_⟩
  · rw [usesSince_cons_of_ne (hne k' hk')]
    exact List.mem_cons_self
  · refine ((h.ordered.sublist List.erase_sublist).imp_of_mem fun {k₁ k₂} _ hk₂ hused => ?_)
    rw [usesSince_cons_of_ne (hne k₂ hk₂)]
    exact List.mem_cons_of_mem k hused

/-- Storing an entry keeps the relation. -/
theorem put (h : c.Follows plain uses) (k : K) (x : V) :
    (c.put k x).Follows (Function.update plain k (some x)) (k :: uses) where
  ordered := by
    rw [keys_put]
    exact (h.ordered_cons k).sublist (List.take_sublist _ _)
  sound {k' y} hy := by
    by_cases heq : k' = k
    · subst heq
      rw [Function.update_self, ← hy, peek_put_self]
    · rw [Function.update_of_ne heq]
      exact h.sound (peek_of_peek_put heq hy)
  kept {k' y} hy hmissing := by
    show c.cap ≤ _
    have heq : k' ≠ k := by
      rintro rfl
      rw [peek_put_self] at hmissing
      cases hmissing
    rw [Function.update_of_ne heq] at hy
    by_cases hbefore : c.peek k' = none
    -- The entry was missing before.
    · refine (h.kept hy hbefore).trans (Finset.card_le_card ?_)
      rw [usesSince_cons_of_ne (Ne.symm heq), List.toFinset_cons]
      exact Finset.subset_insert _ _
    -- The entry is dropped: it stands behind as many as there is room for, and all of them were
    -- used after it.
    · have hmem : k' ∈ c.items.keys := not_not.mp fun hnot => hbefore (peek_eq_none_iff.mpr hnot)
      have hdropped : k' ∈ (k :: c.items.keys.erase k).drop c.cap := by
        have hall : k' ∈ k :: c.items.keys.erase k :=
          List.mem_cons_of_mem k ((List.mem_erase_of_ne heq).mpr hmem)
        rw [← List.take_append_drop c.cap (k :: c.items.keys.erase k), List.mem_append,
          ← keys_put c k x] at hall
        exact hall.resolve_left (peek_eq_none_iff.mp hmissing)
      have hordered := h.ordered_cons k
      rw [← List.take_append_drop c.cap (k :: c.items.keys.erase k)] at hordered
      have hused := (List.pairwise_append.mp hordered).2.2
      have hnodup : ((k :: c.items.keys.erase k).take c.cap).Nodup :=
        keys_put c k x ▸ (c.put k x).items.keys_nodup
      have hlength : ((k :: c.items.keys.erase k).take c.cap).length = c.cap := by
        refine List.length_take_of_le (Nat.le_of_lt ?_)
        by_contra hshort
        rw [List.drop_eq_nil_of_le (Nat.le_of_not_lt hshort)] at hdropped
        exact absurd hdropped List.not_mem_nil
      calc c.cap = ((k :: c.items.keys.erase k).take c.cap).toFinset.card := by
            rw [List.toFinset_card_of_nodup hnodup, hlength]
        _ ≤ (usesSince (k :: uses) k').toFinset.card := by
            refine Finset.card_le_card fun k₁ hk₁ => ?_
            exact List.mem_toFinset.mpr (hused k₁ (List.mem_toFinset.mp hk₁) k' hdropped)

/-- Finding an entry keeps the relation. -/
theorem get (h : c.Follows plain uses) (hx : c.peek k = some x) :
    (c.get k).2.Follows plain (k :: uses) := by
  have hput := h.put k x
  rw [← h.sound hx, Function.update_eq_self] at hput
  unfold LruCache.get
  rw [hx]
  exact hput

/-- Removing an entry keeps the relation. -/
theorem pop (h : c.Follows plain uses) (k : K) :
    (c.pop k).Follows (Function.update plain k none) uses where
  ordered := by
    have hkeys : (c.pop k).items.keys = c.items.keys.erase k := AList.keys_erase k c.items
    rw [hkeys]
    exact h.ordered.sublist List.erase_sublist
  sound {k' y} hy := by
    rw [peek_pop] at hy
    split at hy
    next => cases hy
    next heq =>
      rw [Function.update_of_ne heq]
      exact h.sound hy
  kept {k' y} hy hmissing := by
    rw [peek_pop] at hmissing
    by_cases heq : k' = k
    · subst heq
      rw [Function.update_self] at hy
      cases hy
    · rw [Function.update_of_ne heq] at hy
      rw [if_neg heq] at hmissing
      exact h.kept hy hmissing

/-- An entry that is missing may be forgotten. -/
theorem forget (h : c.Follows plain uses) (hmissing : c.peek k = none) :
    c.Follows (Function.update plain k none) uses where
  ordered := h.ordered
  sound {k' y} hy := by
    have heq : k' ≠ k := by
      rintro rfl
      rw [hmissing] at hy
      cases hy
    rw [Function.update_of_ne heq]
    exact h.sound hy
  kept {k' y} hy := by
    by_cases heq : k' = k
    · subst heq
      rw [Function.update_self] at hy
      cases hy
    · rw [Function.update_of_ne heq] at hy
      exact h.kept hy

/-- Removing everything keeps the relation. -/
theorem clear (c : LruCache K V) (uses : List K) : c.clear.Follows (fun _ => none) uses :=
  new c.cap c.cap_pos uses

/-- The cache finds nothing else than the map. -/
theorem peek_eq_none_or (h : c.Follows plain uses) (k : K) :
    c.peek k = none ∨ c.peek k = plain k := by
  cases hx : c.peek k with
  | none => exact .inl rfl
  | some x => exact .inr (h.sound hx).symm

/-- The cache finds what the map finds as long as fewer other keys were used since the key was used
last than there is room for. -/
theorem peek_eq (h : c.Follows plain uses) (hfew : (usesSince uses k).toFinset.card < c.cap) :
    c.peek k = plain k := by
  cases hx : c.peek k with
  | some x => exact (h.sound hx).symm
  | none =>
      cases hplain : plain k with
      | none => rfl
      | some x => exact absurd (h.kept hplain hx) (Nat.not_le_of_lt hfew)

end Follows

end LruCache

import Mathlib.Algebra.GroupWithZero.Nat
import XiraNet.Lib.DashMap

/-!
# Posting lists

An inverted index: a map from keys to the ids of the documents with that key, and what it means
that it is the index of a list of documents.

* `Postings.Indexes.of_mem_iff`: an index with the right ids in every list, each once, is the index
  of the documents.
* `Postings.Indexes.size_le`: it is no larger than the documents are together.
-/

/-- A map from keys to lists of ids. -/
abbrev Postings (K I : Type*) := DashMap K (List I)

namespace Postings

variable {K I D : Type*} [DecidableEq K]

/-- The ids under a key. -/
def ids (m : Postings K I) (k : K) : List I := (m.lookup k).getD []

/-- Add an id under a key. -/
def add (m : Postings K I) (k : K) (i : I) : Postings K I := m.insert k (m.ids k ++ [i])

/-- Keep the ids that satisfy `keep`, under the keys that satisfy `p`. -/
def prune (m : Postings K I) (p : K → Bool) (keep : I → Bool) : Postings K I where
  entries := m.entries.map fun e => ⟨e.1, if p e.1 then e.2.filter keep else e.2⟩
  nodupKeys := by
    have hkeys : (m.entries.map fun e =>
        (⟨e.1, if p e.1 then e.2.filter keep else e.2⟩ : Sigma fun _ : K => List I)).keys =
          m.entries.keys := by
      rw [List.keys, List.map_map]
      rfl
    rw [List.NodupKeys, hkeys]
    exact m.nodupKeys

/-- The keys that satisfy `p` and have no ids left. -/
def emptyKeys (m : Postings K I) (p : K → Bool) : List K :=
  (m.entries.filter fun e => p e.1 && e.2.isEmpty).map Sigma.fst

/-- The number of ids, with their repetitions. -/
def size (m : Postings K I) : ℕ := (m.entries.map fun e => e.2.length).sum

variable {m : Postings K I}

/-- The ids after one was added. -/
theorem ids_add (m : Postings K I) (k k' : K) (i : I) :
    (m.add k i).ids k' = m.ids k' ++ if k' = k then [i] else [] := by
  rw [ids, add, DashMap.lookup_insert]
  split
  next h => rw [h, Option.getD_some]
  next => rw [List.append_nil, ids]

/-- The ids under a key after one was added. -/
theorem mem_ids_add {k k' : K} {i j : I} :
    j ∈ (m.add k i).ids k' ↔ j ∈ m.ids k' ∨ (k' = k ∧ j = i) := by
  rw [ids_add, List.mem_append]
  refine or_congr_right ?_
  split
  next h => rw [List.mem_singleton, and_iff_right h]
  next h => exact iff_of_false List.not_mem_nil fun hnew => h hnew.1

/-- A list stays without repetitions where a new id is added. -/
theorem nodup_ids_add {k k' : K} {i : I} (h : (m.ids k').Nodup) (hnew : i ∉ m.ids k) :
    ((m.add k i).ids k').Nodup := by
  rw [ids_add]
  split
  next heq =>
    subst heq
    exact h.append (List.nodup_singleton i) (List.disjoint_singleton.mpr hnew)
  next =>
    rw [List.append_nil]
    exact h

/-- A key without ids is not there after an id was added, unless it was there before. -/
theorem lookup_add_eq_nil {k k' : K} {i : I} (h : (m.add k i).lookup k' = some []) :
    m.lookup k' = some [] := by
  rcases DashMap.lookup_insert_cases h with ⟨-, hids⟩ | ⟨-, hold⟩
  · simp at hids
  · exact hold

/-- The ids after a key was removed. -/
theorem ids_erase (m : Postings K I) (k k' : K) :
    ids (m.erase k) k' = if k' = k then [] else m.ids k' := by
  rw [ids, DashMap.lookup_erase]
  split
  next => rfl
  next => rfl

/-- Ids disappear where a key is removed. -/
theorem ids_erase_sublist (m : Postings K I) (k k' : K) :
    (ids (m.erase k) k').Sublist (m.ids k') := by
  rw [ids_erase]
  split
  next => exact List.nil_sublist _
  next => exact List.Sublist.refl _

/-- What is found after ids were dropped. -/
theorem lookup_prune (m : Postings K I) (p : K → Bool) (keep : I → Bool) (k : K) :
    (m.prune p keep).lookup k =
      (m.lookup k).map fun l => if p k then l.filter keep else l := by
  refine Option.ext fun l => ?_
  rw [Option.map_eq_some_iff, ← Option.mem_def, AList.mem_lookup_iff]
  simp only [prune, List.mem_map, Sigma.mk.injEq, heq_eq_eq]
  constructor
  · rintro ⟨⟨k', old⟩, hmem, rfl, rfl⟩
    exact ⟨old, AList.mem_lookup_iff.mpr hmem, rfl⟩
  · rintro ⟨old, hold, rfl⟩
    exact ⟨⟨k, old⟩, AList.mem_lookup_iff.mp hold, rfl, rfl⟩

/-- What is found under another key after ids were dropped. -/
theorem lookup_prune_of_not {p : K → Bool} {k : K} (hk : ¬p k = true) (keep : I → Bool) :
    (m.prune p keep).lookup k = m.lookup k := by
  rw [lookup_prune]
  simp only [hk, if_false, Option.map_id', Bool.false_eq_true]

/-- The ids that stand under a key. -/
theorem mem_ids_iff {k : K} {i : I} : i ∈ m.ids k ↔ ∃ l, ⟨k, l⟩ ∈ m.entries ∧ i ∈ l := by
  simp only [← AList.mem_lookup_iff, Option.mem_def, ids]
  cases m.lookup k with
  | none => simp
  | some l => simp

/-- The ids after some were dropped. -/
theorem ids_prune (m : Postings K I) (p : K → Bool) (keep : I → Bool) (k : K) :
    (m.prune p keep).ids k = if p k then (m.ids k).filter keep else m.ids k := by
  rw [ids, lookup_prune, ids]
  cases m.lookup k with
  | none => simp
  | some l => rfl

/-- The ids that are kept where some are dropped. -/
theorem mem_ids_prune {p : K → Bool} {keep : I → Bool} {k : K} {i : I} :
    i ∈ (m.prune p keep).ids k ↔ i ∈ m.ids k ∧ (p k = true → keep i = true) := by
  rw [ids_prune]
  split
  next h => rw [List.mem_filter, imp_iff_right h]
  next h => exact (and_iff_left fun hk => absurd hk h).symm

/-- Ids disappear where some are dropped. -/
theorem ids_prune_sublist (m : Postings K I) (p : K → Bool) (keep : I → Bool) (k : K) :
    ((m.prune p keep).ids k).Sublist (m.ids k) := by
  rw [ids_prune]
  split
  next => exact List.filter_sublist
  next => exact List.Sublist.refl _

/-- The keys that have no ids left. -/
theorem mem_emptyKeys {p : K → Bool} {k : K} :
    k ∈ m.emptyKeys p ↔ p k = true ∧ m.lookup k = some [] := by
  rw [← Option.mem_def, AList.mem_lookup_iff]
  simp only [emptyKeys, List.mem_map, List.mem_filter, Bool.and_eq_true, List.isEmpty_iff]
  constructor
  · rintro ⟨⟨k', l⟩, ⟨hmem, hp, hempty⟩, hk⟩
    dsimp only at hp hempty hk
    subst hk hempty
    exact ⟨hp, hmem⟩
  · rintro ⟨hp, hmem⟩
    exact ⟨⟨k, []⟩, ⟨hmem, hp, rfl⟩, rfl⟩

/-- The posting lists of some documents: under every key stand the ids of the documents with that
key, and no key is without ids. -/
structure Indexes (m : Postings K I) (docs : List D) (id : D → I) (keys : D → List K) : Prop where
  ids : ∀ k, (m.ids k).Perm ((docs.filter fun d => k ∈ keys d).map id)
  ne_nil : ∀ k, m.lookup k ≠ some []

variable {docs : List D} {id : D → I} {keys : D → List K}

/-- Lists without repetitions that have the right ids are the posting lists. -/
theorem Indexes.of_mem_iff (hdocs : (docs.map id).Nodup) (hids : ∀ k, (m.ids k).Nodup)
    (hmem : ∀ k i, i ∈ m.ids k ↔ ∃ d ∈ docs, id d = i ∧ k ∈ keys d)
    (hne : ∀ k, m.lookup k ≠ some []) : m.Indexes docs id keys where
  ids k := by
    have hfilter : ((docs.filter fun d => k ∈ keys d).map id).Nodup :=
      hdocs.sublist (List.filter_sublist.map id)
    refine (List.perm_ext_iff_of_nodup (hids k) hfilter).mpr fun i => (hmem k i).trans ?_
    simp only [List.mem_map, List.mem_filter, decide_eq_true_eq]
    constructor
    · rintro ⟨d, hd, rfl, hk⟩
      exact ⟨d, ⟨hd, hk⟩, rfl⟩
    · rintro ⟨d, ⟨hd, hk⟩, rfl⟩
      exact ⟨d, hd, rfl, hk⟩
  ne_nil := hne

/-- Under different keys a document stands as often as it has keys, at most. -/
theorem sum_countP_le {n : ℕ} (hkeys : ∀ d ∈ docs, (keys d).length ≤ n) {ks : List K}
    (hks : ks.Nodup) :
    (ks.map fun k => docs.countP fun d => k ∈ keys d).sum ≤ n * docs.length := by
  induction docs with
  | nil => simp
  | cons d docs ih =>
      rw [List.forall_mem_cons] at hkeys
      have hrest := ih hkeys.2
      -- The keys of the first document, each counted once.
      have hfirst : (ks.countP fun k => k ∈ keys d) ≤ n := by
        rw [List.countP_eq_length_filter]
        refine (List.Nodup.length_le_of_subset (hks.filter _) fun k hk => ?_).trans hkeys.1
        exact of_decide_eq_true (List.mem_filter.mp hk).2
      have hsplit : (ks.map fun k => (d :: docs).countP fun d => k ∈ keys d).sum =
          (ks.map fun k => docs.countP fun d => k ∈ keys d).sum +
            ks.countP fun k => k ∈ keys d := by
        clear hks hfirst ih hrest
        induction ks with
        | nil => rfl
        | cons k ks ih =>
            rw [List.map_cons, List.sum_cons, ih, List.map_cons, List.sum_cons, List.countP_cons,
              List.countP_cons]
            omega
      rw [hsplit, List.length_cons, Nat.mul_succ]
      omega

/-- The posting lists have no more ids than the documents have keys. -/
theorem Indexes.size_le (h : m.Indexes docs id keys) {n : ℕ}
    (hkeys : ∀ d ∈ docs, (keys d).length ≤ n) : m.size ≤ n * docs.length := by
  have hsize : m.size = (m.keys.map fun k => docs.countP fun d => k ∈ keys d).sum := by
    rw [size, AList.keys, List.keys, List.map_map]
    refine congrArg List.sum (List.map_congr_left fun e he => ?_)
    have hlookup : m.lookup e.1 = some e.2 := AList.mem_lookup_iff.mpr he
    have hperm := (h.ids e.1).length_eq
    rw [Postings.ids, hlookup, Option.getD_some, List.length_map] at hperm
    rw [hperm, Function.comp_apply, List.countP_eq_length_filter]
  rw [hsize]
  exact sum_countP_le hkeys m.nodupKeys

end Postings

import Mathlib.Data.List.Basic

/-!
# SQL tables

A table is the list of its rows in rowid order. A statement that violates a foreign key fails
without effect, which the restricted versions report as `none`.

* `mem_delete`, `mem_insertOrReplace`: what is in the table afterwards.
* `deleteRestrict_of_unreferenced`, `insertOrReplaceRestrict_of_unreferenced`: a statement that
  touches no referenced row goes through.
-/

universe u

/-- The rows of a table, in rowid order. -/
abbrev Table (R : Type u) := List R

namespace Table

variable {R : Type u}

/-- `DELETE FROM t WHERE p`. -/
def delete (t : Table R) (p : R → Bool) : Table R := t.filter fun r => !p r

/-- `INSERT OR REPLACE INTO t VALUES (r)`: the rows that conflict with `r` in a unique column are
deleted, and `r` gets the largest rowid. -/
def insertOrReplace (t : Table R) (conflict : R → R → Bool) (r : R) : Table R :=
  t.delete (conflict r) ++ [r]

/-- `delete` under a foreign key: it fails if a row to be deleted is referenced. -/
def deleteRestrict (t : Table R) (referenced p : R → Bool) : Option (Table R) :=
  if t.any fun r => p r && referenced r then none else some (t.delete p)

/-- `insertOrReplace` under a foreign key: it fails if a conflicting row is referenced. -/
def insertOrReplaceRestrict (t : Table R) (referenced : R → Bool) (conflict : R → R → Bool)
    (r : R) : Option (Table R) :=
  if t.any fun r' => conflict r r' && referenced r' then none
  else some (t.insertOrReplace conflict r)

/-- The rows left by a deletion. -/
@[simp]
theorem mem_delete {t : Table R} {p : R → Bool} {r : R} :
    r ∈ t.delete p ↔ r ∈ t ∧ p r = false := by
  simp [delete]

/-- The rows of the table after an insertion. -/
theorem mem_insertOrReplace {t : Table R} {conflict : R → R → Bool} {r r' : R} :
    r' ∈ t.insertOrReplace conflict r ↔ (r' ∈ t ∧ conflict r r' = false) ∨ r' = r := by
  simp [insertOrReplace]

/-- A deletion under a foreign key goes through when no deleted row is referenced. -/
theorem deleteRestrict_of_unreferenced {t : Table R} {referenced p : R → Bool}
    (h : ∀ r ∈ t, p r = true → referenced r = false) :
    t.deleteRestrict referenced p = some (t.delete p) := by
  have hnone : ¬ (t.any fun r => p r && referenced r) = true := by
    simp only [List.any_eq_true, Bool.and_eq_true, not_exists, not_and]
    intro r hr hp
    simp [h r hr hp]
  simp [deleteRestrict, hnone]

/-- An insertion under a foreign key goes through when no replaced row is referenced. -/
theorem insertOrReplaceRestrict_of_unreferenced {t : Table R} {referenced : R → Bool}
    {conflict : R → R → Bool} {r : R}
    (h : ∀ r' ∈ t, conflict r r' = true → referenced r' = false) :
    t.insertOrReplaceRestrict referenced conflict r = some (t.insertOrReplace conflict r) := by
  have hnone : ¬ (t.any fun r' => conflict r r' && referenced r') = true := by
    simp only [List.any_eq_true, Bool.and_eq_true, not_exists, not_and]
    intro r' hr hp
    simp [h r' hr hp]
  simp [insertOrReplaceRestrict, hnone]

end Table

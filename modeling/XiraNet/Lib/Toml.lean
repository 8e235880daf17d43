import Mathlib.Algebra.Group.Int.Defs
import Mathlib.Algebra.Group.Nat.Defs
import Mathlib.Data.Int.Notation
import Mathlib.Data.Nat.Notation
import Mathlib.Data.Option.Basic

/-!
# TOML documents

A document as the tree of its values, and the reading of values into types: a number must fit its
type, a field that is missing has its default or is an error.

`Toml.field_eq_some`: what a field is read as.
-/

/-- A value of a document. The fields of a table have different names. -/
inductive Toml
  | string (s : String)
  | integer (n : ℤ)
  | boolean (b : Bool)
  /-- The literal of a float or of a date. -/
  | other (literal : String)
  | array (items : List Toml)
  | table (fields : List (String × Toml))

namespace Toml

/-- The value of a field. -/
def get (t : Toml) (name : String) : Option Toml :=
  match t with
  | .table fields => fields.lookup name
  | _ => none

/-- Read a string. -/
def asString : Toml → Option String
  | .string s => some s
  | _ => none

/-- Read a boolean. -/
def asBool : Toml → Option Bool
  | .boolean b => some b
  | _ => none

/-- Read an unsigned integer of a number of bits. -/
def asUnsigned (bits : ℕ) : Toml → Option ℕ
  | .integer n => if 0 ≤ n ∧ n < 2 ^ bits then some n.toNat else none
  | _ => none

/-- Read a list. -/
def asList {α : Type} (read : Toml → Option α) : Toml → Option (List α)
  | .array items => items.mapM read
  | _ => none

/-- Read a map, as the list of its entries. -/
def asMap {α : Type} (read : Toml → Option α) : Toml → Option (List (String × α))
  | .table fields => fields.mapM fun f => (read f.2).map (f.1, ·)
  | _ => none

/-- Read the value of an optional field, which is there. -/
def asOption {α : Type} (read : Toml → Option α) (t : Toml) : Option (Option α) :=
  (read t).map some

/-- Read a field of a table, which has a default or must be there. -/
def field {α : Type} (t : Toml) (name : String) (read : Toml → Option α) (default : Option α) :
    Option α :=
  match t with
  | .table _ =>
      match t.get name with
      | some value => read value
      | none => default
  | _ => none

/-- A field is read from its value, or has its default. -/
theorem field_eq_some {α : Type} {t : Toml} {name : String} {read : Toml → Option α}
    {default : Option α} {x : α} (h : t.field name read default = some x) :
    (∃ value, t.get name = some value ∧ read value = some x) ∨
      t.get name = none ∧ default = some x := by
  unfold field at h
  split at h
  · split at h
    next value hvalue => exact .inl ⟨value, hvalue, h⟩
    next hvalue => exact .inr ⟨hvalue, h⟩
  · cases h

end Toml

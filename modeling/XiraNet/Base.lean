import Mathlib.Algebra.Group.Int.Defs
import Mathlib.Algebra.Group.Nat.Defs
import Mathlib.Algebra.GroupWithZero.Nat
import Mathlib.Data.Int.Notation
import Mathlib.Data.Nat.Notation

/-!
# Basic types

Identifiers, clock readings and the machine arithmetic that several modules share.
-/

namespace XiraNet

/-- Service ids; only their equality matters. -/
abbrev Uuid := ℕ

/-- A reading of the monotonic clock, in nanoseconds. -/
abbrev Instant := ℕ

/-- A UTC timestamp; only stored and compared. -/
abbrev DateTime := ℕ

instance neZero_two : NeZero 2 := ⟨by decide⟩

/-- `u32::MAX`. -/
def u32Max : ℕ := 2 ^ 32 - 1

/-- `u32::saturating_add`. -/
def saturatingAdd (a b : ℕ) : ℕ := min (a + b) u32Max

/-- `u64` addition, which wraps in a release build. -/
def wrappingAdd (a b : ℕ) : ℕ := (a + b) % 2 ^ 64

/-- `u64::saturating_add`. -/
def saturatingAddU64 (a b : ℕ) : ℕ := min (a + b) (2 ^ 64 - 1)

/-- `i64::saturating_add`. -/
def saturatingAddI64 (a b : ℤ) : ℤ := max (-2 ^ 63) (min (a + b) (2 ^ 63 - 1))

/-- `x as i64`. -/
def asI64 (x : ℕ) : ℤ := if x < 2 ^ 63 then x else x - 2 ^ 64

/-- `as_u64().unwrap_or(0)` of an integer. -/
def asU64 (x : ℤ) : ℕ := x.toNat

/-- A number is read back exactly if it is not a negative `i64`. -/
theorem asU64_asI64_iff (x : ℕ) : asU64 (asI64 x) = x ↔ x < 2 ^ 63 := by
  unfold asU64 asI64
  split
  next h => exact iff_of_true (Int.toNat_natCast x) h
  next h =>
    refine iff_of_false (fun heq => ?_) h
    omega

/-- `Duration::from_secs`, in nanoseconds. -/
def fromSecs (secs : ℕ) : ℕ := secs * 1000000000

/-- `Instant::elapsed`, which is zero for an instant in the future. -/
def elapsed (now earlier : Instant) : ℕ := now - earlier

end XiraNet

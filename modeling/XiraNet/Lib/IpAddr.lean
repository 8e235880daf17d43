import Mathlib.Algebra.Group.Nat.Defs
import Mathlib.Data.Fin.Basic
import Mathlib.Data.List.Basic
import Mathlib.Data.Nat.Notation
import XiraNet.Lib.Text

/-!
# IP addresses

Addresses and the text form in which the gateway compares and logs them.
-/

/-- An IPv4 address by its octets, or an IPv6 address by its 16-bit segments. -/
inductive IpAddr
  | v4 (a b c d : Fin (2 ^ 8))
  | v6 (a b c d e f g h : Fin (2 ^ 16))
  deriving DecidableEq

namespace IpAddr

/-- The length of an address in bits. -/
def bits : IpAddr → ℕ
  | .v4 .. => 32
  | .v6 .. => 128

/-- `u32::from` and `u128::from`. -/
def toNat : IpAddr → ℕ
  | .v4 a b c d => [a, b, c, d].foldl (fun n octet => 2 ^ 8 * n + octet.val) 0
  | .v6 a b c d e f g h =>
      [a, b, c, d, e, f, g, h].foldl (fun n segment => 2 ^ 16 * n + segment.val) 0

/-- A run of segments. -/
structure Span where
  start : ℕ
  len : ℕ
  deriving DecidableEq, Repr

/-- One iteration of the search for the longest run of zeros: the longest run so far and the run
that ends here. -/
def zeroStep : Span × Span → ℕ × ℕ → Span × Span
  | (longest, current), (segment, i) =>
      if segment = 0 then
        let current : Span := ⟨if current.len = 0 then i else current.start, current.len + 1⟩
        (if longest.len < current.len then current else longest, current)
      else (longest, ⟨0, 0⟩)

/-- The first of the longest runs of zero segments. -/
def longestZeros (segments : List ℕ) : Span :=
  (segments.zipIdx.foldl zeroStep (⟨0, 0⟩, ⟨0, 0⟩)).1

/-- Segments in hexadecimal, separated by colons. -/
def segmentText (segments : List ℕ) : List Char :=
  [':'].intercalate (segments.map (Nat.toDigits 16))

/-- Octets in decimal, separated by dots. -/
def octetText (octets : List ℕ) : List Char :=
  ['.'].intercalate (octets.map (Nat.toDigits 10))

/-- The text of an IPv6 address: the longest run of at least two zero segments is left out, and
an IPv4-mapped address ends like an IPv4 address. -/
def v6Text (segments : List ℕ) : List Char :=
  match segments with
  | [0, 0, 0, 0, 0, 0xffff, ab, cd] =>
      "::ffff:".toList ++ octetText [ab / 256, ab % 256, cd / 256, cd % 256]
  | segments =>
      let zeros := longestZeros segments
      if 1 < zeros.len then
        segmentText (segments.take zeros.start) ++ "::".toList ++
          segmentText (segments.drop (zeros.start + zeros.len))
      else segmentText segments

/-- `ip.to_string()`. -/
def text : IpAddr → String
  | .v4 a b c d => String.ofList (octetText [a, b, c, d])
  | .v6 a b c d e f g h => String.ofList (v6Text [a, b, c, d, e, f, g, h])

example : (IpAddr.v4 192 168 0 1).text = "192.168.0.1" := by decide +kernel

example : (IpAddr.v6 0x2001 0xdb8 0 0 1 0 0 0).text = "2001:db8:0:0:1::" := by decide +kernel

end IpAddr

import Mathlib.Algebra.Group.Nat.Defs
import Mathlib.Data.List.TakeWhile
import Mathlib.Data.Nat.Notation

/-!
# Bytes and text

UTF-8 and percent escapes, on lists of bytes. Decoding walks over the bytes one by one; a
sequence of several bytes is dealt with at its first byte, and the number of bytes after it that
are already accounted for is carried along.
-/

namespace Utf8

/-- The UTF-8 encoding of a string. -/
def encode (s : String) : List UInt8 := s.toList.flatMap String.utf8EncodeChar

/-- A byte that continues a sequence. -/
def isContinuation (b : UInt8) : Bool := 0x80 ≤ b && b ≤ 0xbf

/-- The length of the sequences that start with a byte, or 0 if there are none. -/
def width (first : UInt8) : ℕ :=
  if first < 0x80 then 1
  else if 0xc2 ≤ first && first ≤ 0xdf then 2
  else if 0xe0 ≤ first && first ≤ 0xef then 3
  else if 0xf0 ≤ first && first ≤ 0xf4 then 4
  else 0

/-- Whether the second byte of a sequence fits to the first: no overlong forms, no surrogates and
nothing above `U+10FFFF`. -/
def secondOk (first second : UInt8) : Bool :=
  if first = 0xe0 then 0xa0 ≤ second && second ≤ 0xbf
  else if first = 0xed then 0x80 ≤ second && second ≤ 0x9f
  else if first = 0xf0 then 0x90 ≤ second && second ≤ 0xbf
  else if first = 0xf4 then 0x80 ≤ second && second ≤ 0x8f
  else isContinuation second

/-- How many of the bytes after `first` continue its sequence. -/
def accepted (first : UInt8) : List UInt8 → ℕ
  | [] => 0
  | second :: rest =>
      if 2 ≤ width first ∧ secondOk first second then
        1 + ((rest.take (width first - 2)).takeWhile isContinuation).length
      else 0

/-- The character of a complete sequence of at least two bytes. -/
def scalar (first : UInt8) (continuation : List UInt8) : Char :=
  Char.ofNat (continuation.foldl (fun n b => n * 64 + b.toNat % 64)
    (first.toNat % 2 ^ (7 - width first)))

/-- `String::from_utf8_lossy`, on the characters: a maximal part of a sequence that is not
completed becomes one replacement character. -/
def decodeLossy : ℕ → List UInt8 → List Char
  | _, [] => []
  | skip + 1, _ :: rest => decodeLossy skip rest
  | 0, b :: rest =>
      if b < 0x80 then Char.ofNat b.toNat :: decodeLossy 0 rest
      else
        let n := accepted b rest
        (if n + 1 = width b then scalar b (rest.take n) else '\uFFFD') :: decodeLossy n rest

/-- `String::from_utf8_lossy`. -/
def lossy (bytes : List UInt8) : String := String.ofList (decodeLossy 0 bytes)

/-- Strings differ from each other in their bytes. -/
theorem encode_injective : Function.Injective encode := by
  intro s t h
  have hbytes : s.toList.utf8Encode = t.toList.utf8Encode := congrArg List.toByteArray h
  rwa [String.utf8Encode_toList, String.utf8Encode_toList, String.toByteArray_inj] at hbytes

/-- `String::from_utf8`. -/
def decode (bytes : List UInt8) : Option String := String.fromUTF8? bytes.toByteArray

/-- A string is read back from its bytes. -/
theorem decode_encode (s : String) : decode (encode s) = some s := by
  have hbytes : (encode s).toByteArray = s.toByteArray := by
    rw [← String.utf8Encode_toList]
    rfl
  rw [decode, hbytes, String.fromUTF8?, dif_pos s.isValidUTF8]
  rfl

example : lossy (encode "Grüße €😀") = "Grüße €😀" := by decide

example : lossy [0x61, 0xff, 0xe2, 0x82, 0x62] = "a\uFFFD\uFFFDb" := by decide

end Utf8

namespace Percent

/-- The value of a hexadecimal digit. -/
def hexValue (b : UInt8) : Option ℕ :=
  if 0x30 ≤ b && b ≤ 0x39 then some (b.toNat - 0x30)
  else if 0x41 ≤ b && b ≤ 0x46 then some (b.toNat - 0x41 + 10)
  else if 0x61 ≤ b && b ≤ 0x66 then some (b.toNat - 0x61 + 10)
  else none

/-- The byte that an escape stands for, given what follows its percent sign. -/
def escaped : List UInt8 → Option UInt8
  | high :: low :: _ =>
      (hexValue high).bind fun high => (hexValue low).map fun low => UInt8.ofNat (16 * high + low)
  | _ => none

/-- Replace the escapes by their bytes, except for the escapes of protected bytes. -/
def decode (isProtected : UInt8 → Bool) : ℕ → List UInt8 → List UInt8
  | _, [] => []
  | skip + 1, _ :: rest => decode isProtected skip rest
  | 0, b :: rest =>
      match (if b = 0x25 then escaped rest else none) with
      | some byte =>
          -- A protected escape is kept, its two digits included.
          if isProtected byte then b :: decode isProtected 0 rest
          else byte :: decode isProtected 2 rest
      | none => b :: decode isProtected 0 rest

/-- Decode the escapes in a string. -/
def decodeString (isProtected : UInt8 → Bool) (s : String) : String :=
  Utf8.lossy (decode isProtected 0 (Utf8.encode s))

end Percent

namespace Hex

/-- The bytes in hexadecimal digits (`{b:02x}`). -/
def lower (bytes : List UInt8) : List Char :=
  bytes.flatMap fun b => [Nat.digitChar (b.toNat / 16), Nat.digitChar (b.toNat % 16)]

/-- Digits differ from each other. -/
theorem digitChar_inj : ∀ m < 16, ∀ n < 16, Nat.digitChar m = Nat.digitChar n → m = n := by decide

/-- Bytes differ from each other in their digits. -/
theorem lower_injective : Function.Injective lower := by
  intro a b h
  induction a generalizing b with
  | nil => cases b <;> simp_all [lower]
  | cons x a ih =>
      cases b with
      | nil => simp [lower] at h
      | cons y b =>
          simp only [lower, List.flatMap_cons, List.cons_append, List.nil_append,
            List.cons.injEq] at h
          obtain ⟨hhigh, hlow, hrest⟩ := h
          have hx : x.toNat < 256 := x.toNat_lt
          have hy : y.toNat < 256 := y.toNat_lt
          have hhigh := digitChar_inj _ (by omega) _ (by omega) hhigh
          have hlow := digitChar_inj _ (by omega) _ (by omega) hlow
          rw [ih hrest, UInt8.toNat_inj.mp (show x.toNat = y.toNat by omega)]

end Hex

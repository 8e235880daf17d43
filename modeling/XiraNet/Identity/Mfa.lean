import XiraNet.Base
import XiraNet.Lib.Text

/-!
# One-time codes

The TOTP engine of `identity/mfa.rs`. HMAC-SHA1 comes from another crate and is a parameter, a
function from key and message to 20 bytes.
-/

namespace XiraNet

/-- HMAC-SHA1. -/
abbrev HmacSha1 := List UInt8 → List UInt8 → Fin 20 → UInt8

/-- The digits of a code. -/
def totpDigits : ℕ := 6

/-- The seconds that a code is good for. -/
def totpPeriod : ℕ := 30

/-- The value of a character of the base32 alphabet, in either case. -/
def base32Value (c : Char) : Option ℕ :=
  let upper := c.toUpper
  if 'A' ≤ upper ∧ upper ≤ 'Z' then some (upper.toNat - 'A'.toNat)
  else if '2' ≤ upper ∧ upper ≤ '7' then some (c.toNat - '2'.toNat + 26)
  else none

/-- The loop of `base32_decode` over the characters that are left, with the `u32` buffer, the
number of bits in it and the bytes decoded so far. -/
def base32DecodeLoop : List Char → ℕ → ℕ → List UInt8 → Option (List UInt8)
  | [], _, _, result => some result
  | c :: cs, buffer, bitsLeft, result =>
      match base32Value c with
      -- A character outside the alphabet makes the whole secret invalid.
      | none => none
      | some val =>
          -- `buffer <<= 5` on a `u32` drops the bits that were taken out long ago.
          let buffer := ((buffer <<< 5) % 2 ^ 32) ||| val
          let bitsLeft := bitsLeft + 5
          if 8 ≤ bitsLeft then
            base32DecodeLoop cs buffer (bitsLeft - 8)
              (result ++ [UInt8.ofNat ((buffer >>> (bitsLeft - 8)) &&& 0xff)])
          else base32DecodeLoop cs buffer bitsLeft result

/-- `base32_decode`, which skips padding and white space. -/
def base32Decode (input : String) : Option (List UInt8) :=
  base32DecodeLoop (input.toList.filter fun c => c ≠ '=' && !Text.isWhitespace c) 0 0 []

/-- `u64::to_be_bytes`. -/
def toBeBytes (n : ℕ) : List UInt8 :=
  (List.range 8).map fun i => UInt8.ofNat (n >>> (8 * (7 - i)))

/-- `generate_totp_code`. -/
def generateTotpCode (hmac : HmacSha1) (key : List UInt8) (timeStep : ℕ) : String :=
  let hash := hmac key (toBeBytes timeStep)
  let byte (i : ℕ) : ℕ := (hash (Fin.ofNat 20 i)).toNat
  let offset := byte 19 &&& 0x0f
  let binCode := ((byte offset &&& 0x7f) <<< 24) ||| (byte (offset + 1) <<< 16) |||
    (byte (offset + 2) <<< 8) ||| byte (offset + 3)
  Text.zeroPadded (binCode % 10 ^ totpDigits) totpDigits

/-- The time steps whose code is accepted at a time. -/
def totpSteps (now : ℕ) : List ℕ :=
  [0, -1, 1].map fun offset : ℤ =>
    (max (saturatingAddI64 (asI64 (now / totpPeriod)) offset) 0).toNat

/-- `verify_totp`. -/
def verifyTotp (hmac : HmacSha1) (now : ℕ) (secret code : String) : Bool :=
  match base32Decode secret with
  | none => false
  | some key => (totpSteps now).any fun step => generateTotpCode hmac key step = code

/-- A secret that decodes has an acceptable code at any time. -/
theorem exists_verifyTotp (hmac : HmacSha1) (now : ℕ) (secret : String) :
    (∃ code, verifyTotp hmac now secret code = true) ↔ (base32Decode secret).isSome = true := by
  unfold verifyTotp
  cases base32Decode secret with
  | none => simp
  | some key =>
      -- The code of the current step is one of them.
      have hne : totpSteps now ≠ [] := by simp [totpSteps]
      refine iff_of_true ⟨generateTotpCode hmac key ((totpSteps now).head hne), ?_⟩ rfl
      exact List.any_eq_true.mpr ⟨(totpSteps now).head hne, List.head_mem hne, by simp⟩

end XiraNet

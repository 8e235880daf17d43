import Mathlib
import XiraNet.Identity.Mfa
import XiraNet.Lib.BitGroups

/-!
# Base32

The base32 text of a secret, of `identity/mfa.rs`. The buffer of the encoder is a `u64` and that of
the decoder a `u32`, and both lose the bits that are shifted out.

## Main result

* `base32Decode_respelled`: the text of some bytes decodes to exactly these bytes, in any case and
  with any padding and white space; a text with any other character does not decode.
-/

namespace XiraNet

open BitGroups

/-- The character of a value, `ALPHABET[index]`; every index is a value below 32. -/
def base32Char (index : ℕ) : Char := "ABCDEFGHIJKLMNOPQRSTUVWXYZ234567".toList.getD index 'A'

/-- The inner loop of `base32_encode`, over the number of bits in the buffer. -/
def base32Drain (buffer : ℕ) : ℕ → List Char → ℕ × List Char
  | bitsLeft + 5, result =>
      base32Drain buffer bitsLeft (result ++ [base32Char ((buffer >>> bitsLeft) &&& 0x1f)])
  | bitsLeft, result => (bitsLeft, result)

/-- The outer loop of `base32_encode` over the bytes that are left, and the last character. -/
def base32EncodeLoop : List UInt8 → ℕ → ℕ → List Char → List Char
  | [], buffer, bitsLeft, result =>
      if 0 < bitsLeft then
        result ++ [base32Char (((buffer <<< (5 - bitsLeft)) % 2 ^ 64) &&& 0x1f)]
      else result
  | byte :: data, buffer, bitsLeft, result =>
      -- `buffer << 8` on a `u64` drops the bits that were taken out long ago.
      let buffer := ((buffer <<< 8) % 2 ^ 64) ||| byte.toNat
      let drained := base32Drain buffer (bitsLeft + 8) result
      base32EncodeLoop data buffer drained.1 drained.2

/-- `base32_encode`. -/
def base32Encode (data : List UInt8) : String := String.ofList (base32EncodeLoop data 0 0 [])

/-- A character that `base32_decode` skips. -/
def isBase32Skipped (c : Char) : Prop := c = '=' ∨ Text.isWhitespace c = true

/-- Another spelling of a base32 text: letters in the other case, and padding and white space
anywhere. -/
inductive Respelled : List Char → List Char → Prop
  | nil : Respelled [] []
  | skip {s t : List Char} {c : Char} : isBase32Skipped c → Respelled s t → Respelled s (c :: t)
  | keep {s t : List Char} {c c' : Char} : c' = c ∨ c' = c.toLower ∨ c' = c.toUpper →
      Respelled s t → Respelled (c :: s) (c' :: t)

/-- A character that has no place in a base32 text. -/
def IsForeign (c : Char) : Prop :=
  ¬ isBase32Skipped c ∧ c.isAlpha = false ∧ ¬ ('2' ≤ c ∧ c ≤ '7')

/-- The bits of a byte. -/
def byteBits (b : UInt8) : List Bool := bits 8 b.toNat

theorem length_byteBits (b : UInt8) : (byteBits b).length = 8 := length_bits 8 b.toNat

theorem byteBits_ofNat (n : ℕ) : byteBits (UInt8.ofNat (n &&& 0xff)) = bits 8 n := by
  rw [byteBits, UInt8.toNat_ofNat', bits_mod le_rfl]
  exact bits_and_mask 8 n

theorem byteBits_injective : Function.Injective byteBits := fun a b h =>
  UInt8.toNat_inj.mp (bits_inj a.toNat_lt b.toNat_lt h)

/-- The mask of a group of five keeps its bits. -/
theorem bits_and_five (n : ℕ) : bits 5 (n &&& 0x1f) = bits 5 n := bits_and_mask 5 n

theorem and_five_lt (n : ℕ) : n &&& 0x1f < 32 := Nat.and_lt_two_pow (n := 5) n (by omega)

/-! ### The encoder -/

/-- The inner loop takes the groups of five out of the buffer. -/
theorem base32Drain_spec (buffer bitsLeft : ℕ) (result : List Char) :
    ∃ ds : List ℕ, (∀ d ∈ ds, d < 32) ∧
      (base32Drain buffer bitsLeft result).2 = result ++ ds.map base32Char ∧
      (base32Drain buffer bitsLeft result).1 < 5 ∧
      bits bitsLeft buffer =
        ds.flatMap (bits 5) ++ bits (base32Drain buffer bitsLeft result).1 buffer := by
  induction bitsLeft, result using base32Drain.induct buffer with
  | case1 bitsLeft result ih =>
      obtain ⟨ds, hds, hresult, hleft, hbits⟩ := ih
      refine ⟨((buffer >>> bitsLeft) &&& 0x1f) :: ds, ?_, ?_, ?_, ?_⟩
      · exact List.forall_mem_cons.mpr ⟨and_five_lt _, hds⟩
      · rw [base32Drain, hresult, List.append_assoc]
        rfl
      · rw [base32Drain]
        exact hleft
      · rw [base32Drain, List.flatMap_cons, List.append_assoc, ← hbits, bits_and_five, ← bits_add,
          Nat.add_comm 5]
  | case2 bitsLeft result hsmall =>
      have hlt : bitsLeft < 5 := by
        by_contra hge
        exact hsmall (bitsLeft - 5) (by omega)
      have hstop : base32Drain buffer bitsLeft result = (bitsLeft, result) := by
        unfold base32Drain
        split
        next => omega
        next => rfl
      rw [hstop]
      exact ⟨[], by simp, by simp, hlt, by simp⟩

/-- The groups of five of a text are the pending bits, the bits of the bytes, and fewer than five
zeros. -/
theorem base32EncodeLoop_spec (data : List UInt8) (buffer : ℕ) {bitsLeft : ℕ}
    (hleft : bitsLeft < 5) (result : List Char) :
    ∃ ds : List ℕ, (∀ d ∈ ds, d < 32) ∧
      base32EncodeLoop data buffer bitsLeft result = result ++ ds.map base32Char ∧
      ∃ n < 5, ds.flatMap (bits 5) =
        bits bitsLeft buffer ++ data.flatMap byteBits ++ List.replicate n false := by
  induction data generalizing buffer bitsLeft result with
  | nil =>
      rw [base32EncodeLoop]
      by_cases hpos : 0 < bitsLeft
      · -- The last character is filled up with zeros.
        set d := (buffer <<< (5 - bitsLeft)) % 2 ^ 64 &&& 0x1f with hd
        refine ⟨[d], by simpa using and_five_lt _, by simp [hpos], 5 - bitsLeft, by omega, ?_⟩
        have hbits := bits_shiftLeft bitsLeft (5 - bitsLeft) buffer
        rw [Nat.add_sub_cancel' (by omega)] at hbits
        simp only [List.flatMap_cons, List.flatMap_nil, List.append_nil]
        rw [hd, bits_and_five, bits_mod (by omega), hbits]
      · obtain rfl : bitsLeft = 0 := by omega
        exact ⟨[], by simp, by simp, 0, by omega, rfl⟩
  | cons byte data ih =>
      obtain ⟨ds, hds, hresult, hleft', hbits⟩ :=
        base32Drain_spec (((buffer <<< 8) % 2 ^ 64) ||| byte.toNat) (bitsLeft + 8) result
      obtain ⟨ds', hds', hresult', n, hn, hbits'⟩ :=
        ih (((buffer <<< 8) % 2 ^ 64) ||| byte.toNat) hleft'
          (base32Drain (((buffer <<< 8) % 2 ^ 64) ||| byte.toNat) (bitsLeft + 8) result).2
      refine ⟨ds ++ ds', ?_, ?_, n, hn, ?_⟩
      · exact List.forall_mem_append.mpr ⟨hds, hds'⟩
      · rw [base32EncodeLoop, hresult', hresult, List.map_append, List.append_assoc]
      · rw [bits_push (by omega) byte.toNat_lt] at hbits
        rw [List.flatMap_append, hbits', ← List.append_assoc, ← List.append_assoc, ← hbits]
        simp [byteBits]

/-! ### The decoder -/

/-- The groups of eight of the decoded bytes are the pending bits and the bits of the characters,
up to fewer than eight bits. -/
theorem base32DecodeLoop_spec {ds : List ℕ} (hds : ∀ d ∈ ds, d < 32) {cs : List Char}
    (hcs : cs.map base32Value = ds.map some) (buffer : ℕ) {bitsLeft : ℕ} (hleft : bitsLeft < 8)
    (result : List UInt8) :
    ∃ (bytes : List UInt8) (rest : List Bool),
      base32DecodeLoop cs buffer bitsLeft result = some (result ++ bytes) ∧ rest.length < 8 ∧
      bits bitsLeft buffer ++ ds.flatMap (bits 5) = bytes.flatMap byteBits ++ rest := by
  induction ds generalizing cs buffer bitsLeft result with
  | nil =>
      obtain rfl : cs = [] := by simpa using hcs
      exact ⟨[], bits bitsLeft buffer, by simp [base32DecodeLoop], by simpa using hleft, by simp⟩
  | cons d ds ih =>
      obtain ⟨hd, hds⟩ := List.forall_mem_cons.mp hds
      cases cs with
      | nil => cases hcs
      | cons c cs =>
          obtain ⟨hc, hcs⟩ := List.cons.inj hcs
          rw [base32DecodeLoop, hc]
          -- The buffer with the new group, of which at most twelve bits are pending.
          have hpush := bits_push (m := 32) (by omega : bitsLeft + 5 ≤ 32) hd buffer
          simp only [List.flatMap_cons, ← List.append_assoc, ← hpush]
          split
          next hfull =>
            obtain ⟨bytes, rest, hloop, hrest, hbits⟩ := ih hds hcs
              ((buffer <<< 5) % 2 ^ 32 ||| d) (by omega : bitsLeft + 5 - 8 < 8)
              (result ++ [UInt8.ofNat
                (((buffer <<< 5) % 2 ^ 32 ||| d) >>> (bitsLeft + 5 - 8) &&& 0xff)])
            refine ⟨_, rest, hloop.trans (by rw [List.append_assoc]), hrest, ?_⟩
            -- A full byte leaves the buffer.
            have hsplit := bits_add 8 (bitsLeft + 5 - 8) ((buffer <<< 5) % 2 ^ 32 ||| d)
            rw [show 8 + (bitsLeft + 5 - 8) = bitsLeft + 5 by omega] at hsplit
            rw [hsplit, List.append_assoc, hbits, List.singleton_append, List.flatMap_cons,
              List.append_assoc, byteBits_ofNat]
          next =>
            exact ih hds hcs _ (by omega) result

/-- Decoding fails at a character that is neither skipped nor has a value. -/
theorem base32DecodeLoop_eq_none_iff {cs : List Char} {buffer bitsLeft : ℕ} {result : List UInt8} :
    base32DecodeLoop cs buffer bitsLeft result = none ↔ ∃ c ∈ cs, base32Value c = none := by
  induction cs generalizing buffer bitsLeft result with
  | nil => simp [base32DecodeLoop]
  | cons c cs ih =>
      rw [base32DecodeLoop, List.exists_mem_cons_iff]
      cases hc : base32Value c with
      | none => simp
      | some val =>
          simp only [reduceCtorEq, false_or]
          split
          next => exact ih
          next => exact ih

theorem toNat_toUpper (c : Char) :
    c.toUpper.toNat = if 97 ≤ c.toNat ∧ c.toNat ≤ 122 then c.toNat - 32 else c.toNat := by
  have hlower : ('a'.val ≤ c.val ∧ c.val ≤ 'z'.val) ↔ 97 ≤ c.toNat ∧ c.toNat ≤ 122 := by
    rw [UInt32.le_iff_toNat_le, UInt32.le_iff_toNat_le]
    rfl
  unfold Char.toUpper
  by_cases h : 'a'.val ≤ c.val ∧ c.val ≤ 'z'.val
  · -- Adding the distance between the cases wraps around.
    rw [dif_pos h, if_pos (hlower.mp h)]
    have hrange := hlower.mp h
    have hsum := UInt32.toNat_add c.val ('A'.val - 'a'.val)
    rw [show ('A'.val - 'a'.val).toNat = 4294967264 from rfl] at hsum
    change (c.val + ('A'.val - 'a'.val)).toNat = c.toNat - 32
    change 97 ≤ c.val.toNat ∧ c.val.toNat ≤ 122 at hrange
    change _ = c.val.toNat - 32
    omega
  · rw [dif_neg h, if_neg (fun hrange => h (hlower.mpr hrange))]

/-- The characters with a value, by their code points. -/
theorem base32Value_eq_none_iff_toNat (c : Char) : base32Value c = none ↔
    ¬ ((65 ≤ c.toNat ∧ c.toNat ≤ 90) ∨ (97 ≤ c.toNat ∧ c.toNat ≤ 122) ∨
      (50 ≤ c.toNat ∧ c.toNat ≤ 55)) := by
  have hle : ∀ {a b : Char}, a ≤ b ↔ a.toNat ≤ b.toNat := UInt32.le_iff_toNat_le
  simp only [base32Value, hle, show 'A'.toNat = 65 from rfl, show 'Z'.toNat = 90 from rfl,
    show '2'.toNat = 50 from rfl, show '7'.toNat = 55 from rfl, toNat_toUpper]
  split_ifs <;> simp only [false_iff, true_iff] <;> omega

/-- A character without a value is no letter and no digit of the alphabet. -/
theorem base32Value_eq_none_iff (c : Char) :
    base32Value c = none ↔ c.isAlpha = false ∧ ¬ ('2' ≤ c ∧ c ≤ '7') := by
  have halpha : c.isAlpha = true ↔
      (65 ≤ c.toNat ∧ c.toNat ≤ 90) ∨ (97 ≤ c.toNat ∧ c.toNat ≤ 122) := by
    simp [Char.isAlpha, Char.isUpper, Char.isLower, UInt32.le_iff_toNat_le]
  have hdigit : ('2' ≤ c ∧ c ≤ '7') ↔ 50 ≤ c.toNat ∧ c.toNat ≤ 55 := by
    exact and_congr UInt32.le_iff_toNat_le UInt32.le_iff_toNat_le
  rw [base32Value_eq_none_iff_toNat, ← Bool.not_eq_true, halpha, hdigit, ← not_or, or_assoc]

/-- A character with a value is not skipped. -/
theorem keep_of_base32Value {c : Char} {d : ℕ} (h : base32Value c = some d) :
    (c ≠ '=' && !Text.isWhitespace c) = true := by
  have hrange := (base32Value_eq_none_iff_toNat c).not.mp (by rw [h]; exact Option.some_ne_none d)
  have hne : c ≠ '=' := by
    rintro rfl
    exact hrange (by decide)
  have hspace : Text.isWhitespace c = false := by
    simp only [Text.isWhitespace, Bool.or_eq_false_iff, Bool.and_eq_false_iff,
      decide_eq_false_iff_not]
    omega
  rw [hspace, decide_eq_true hne]
  rfl

/-! ### Other spellings -/

/-- Every text is a spelling of itself. -/
theorem Respelled.refl (s : List Char) : Respelled s s := by
  induction s with
  | nil => exact .nil
  | cons c s ih => exact .keep (.inl rfl) ih

/-- The characters of the alphabet have their values in either case. -/
theorem base32Value_base32Char : ∀ d < 32, base32Value (base32Char d) = some d ∧
    base32Value (base32Char d).toLower = some d ∧ base32Value (base32Char d).toUpper = some d := by
  decide +kernel

/-- Another spelling has the same values. -/
theorem values_of_respelled {ds : List ℕ} (hds : ∀ d ∈ ds, d < 32) {t : List Char}
    (h : Respelled (ds.map base32Char) t) :
    (t.filter fun c => c ≠ '=' && !Text.isWhitespace c).map base32Value = ds.map some := by
  generalize hs : ds.map base32Char = s at h
  induction h generalizing ds with
  | nil => rw [List.map_eq_nil_iff.mp hs, List.filter_nil, List.map_nil, List.map_nil]
  | @skip s t c hc _ ih =>
      have hskip : (c ≠ '=' && !Text.isWhitespace c) = false := by
        rcases hc with rfl | hc
        · rfl
        · rw [hc, Bool.not_true, Bool.and_false]
      rw [List.filter_cons, if_neg (Bool.eq_false_iff.mp hskip), ih hds hs]
  | @keep s t c c' hc _ ih =>
      cases ds with
      | nil => cases hs
      | cons d ds =>
          obtain ⟨hd, hds⟩ := List.forall_mem_cons.mp hds
          obtain ⟨hhead, htail⟩ := List.cons.inj hs
          subst hhead
          have hval : base32Value c' = some d := by
            obtain ⟨hsame, hlower, hupper⟩ := base32Value_base32Char d hd
            rcases hc with rfl | rfl | rfl
            · exact hsame
            · exact hlower
            · exact hupper
          rw [List.filter_cons, if_pos (keep_of_base32Value hval), List.map_cons, hval,
            ih hds htail, List.map_cons]

/-- Decoding undoes encoding, in any spelling. -/
theorem base32Decode_of_respelled (b : List UInt8) {s : String}
    (h : Respelled (base32Encode b).toList s.toList) : base32Decode s = some b := by
  obtain ⟨ds, hds, hresult, n, hn, hencoded⟩ :=
    base32EncodeLoop_spec b 0 (by omega : 0 < 5) []
  rw [base32Encode, String.toList_ofList, hresult, List.nil_append] at h
  obtain ⟨bytes, rest, hloop, hrest, hdecoded⟩ := base32DecodeLoop_spec hds
    (values_of_respelled hds h) 0 (by omega : 0 < 8) []
  rw [base32Decode, hloop, List.nil_append]
  -- Both streams of bits are the groups of five of the text.
  have hstream : bytes.flatMap byteBits ++ rest = b.flatMap byteBits ++ List.replicate n false := by
    calc bytes.flatMap byteBits ++ rest = bits 0 0 ++ ds.flatMap (bits 5) := hdecoded.symm
      _ = b.flatMap byteBits ++ List.replicate n false := by
          rw [hencoded, bits, List.nil_append, List.nil_append]
  have hzeros : (List.replicate n false).length < 8 := by
    rw [List.length_replicate]
    omega
  rw [(flatMap_inj length_byteBits byteBits_injective hrest hzeros hstream).1]

/-- The text of some bytes decodes to exactly these bytes, in any spelling, and a text fails to
decode exactly if it has a character of another kind. -/
theorem base32Decode_respelled (b : List UInt8) :
    base32Decode (base32Encode b) = some b ∧
    (∀ s : String, Respelled (base32Encode b).toList s.toList → base32Decode s = some b) ∧
    ∀ s : String, base32Decode s = none ↔ ∃ c ∈ s.toList, IsForeign c := by
  refine ⟨base32Decode_of_respelled b (.refl _), fun s => base32Decode_of_respelled b,
    fun s => ?_⟩
  rw [base32Decode, base32DecodeLoop_eq_none_iff]
  simp only [List.mem_filter, base32Value_eq_none_iff, IsForeign, isBase32Skipped, and_assoc]
  refine exists_congr fun c => and_congr_right fun _ => and_congr_left' ?_
  simp

end XiraNet

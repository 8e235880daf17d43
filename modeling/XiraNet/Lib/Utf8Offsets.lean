import XiraNet.Lib.PercentRounds
import XiraNet.Lib.Text

/-!
# Byte offsets in UTF-8 text

Text that is read by byte offsets: which offsets lie between characters, and what an ASCII byte at
such an offset says about the characters.
-/

namespace Text

/-- `s[n..]`, on the characters, without a value where it panics. -/
def sliceFrom : ℕ → List Char → Option (List Char)
  | 0, s => some s
  | _ + 1, [] => none
  | n + 1, c :: s => if c.utf8Size ≤ n + 1 then sliceFrom (n + 1 - c.utf8Size) s else none

/-- A slice that starts behind a number of whole characters. -/
theorem sliceFrom_append (a b : List Char) : sliceFrom (byteLength a) (a ++ b) = some b := by
  induction a with
  | nil => simp [byteLength, sliceFrom]
  | cons c a ih =>
      have hpos := c.utf8Size_pos
      have hlength := byteLength_cons c a
      obtain ⟨n, hn⟩ : ∃ n, byteLength (c :: a) = n + 1 := Nat.exists_eq_add_one.mpr (by omega)
      have hrest : n + 1 - c.utf8Size = byteLength a := by omega
      rw [List.cons_append, hn, sliceFrom, if_pos (by omega), hrest, ih]

/-- A slice is taken exactly if it starts in the string and not inside a character. -/
theorem isSome_sliceFrom_iff {n : ℕ} {s : List Char} :
    (sliceFrom n s).isSome = true ↔ n ≤ byteLength s ∧ ¬ IsInside n s := by
  rw [← isSome_sliceTo_iff]
  induction s generalizing n with
  | nil => cases n <;> rfl
  | cons c s ih =>
      cases n with
      | zero => rfl
      | succ n =>
          rw [sliceFrom, sliceTo]
          split
          next => rw [ih, Option.isSome_map]
          next => rfl

/-- The end of a number of whole characters is not inside a character. -/
theorem not_isInside_append (a b : List Char) : ¬ IsInside (byteLength a) (a ++ b) := by
  refine (isSome_sliceFrom_iff.mp ?_).2
  rw [sliceFrom_append]
  rfl

end Text

namespace Utf8

/-- The bytes of some characters. -/
def encodeChars (s : List Char) : List UInt8 := s.flatMap String.utf8EncodeChar

@[simp]
theorem encodeChars_append (s t : List Char) :
    encodeChars (s ++ t) = encodeChars s ++ encodeChars t := List.flatMap_append

/-- The number of bytes. -/
theorem length_encodeChars (s : List Char) : (encodeChars s).length = Text.byteLength s := by
  rw [encodeChars, List.length_flatMap, Text.byteLength]
  congr 1
  exact List.map_congr_left fun c _ => String.length_utf8EncodeChar c

/-- The number of bytes of a string. -/
theorem length_encode (s : String) : (encode s).length = Text.byteLength s.toList :=
  length_encodeChars s.toList

/-- What decodes are the bytes of the string. -/
theorem encode_of_decode {bytes : List UInt8} {s : String} (h : decode bytes = some s) :
    encode s = bytes := by
  have hbytes : (encode s).toByteArray = s.toByteArray := by
    rw [← String.utf8Encode_toList]
    rfl
  rw [decode, String.fromUTF8?] at h
  split at h
  next =>
    cases h
    exact List.toByteArray_inj.mp hbytes
  next => cases h

/-- ASCII characters have one byte each. -/
theorem encodeChars_of_ascii {s : List Char} (hs : ∀ c ∈ s, c.toNat < 128) :
    encodeChars s = asciiBytes s := by
  rw [← encode_ofList_of_ascii hs, encode, String.toList_ofList, encodeChars]

/-- A text of ASCII characters has as many bytes. -/
theorem byteLength_of_ascii {s : List Char} (hs : ∀ c ∈ s, c.toNat < 128) :
    Text.byteLength s = s.length := by
  rw [← length_encodeChars, encodeChars_of_ascii hs, asciiBytes, List.length_map]

/-- The first byte of any other character is not ASCII. -/
theorem head_utf8EncodeChar {c : Char} (hc : 128 ≤ c.toNat) {b : UInt8} {bs : List UInt8}
    (h : String.utf8EncodeChar c = b :: bs) : 128 ≤ b.toNat := by
  have hval : c.val.toNat = c.toNat := rfl
  unfold String.utf8EncodeChar at h
  dsimp only at h
  -- Two, three or four bytes, and the first one is at least 192.
  split_ifs at h <;> obtain ⟨rfl, -⟩ := List.cons.inj h <;> simp only [UInt8.toNat_ofNat'] <;> omega

/-- An ASCII byte at the head of a text is its first character. -/
theorem eq_cons_of_encodeChars {t : List Char} {c : Char} (hc : c.toNat < 128) {bs : List UInt8}
    (h : encodeChars t = UInt8.ofNat c.toNat :: bs) : ∃ t', t = c :: t' ∧ encodeChars t' = bs := by
  cases t with
  | nil => cases h
  | cons d t =>
      have hbyte : (UInt8.ofNat c.toNat).toNat = c.toNat := by
        rw [UInt8.toNat_ofNat']
        omega
      rw [encodeChars, List.flatMap_cons] at h
      by_cases hd : d.toNat < 128
      · have hsingle : String.utf8EncodeChar d = [UInt8.ofNat d.toNat] :=
          if_pos (Nat.le_of_lt_succ hd)
        rw [hsingle, List.singleton_append] at h
        obtain ⟨hhead, htail⟩ := List.cons.inj h
        have hsame := congrArg UInt8.toNat hhead
        rw [hbyte, UInt8.toNat_ofNat', Nat.mod_eq_of_lt (by omega)] at hsame
        exact ⟨t, congrArg (· :: t) (Char.toNat_inj.mp hsame), htail⟩
      · obtain ⟨b, bs', hd'⟩ := List.exists_cons_of_ne_nil (String.utf8EncodeChar_ne_nil (c := d))
        rw [hd', List.cons_append] at h
        have hhigh := head_utf8EncodeChar (by omega) hd'
        rw [(List.cons.inj h).1, hbyte] at hhigh
        omega

/-- ASCII bytes at the head of a text are its first characters. -/
theorem eq_append_of_encodeChars {s t : List Char} (hs : ∀ c ∈ s, c.toNat < 128)
    {bs : List UInt8} (h : encodeChars t = asciiBytes s ++ bs) :
    ∃ t', t = s ++ t' ∧ encodeChars t' = bs := by
  induction s generalizing t with
  | nil => exact ⟨t, rfl, h⟩
  | cons c s ih =>
      rw [List.forall_mem_cons] at hs
      obtain ⟨t', rfl, ht'⟩ := eq_cons_of_encodeChars hs.1 h
      obtain ⟨u, rfl, hu⟩ := ih hs.2 ht'
      exact ⟨u, rfl, hu⟩

end Utf8

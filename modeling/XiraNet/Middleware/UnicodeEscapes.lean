import Mathlib.Data.List.DropRight
import XiraNet.Lib.Utf8Offsets
import XiraNet.Middleware.WafNormalize

/-!
# Escapes by byte offsets

`unicode_escape_decode` of `middleware/waf.rs` as the source has it: an index moves over the bytes
of the string, escapes are read from slices of the bytes, and every other character is read from
the slice of the string that starts at the index. An access that panics has no value.

## Main result

* `unicodeEscapeBytes_total`: the loop ends without a panic with the decoded text, its index never
  stands inside a character, a text without a backslash is unchanged, and what comes after five
  bytes without a backslash is decoded on its own.
-/

namespace XiraNet

namespace Waf

/-- `&bytes[a..b]`. -/
def byteRange (bytes : List UInt8) (a b : ℕ) : Option (List UInt8) :=
  if a ≤ b ∧ b ≤ bytes.length then some ((bytes.drop a).take (b - a)) else none

/-- The number of an escape at index `i` with this letter behind the backslash and so many
digits, if there is one. -/
def readEscape (bytes : List UInt8) (i : ℕ) (letter : UInt8) (digits : ℕ) : Option (Option ℕ) :=
  if i + (digits + 1) < bytes.length then do
    let first ← bytes[i]?
    let second ← bytes[i + 1]?
    if first = 0x5c ∧ second = letter then do
      let hex ← byteRange bytes (i + 2) (i + (digits + 2))
      some ((Utf8.decode hex).bind fun h => fromStrRadix16 h.toList)
    else some none
  else some none

/-- The index and the output of the loop. -/
structure EscapeState where
  index : ℕ
  out : List Char

/-- The body of the loop. -/
def escapeRound (s : String) (st : EscapeState) : Option EscapeState := do
  let bytes := Utf8.encode s
  let unicode ← readEscape bytes st.index 0x75 4
  -- `char::from_u32` fails on surrogates.
  match unicode.bind fun code => if code.isValidChar then some (Char.ofNat code) else none with
  | some c => some ⟨st.index + 6, st.out ++ [c]⟩
  | none => do
      let hex ← readEscape bytes st.index 0x78 2
      match hex with
      | some code => some ⟨st.index + 4, st.out ++ [Char.ofNat code]⟩
      | none => do
          let rest ← Text.sliceFrom st.index s.toList
          match rest.head? with
          | some ch => some ⟨st.index + ch.utf8Size, st.out ++ [ch]⟩
          | none => some ⟨st.index + 1, st.out⟩

/-- The loop of `unicode_escape_decode`, for at most so many rounds. -/
def escapeRounds (s : String) : ℕ → EscapeState → Option String
  | 0, _ => none
  | n + 1, st =>
      if st.index < (Utf8.encode s).length then (escapeRound s st).bind (escapeRounds s n)
      else some (String.ofList st.out)

/-- `unicode_escape_decode`, without a value if it panics or has more rounds than bytes. -/
def unicodeEscapeBytes (s : String) : Option String :=
  escapeRounds s ((Utf8.encode s).length + 1) ⟨0, []⟩

/-- The states that the loop comes to. -/
inductive EscapeReached (s : String) : EscapeState → Prop
  | start : EscapeReached s ⟨0, []⟩
  | round {st st' : EscapeState} : EscapeReached s st → st.index < (Utf8.encode s).length →
      escapeRound s st = some st' → EscapeReached s st'

/-! ### Escapes on the characters -/

/-- The number of an escape at the head of the characters. -/
def escapeNumber (letter : Char) (digits : ℕ) : List Char → Option ℕ
  | '\\' :: c :: rest =>
      if c = letter ∧ digits ≤ rest.length then fromStrRadix16 (rest.take digits) else none
  | _ => none

/-- The digits of a number are ASCII. -/
theorem ascii_of_fromStrRadix16 {digits : List Char} {n : ℕ} (h : fromStrRadix16 digits = some n) :
    ∀ c ∈ digits, c.toNat < 128 := by
  have hfold : ∀ {ds : List Char} {m : ℕ}, (ds.foldlM (fun n c =>
      if c.toNat < 128 then (Percent.hexValue (UInt8.ofNat c.toNat)).map (16 * n + ·) else none) m)
        = some n → ∀ c ∈ ds, c.toNat < 128 := by
    intro ds
    induction ds with
    | nil => exact fun _ c hc => absurd hc List.not_mem_nil
    | cons d ds ih =>
        intro m hm
        rw [List.foldlM_cons] at hm
        obtain ⟨k, hk, hrest⟩ := Option.bind_eq_some_iff.mp hm
        split at hk
        next hd => exact List.forall_mem_cons.mpr ⟨hd, ih hrest⟩
        next => cases hk
  unfold fromStrRadix16 at h
  dsimp only at h
  split_ifs at h
  split at h
  next rest => exact List.forall_mem_cons.mpr ⟨by decide, hfold h⟩
  next => exact hfold h

/-- What an escape on the characters looks like. -/
theorem escapeNumber_eq_some_iff {letter : Char} {digits n : ℕ} {s : List Char} :
    escapeNumber letter digits s = some n ↔ ∃ hex rest, s = '\\' :: letter :: (hex ++ rest) ∧
      hex.length = digits ∧ fromStrRadix16 hex = some n := by
  constructor
  · intro h
    unfold escapeNumber at h
    split at h
    next c rest =>
      split_ifs at h with hc
      obtain ⟨rfl, hle⟩ := hc
      refine ⟨rest.take digits, rest.drop digits, ?_, List.length_take_of_le hle, h⟩
      rw [List.take_append_drop]
    next => cases h
  · rintro ⟨hex, rest, rfl, rfl, h⟩
    rw [escapeNumber, if_pos ⟨rfl, by simp⟩, List.take_left, h]

/-- Without digits behind the letter there is no escape. -/
theorem escapeNumber_eq_none {letter : Char} {digits : ℕ} {s : List Char}
    (h : ∀ hex rest, s = '\\' :: letter :: (hex ++ rest) → hex.length = digits →
      fromStrRadix16 hex = none) : escapeNumber letter digits s = none := by
  rw [Option.eq_none_iff_forall_ne_some]
  intro n hn
  obtain ⟨hex, rest, hs, hlength, hnumber⟩ := escapeNumber_eq_some_iff.mp hn
  rw [h hex rest hs hlength] at hnumber
  cases hnumber

/-- An escape on the characters. -/
theorem escapeAt_eq (s : List Char) :
    escapeAt s = (((escapeNumber 'u' 4 s).bind fun code =>
      if code.isValidChar then some (Char.ofNat code) else none).map (·, 6)).or
        ((escapeNumber 'x' 2 s).map fun code => (Char.ofNat code, 4)) := by
  unfold escapeAt
  split
  next a b c d rest =>
    have hunicode : escapeNumber 'u' 4 ('\\' :: 'u' :: a :: b :: c :: d :: rest) =
        fromStrRadix16 [a, b, c, d] := by
      rw [escapeNumber, if_pos ⟨rfl, by simp⟩]
      rfl
    have hhex : escapeNumber 'x' 2 ('\\' :: 'u' :: a :: b :: c :: d :: rest) = none := by
      rw [escapeNumber, if_neg (fun h => absurd h.1 (by decide))]
    rw [hunicode, hhex, Option.map_none, Option.or_none, Option.map_bind]
    refine congrArg _ (funext fun code => ?_)
    simp only [Function.comp_apply]
    split <;> rfl
  next a b rest =>
    have hunicode : escapeNumber 'u' 4 ('\\' :: 'x' :: a :: b :: rest) = none := by
      rw [escapeNumber, if_neg (fun h => absurd h.1 (by decide))]
    have hhex : escapeNumber 'x' 2 ('\\' :: 'x' :: a :: b :: rest) = fromStrRadix16 [a, b] := by
      rw [escapeNumber, if_pos ⟨rfl, by simp⟩]
      rfl
    rw [hunicode, hhex]
    rfl
  next hu hx =>
    have hunicode : escapeNumber 'u' 4 s = none := by
      refine escapeNumber_eq_none fun hex rest hs hlength => ?_
      obtain ⟨a, b, c, d, rfl⟩ := List.length_eq_four.mp hlength
      exact absurd hs (hu a b c d rest)
    have hhex : escapeNumber 'x' 2 s = none := by
      refine escapeNumber_eq_none fun hex rest hs hlength => ?_
      obtain ⟨a, b, rfl⟩ := List.length_eq_two.mp hlength
      exact absurd hs (hx a b rest)
    rw [hunicode, hhex]
    rfl

/-! ### Escapes on the bytes -/

/-- An escape is read in the same way behind other bytes. -/
theorem readEscape_append (before bytes : List UInt8) (letter : UInt8) (digits : ℕ) :
    readEscape (before ++ bytes) before.length letter digits =
      readEscape bytes 0 letter digits := by
  have hget : ∀ i, (before ++ bytes)[before.length + i]? = bytes[i]? := by
    intro i
    rw [List.getElem?_append_right (Nat.le_add_right _ _), Nat.add_sub_cancel_left]
  have hrange : ∀ a b, byteRange (before ++ bytes) (before.length + a) (before.length + b) =
      byteRange bytes a b := by
    intro a b
    simp only [byteRange, List.length_append, Nat.add_le_add_iff_left,
      List.drop_length_add_append, Nat.add_sub_add_left]
  have hfirst := hget 0
  rw [Nat.add_zero] at hfirst
  simp only [readEscape, hfirst, hget, hrange, List.length_append, Nat.add_lt_add_iff_left,
    Nat.zero_add]

/-- The digits of an escape are read from the bytes as from the characters. -/
theorem decode_take_eq (t : List Char) {digits : ℕ}
    (hle : digits ≤ (Utf8.encodeChars t).length) (n : ℕ) :
    ((Utf8.decode ((Utf8.encodeChars t).take digits)).bind fun h => fromStrRadix16 h.toList) =
      some n ↔ ∃ hex rest, t = hex ++ rest ∧ hex.length = digits ∧
        fromStrRadix16 hex = some n := by
  rw [Option.bind_eq_some_iff]
  constructor
  · rintro ⟨h, hdecode, hn⟩
    have hascii := ascii_of_fromStrRadix16 hn
    -- The bytes of the slice are the digits, so the text starts with them.
    have hbytes : (Utf8.encodeChars t).take digits = Utf8.asciiBytes h.toList := by
      rw [← Utf8.encode_of_decode hdecode, ← Utf8.encodeChars_of_ascii hascii]
      rfl
    obtain ⟨rest, rfl, -⟩ := Utf8.eq_append_of_encodeChars hascii
      (show Utf8.encodeChars t = Utf8.asciiBytes h.toList ++ (Utf8.encodeChars t).drop digits by
        rw [← hbytes, List.take_append_drop])
    have hlength := congrArg List.length hbytes
    rw [List.length_take_of_le hle, Utf8.asciiBytes, List.length_map] at hlength
    exact ⟨h.toList, rest, rfl, hlength.symm, hn⟩
  · rintro ⟨hex, rest, rfl, rfl, hn⟩
    have hascii := ascii_of_fromStrRadix16 hn
    refine ⟨String.ofList hex, ?_, by rw [String.toList_ofList, hn]⟩
    have hlength : hex.length = (Utf8.asciiBytes hex).length := (List.length_map _).symm
    rw [Utf8.encodeChars_append, Utf8.encodeChars_of_ascii hascii, hlength, List.take_left,
      ← Utf8.encode_ofList_of_ascii hascii, Utf8.decode_encode]

/-- An escape at the first byte is one at the first character. -/
theorem readEscape_encodeChars (s : List Char) {letter : Char} (hletter : letter.toNat < 128)
    (digits : ℕ) : readEscape (Utf8.encodeChars s) 0 (UInt8.ofNat letter.toNat) digits =
      some (escapeNumber letter digits s) := by
  have hascii : ∀ c ∈ ['\\', letter], c.toNat < 128 := by simpa using hletter
  by_cases hshape : ∃ t, s = '\\' :: letter :: t ∧ digits ≤ (Utf8.encodeChars t).length
  · obtain ⟨t, rfl, hle⟩ := hshape
    have hbytes : Utf8.encodeChars ('\\' :: letter :: t) =
        0x5c :: UInt8.ofNat letter.toNat :: Utf8.encodeChars t := by
      rw [show '\\' :: letter :: t = ['\\', letter] ++ t from rfl, Utf8.encodeChars_append,
        Utf8.encodeChars_of_ascii hascii]
      rfl
    have hrange : byteRange (Utf8.encodeChars ('\\' :: letter :: t)) (0 + 2) (0 + (digits + 2)) =
        some ((Utf8.encodeChars t).take digits) := by
      rw [hbytes, byteRange, if_pos ⟨by omega, by simp only [List.length_cons]; omega⟩]
      simp only [Nat.zero_add, Nat.add_sub_cancel, List.drop_succ_cons, List.drop_zero]
    rw [readEscape, if_pos (by rw [hbytes]; simp only [List.length_cons]; omega), hrange, hbytes]
    simp only [List.getElem?_cons_zero, Nat.zero_add, List.getElem?_cons_succ,
      Option.bind_eq_bind, Option.bind_some, and_self, if_true]
    refine congrArg some (Option.ext fun n => ?_)
    rw [decode_take_eq t hle, escapeNumber_eq_some_iff]
    simp
  · have hnone : escapeNumber letter digits s = none := by
      refine escapeNumber_eq_none fun hex rest hs hlength => ?_
      -- The digits would be as many bytes.
      rw [Option.eq_none_iff_forall_ne_some]
      intro n hn
      refine hshape ⟨hex ++ rest, hs, ?_⟩
      rw [Utf8.length_encodeChars, Text.byteLength_append,
        Utf8.byteLength_of_ascii (ascii_of_fromStrRadix16 hn), hlength]
      exact Nat.le_add_right _ _
    rw [hnone, readEscape]
    split
    next hlt =>
      obtain ⟨b, c, bs, hbs⟩ : ∃ b c bs, Utf8.encodeChars s = b :: c :: bs := by
        match hs : Utf8.encodeChars s with
        | [] => rw [hs] at hlt; simp at hlt
        | [_] => rw [hs] at hlt; simp at hlt
        | b :: c :: bs => exact ⟨b, c, bs, rfl⟩
      rw [hbs] at hlt ⊢
      simp only [List.getElem?_cons_zero, Nat.zero_add, List.getElem?_cons_succ,
        Option.bind_eq_bind, Option.bind_some]
      rw [if_neg]
      rintro ⟨rfl, rfl⟩
      -- The two bytes are the first characters, and enough bytes come behind them.
      obtain ⟨t, rfl, ht⟩ := Utf8.eq_append_of_encodeChars hascii hbs
      refine hshape ⟨t, rfl, ?_⟩
      rw [ht]
      simp only [List.length_cons] at hlt
      omega
    next => rfl

/-- An escape at the index is read as from the characters. -/
theorem readEscape_at {s : String} {a b : List Char} (hs : s.toList = a ++ b) {letter : Char}
    (hletter : letter.toNat < 128) (digits : ℕ) :
    readEscape (Utf8.encode s) (Text.byteLength a) (UInt8.ofNat letter.toNat) digits =
      some (escapeNumber letter digits b) := by
  have hbytes : Utf8.encode s = Utf8.encodeChars a ++ Utf8.encodeChars b := by
    rw [← Utf8.encodeChars_append, ← hs]
    rfl
  rw [hbytes, ← Utf8.length_encodeChars, readEscape_append, readEscape_encodeChars b hletter]

/-- A round of the loop between two characters. -/
theorem escapeRound_eq {s : String} {a b : List Char} {c : Char} (hs : s.toList = a ++ c :: b)
    {st : EscapeState} (hindex : st.index = Text.byteLength a) :
    escapeRound s st = some (match escapeAt (c :: b) with
      | some (ch, len) => ⟨st.index + len, st.out ++ [ch]⟩
      | none => ⟨st.index + c.utf8Size, st.out ++ [c]⟩) := by
  have hunicode : readEscape (Utf8.encode s) st.index 0x75 4 =
      some (escapeNumber 'u' 4 (c :: b)) := by
    rw [hindex]
    exact readEscape_at hs (by decide : 'u'.toNat < 128) 4
  have hhex : readEscape (Utf8.encode s) st.index 0x78 2 =
      some (escapeNumber 'x' 2 (c :: b)) := by
    rw [hindex]
    exact readEscape_at hs (by decide : 'x'.toNat < 128) 2
  have hslice : Text.sliceFrom st.index s.toList = some (c :: b) := by
    rw [hindex, hs, Text.sliceFrom_append]
  rw [escapeAt_eq]
  simp only [escapeRound, hunicode, hhex, hslice, Option.bind_eq_bind, Option.bind_some]
  cases (escapeNumber 'u' 4 (c :: b)).bind fun code =>
      if code.isValidChar then some (Char.ofNat code) else none with
  | some ch => rfl
  | none =>
      cases escapeNumber 'x' 2 (c :: b) with
      | some code => rfl
      | none => rfl

/-! ### The loop -/

/-- An escape is some ASCII characters at the head of the text, whatever comes behind them. -/
theorem escapeAt_spec {s : List Char} {ch : Char} {len : ℕ} (h : escapeAt s = some (ch, len)) :
    ∃ p rest, s = p ++ rest ∧ p.length = len ∧ 0 < len ∧ len ≤ 6 ∧ (∀ c ∈ p, c.toNat < 128) ∧
      ∀ rest', escapeAt (p ++ rest') = some (ch, len) := by
  unfold escapeAt at h
  split at h
  next a b c d rest =>
    obtain ⟨code, hcode, hvalid⟩ := Option.bind_eq_some_iff.mp h
    have hascii := ascii_of_fromStrRadix16 hcode
    split at hvalid
    next =>
      obtain ⟨-, rfl⟩ := Prod.mk.inj (Option.some.inj hvalid)
      refine ⟨['\\', 'u', a, b, c, d], rest, rfl, rfl, by decide, by decide, ?_, fun _ => h⟩
      exact List.forall_mem_cons.mpr ⟨by decide, List.forall_mem_cons.mpr ⟨by decide, hascii⟩⟩
    next => cases hvalid
  next a b rest =>
    obtain ⟨code, hcode, hpair⟩ := Option.map_eq_some_iff.mp h
    obtain ⟨-, rfl⟩ := Prod.mk.inj hpair
    have hascii := ascii_of_fromStrRadix16 hcode
    refine ⟨['\\', 'x', a, b], rest, rfl, rfl, by decide, by decide, ?_, fun _ => h⟩
    exact List.forall_mem_cons.mpr ⟨by decide, List.forall_mem_cons.mpr ⟨by decide, hascii⟩⟩
  next => cases h

/-- Characters that are skipped might as well be dropped. -/
theorem unicodeEscapeLoop_drop (n : ℕ) (s : List Char) :
    unicodeEscapeLoop n s = unicodeEscapeLoop 0 (s.drop n) := by
  induction s generalizing n with
  | nil => cases n <;> rfl
  | cons c s ih =>
      cases n with
      | zero => rfl
      | succ n => rw [unicodeEscapeLoop, ih, List.drop_succ_cons]

/-- The loop after an escape. -/
theorem unicodeEscapeLoop_escape {p rest : List Char} {ch : Char}
    (h : escapeAt (p ++ rest) = some (ch, p.length)) (hpos : 0 < p.length) :
    unicodeEscapeLoop 0 (p ++ rest) = ch :: unicodeEscapeLoop 0 rest := by
  cases p with
  | nil => cases hpos
  | cons c p =>
      rw [List.cons_append] at h ⊢
      rw [unicodeEscapeLoop_of_escapeAt h, unicodeEscapeLoop_drop, List.length_cons,
        Nat.add_sub_cancel, List.drop_left]

/-- The loop after any other character. -/
theorem unicodeEscapeLoop_char {c : Char} {rest : List Char} (h : escapeAt (c :: rest) = none) :
    unicodeEscapeLoop 0 (c :: rest) = c :: unicodeEscapeLoop 0 rest := by
  rw [unicodeEscapeLoop, h]

/-- The index stands between two characters, and the rest of the text completes the output. -/
def EscapeState.Inv (s : String) (st : EscapeState) : Prop :=
  ∃ a b, s.toList = a ++ b ∧ st.index = Text.byteLength a ∧
    st.out ++ unicodeEscapeLoop 0 b = unicodeEscapeLoop 0 s.toList

/-- A round does not panic, keeps the invariant and moves the index on. -/
theorem EscapeState.Inv.round {s : String} {st : EscapeState} (h : st.Inv s)
    (hlt : st.index < (Utf8.encode s).length) :
    ∃ st', escapeRound s st = some st' ∧ st'.Inv s ∧ st.index < st'.index := by
  obtain ⟨a, b, hs, hindex, hout⟩ := h
  cases b with
  | nil =>
      -- Behind the last character the loop is over.
      rw [List.append_nil] at hs
      rw [Utf8.length_encode, hs, hindex] at hlt
      exact absurd hlt (lt_irrefl _)
  | cons c b =>
      refine ⟨_, escapeRound_eq hs hindex, ?_⟩
      cases hescape : escapeAt (c :: b) with
      | none =>
          rw [unicodeEscapeLoop_char hescape] at hout
          refine ⟨⟨a ++ [c], b, by rw [hs, List.append_assoc]; rfl, ?_, ?_⟩, ?_⟩
          · rw [Text.byteLength_append, ← hindex]
            rfl
          · rw [List.append_assoc]
            exact hout
          · exact Nat.lt_add_of_pos_right c.utf8Size_pos
      | some pair =>
          obtain ⟨ch, len⟩ := pair
          obtain ⟨p, rest, heq, rfl, hpos, -, hascii, -⟩ := escapeAt_spec hescape
          rw [heq] at hescape
          rw [heq, unicodeEscapeLoop_escape hescape hpos] at hout
          refine ⟨⟨a ++ p, rest, by rw [hs, heq, List.append_assoc], ?_, ?_⟩, ?_⟩
          · rw [Text.byteLength_append, ← hindex, Utf8.byteLength_of_ascii hascii]
          · rw [List.append_assoc]
            exact hout
          · exact Nat.lt_add_of_pos_right hpos

theorem EscapeState.inv_start (s : String) : EscapeState.Inv s ⟨0, []⟩ :=
  ⟨[], s.toList, rfl, rfl, rfl⟩

/-- The invariant holds wherever the loop comes to. -/
theorem EscapeReached.inv {s : String} {st : EscapeState} (h : EscapeReached s st) : st.Inv s := by
  induction h with
  | start => exact EscapeState.inv_start s
  | round _ hlt hround ih =>
      obtain ⟨st', hst', hinv, -⟩ := ih.round hlt
      rw [hround] at hst'
      rwa [Option.some.inj hst']

/-- The loop has at most one round for each byte that is left, and ends with the decoded text. -/
theorem escapeRounds_eq {s : String} {n : ℕ} {st : EscapeState} (h : st.Inv s)
    (hn : (Utf8.encode s).length < n + st.index) :
    escapeRounds s n st = some (unicodeEscapeDecode s) := by
  induction n generalizing st with
  | zero =>
      obtain ⟨a, b, hs, hindex, -⟩ := h
      rw [Utf8.length_encode, hs, Text.byteLength_append] at hn
      omega
  | succ n ih =>
      rw [escapeRounds]
      split
      next hlt =>
        obtain ⟨st', hround, hinv, hmore⟩ := h.round hlt
        rw [hround, Option.bind_some, ih hinv (by omega)]
      next hge =>
        obtain ⟨a, b, hs, hindex, hout⟩ := h
        -- No byte is left, so no character is.
        have hempty : b = [] := by
          rw [Utf8.length_encode, hs, Text.byteLength_append] at hge
          exact Text.eq_nil_of_byteLength_eq_zero (by omega)
        rw [hempty, unicodeEscapeLoop, List.append_nil] at hout
        rw [hout, unicodeEscapeDecode]

/-- The decoder returns the decoded text. -/
theorem unicodeEscapeBytes_eq (s : String) :
    unicodeEscapeBytes s = some (unicodeEscapeDecode s) :=
  escapeRounds_eq (EscapeState.inv_start s) (by simp)

/-! ### What is decoded -/

/-- A text without a backslash is unchanged. -/
theorem unicodeEscapeLoop_of_not_mem {s : List Char} (h : '\\' ∉ s) :
    unicodeEscapeLoop 0 s = s := by
  induction s with
  | nil => rfl
  | cons c s ih =>
      rw [List.mem_cons, not_or] at h
      rw [unicodeEscapeLoop_char (escapeAt_of_ne (Ne.symm h.1) s), ih h.2]

/-- An escape in a text with enough bytes does not depend on what comes behind them. -/
theorem escapeAt_append {a : List Char} (ha : 6 ≤ Text.byteLength a) (b : List Char) :
    escapeAt (a ++ b) = escapeAt a := by
  cases h : escapeAt (a ++ b) with
  | none =>
      cases ha : escapeAt a with
      | none => rfl
      | some pair =>
          obtain ⟨p, rest, rfl, -, -, -, -, hany⟩ := escapeAt_spec ha
          rw [List.append_assoc, hany] at h
          cases h
  | some pair =>
      obtain ⟨ch, len⟩ := pair
      obtain ⟨p, rest, heq, rfl, -, hle, hascii, hany⟩ := escapeAt_spec h
      rcases List.append_eq_append_iff.mp heq with ⟨more, rfl, -⟩ | ⟨more, rfl, -⟩
      · -- The escape has no more than six bytes, so it ends where the text ends.
        have hsize := Utf8.byteLength_of_ascii hascii
        rw [Text.byteLength_append] at hsize
        obtain rfl : more = [] := Text.eq_nil_of_byteLength_eq_zero (by omega)
        have hself := hany []
        rw [List.append_nil, List.append_nil] at hself
        rw [List.append_nil, hself]
      · exact (hany more).symm

/-- A text that has at least five bytes behind each of its backslashes is decoded on its own. -/
theorem unicodeEscapeLoop_append_of_bytes {a : List Char}
    (ha : ∀ p q, a = p ++ '\\' :: q → 5 ≤ Text.byteLength q) (b : List Char) :
    unicodeEscapeLoop 0 (a ++ b) = unicodeEscapeLoop 0 a ++ unicodeEscapeLoop 0 b := by
  induction hlength : a.length using Nat.strong_induction_on generalizing a with
  | _ n ih =>
      subst hlength
      cases a with
      | nil => rfl
      | cons c a =>
          have hsame : escapeAt (c :: a ++ b) = escapeAt (c :: a) := by
            by_cases hc : c = '\\'
            · subst hc
              have hmany := ha [] a rfl
              refine escapeAt_append ?_ b
              -- The backslash is the sixth byte.
              show 6 ≤ 1 + Text.byteLength a
              omega
            · rw [List.cons_append, escapeAt_of_ne hc, escapeAt_of_ne hc]
          cases hescape : escapeAt (c :: a) with
          | none =>
              rw [hescape, List.cons_append] at hsame
              rw [List.cons_append, unicodeEscapeLoop_char hsame, unicodeEscapeLoop_char hescape,
                ih a.length (by simp) (fun p q h => ha (c :: p) q (by rw [h]; rfl)) rfl]
              rfl
          | some pair =>
              obtain ⟨ch, len⟩ := pair
              rw [hescape] at hsame
              obtain ⟨p, rest, heq, rfl, hpos, -, -, -⟩ := escapeAt_spec hescape
              rw [heq] at hescape hsame ha ⊢
              rw [List.append_assoc] at hsame ⊢
              have hshort : rest.length < (c :: a).length := by
                rw [heq, List.length_append]
                omega
              rw [unicodeEscapeLoop_escape hsame hpos, unicodeEscapeLoop_escape hescape hpos,
                ih rest.length hshort
                  (fun p' q h => ha (p ++ p') q (by rw [h, List.append_assoc])) rfl]
              rfl

/-- A backslash that is not among the last five bytes has five bytes behind it. -/
theorem bytes_of_not_mem_rtake {s : String} (h : 0x5c ∉ (Utf8.encode s).rtake 5) :
    ∀ p q, s.toList = p ++ '\\' :: q → 5 ≤ Text.byteLength q := by
  intro p q hs
  by_contra hfew
  have hbytes : Utf8.encode s = Utf8.encodeChars p ++ 0x5c :: Utf8.encodeChars q := by
    rw [show Utf8.encode s = Utf8.encodeChars s.toList from rfl, hs, Utf8.encodeChars_append]
    rfl
  refine h ?_
  rw [hbytes, List.rtake, List.drop_append_of_le_length]
  · simp
  · rw [List.length_append, List.length_cons, Utf8.length_encodeChars q]
    omega

/-- The text is decoded without a panic, and every piece of it on its own: the loop ends, the
index never stands inside a character, a text without a backslash is unchanged, and a text without
a backslash in its last five bytes is decoded apart from what comes behind it. -/
theorem unicodeEscapeBytes_total :
    (∀ s, unicodeEscapeBytes s = some (unicodeEscapeDecode s)) ∧
    (∀ s st, EscapeReached s st → st.index < (Utf8.encode s).length →
      (escapeRound s st).isSome ∧ ¬ Text.IsInside st.index s.toList) ∧
    (∀ s, '\\' ∉ s.toList → unicodeEscapeBytes s = some s) ∧
    ∀ s₁ s₂, 0x5c ∉ (Utf8.encode s₁).rtake 5 → ∃ t₁ t₂, unicodeEscapeBytes s₁ = some t₁ ∧
      unicodeEscapeBytes s₂ = some t₂ ∧ unicodeEscapeBytes (s₁ ++ s₂) = some (t₁ ++ t₂) := by
  refine ⟨unicodeEscapeBytes_eq, fun s st hst hlt => ⟨?_, ?_⟩, fun s hs => ?_,
    fun s₁ s₂ hlast => ?_⟩
  · obtain ⟨st', hround, -, -⟩ := hst.inv.round hlt
    rw [hround]
    rfl
  · obtain ⟨a, b, hs, hindex, -⟩ := hst.inv
    rw [hs, hindex]
    exact Text.not_isInside_append a b
  · rw [unicodeEscapeBytes_eq, unicodeEscapeDecode, unicodeEscapeLoop_of_not_mem hs,
      String.ofList_toList]
  · refine ⟨_, _, unicodeEscapeBytes_eq s₁, unicodeEscapeBytes_eq s₂, ?_⟩
    rw [unicodeEscapeBytes_eq, unicodeEscapeDecode, String.toList_append,
      unicodeEscapeLoop_append_of_bytes (bytes_of_not_mem_rtake hlast), String.ofList_append]
    rfl

end Waf

end XiraNet

import XiraNet.Lib.PercentRounds
import XiraNet.Middleware.Waf

/-!
# Normalization of the inspected input

`normalize_input` of `middleware/waf.rs` against the encodings it is there to undo: escapes of
single characters, and percent encoding. The percent signs are decoded before the escapes.

* `normalizeInput_encoded`: a printable text comes out in lower case, whatever was escaped, and
  whatever was percent-encoded after that in up to four rounds.
* `normalizeInput_escaped_iff`: the other way round, it does as long as no percent escape was
  escaped in turn.
* `normalizeInput_escaped_fails`: an escaped percent sign hides a character.
-/

namespace XiraNet

namespace Waf

/-- A character, or one of the two escapes for it. -/
inductive EscapesChar (c : Char) : List Char → Prop
  | keep : EscapesChar c [c]
  | unicode {high low : Char} (hhigh : Percent.IsHexDigit (c.toNat / 16) high)
      (hlow : Percent.IsHexDigit (c.toNat % 16) low) :
      EscapesChar c ['\\', 'u', '0', '0', high, low]
  | hex {high low : Char} (hhigh : Percent.IsHexDigit (c.toNat / 16) high)
      (hlow : Percent.IsHexDigit (c.toNat % 16) low) : EscapesChar c ['\\', 'x', high, low]

/-- A printable ASCII character that starts no escape of either kind. -/
def IsPlain (c : Char) : Prop := 0x20 ≤ c.toNat ∧ c.toNat ≤ 0x7e ∧ c ≠ '%' ∧ c ≠ '\\'

instance (c : Char) : Decidable (IsPlain c) := by
  unfold IsPlain
  infer_instance

/-- The passes stop where a further one would change nothing. -/
theorem percentDecodePasses_eq_iterate (n : ℕ) (s : String) :
    percentDecodePasses n s = percentDecode^[n] s := by
  induction n generalizing s with
  | zero => rfl
  | succ n ih =>
      rw [percentDecodePasses, Function.iterate_succ_apply]
      split
      next hfixed => rw [hfixed, Function.iterate_fixed hfixed]
      next => exact ih _

/-- The value of two digits, with zeros in front or without. -/
theorem fromStrRadix16_digits {i j : ℕ} {high low : Char} (hhigh : Percent.IsHexDigit i high)
    (hlow : Percent.IsHexDigit j low) (hi : i < 16) (hj : j < 16) :
    fromStrRadix16 [high, low] = some (16 * i + j) ∧
      fromStrRadix16 ['0', '0', high, low] = some (16 * i + j) := by
  obtain ⟨hvalueHigh, hhigh128, -, hplus⟩ := hhigh.spec hi
  obtain ⟨hvalueLow, hlow128, -, -⟩ := hlow.spec hj
  have hzero : Percent.hexValue 48 = some 0 := by decide
  constructor
  · unfold fromStrRadix16
    split
    next rest heq =>
      cases heq
      exact absurd rfl hplus
    next =>
      simp [List.foldlM, hhigh128, hlow128, hvalueHigh, hvalueLow]
  · unfold fromStrRadix16
    simp [List.foldlM, hhigh128, hlow128, hvalueHigh, hvalueLow, hzero]

/-- Only a backslash starts an escape. -/
theorem escapeAt_of_ne {c : Char} (hc : c ≠ '\\') (rest : List Char) :
    escapeAt (c :: rest) = none := by
  unfold escapeAt
  split
  next heq => exact absurd (List.cons.inj heq).1 hc
  next heq => exact absurd (List.cons.inj heq).1 hc
  next => rfl

/-- What the loop makes of an escape at the head of the input. -/
theorem unicodeEscapeLoop_of_escapeAt {c ch : Char} {rest : List Char} {len : ℕ}
    (h : escapeAt (c :: rest) = some (ch, len)) :
    unicodeEscapeLoop 0 (c :: rest) = ch :: unicodeEscapeLoop (len - 1) rest := by
  rw [unicodeEscapeLoop, h]

/-- What the loop makes of one character or escape, whatever comes after it. -/
theorem unicodeEscapeLoop_append {c : Char} {t : List Char} (h : EscapesChar c t)
    (hle : c.toNat ≤ 0x7e) (hbackslash : c ≠ '\\') (rest : List Char) :
    unicodeEscapeLoop 0 (t ++ rest) = c :: unicodeEscapeLoop 0 rest := by
  have hvalue : 16 * (c.toNat / 16) + c.toNat % 16 = c.toNat := by omega
  have hlt : c.toNat / 16 < 16 := by omega
  cases h with
  | keep =>
      show unicodeEscapeLoop 0 (c :: rest) = c :: unicodeEscapeLoop 0 rest
      rw [unicodeEscapeLoop, escapeAt_of_ne hbackslash]
  | @unicode high low hhigh hlow =>
      have hdigits := (fromStrRadix16_digits hhigh hlow hlt (by omega)).2
      rw [hvalue] at hdigits
      have hescape : escapeAt (['\\', 'u', '0', '0', high, low] ++ rest) = some (c, 6) := by
        show (fromStrRadix16 ['0', '0', high, low]).bind _ = some (c, 6)
        have hvalid : c.toNat.isValidChar := c.valid
        rw [hdigits, Option.bind_some, if_pos hvalid, Char.ofNat_toNat]
      exact unicodeEscapeLoop_of_escapeAt hescape
  | @hex high low hhigh hlow =>
      have hdigits := (fromStrRadix16_digits hhigh hlow hlt (by omega)).1
      rw [hvalue] at hdigits
      have hescape : escapeAt (['\\', 'x', high, low] ++ rest) = some (c, 4) := by
        show (fromStrRadix16 [high, low]).map _ = some (c, 4)
        rw [hdigits, Option.map_some, Char.ofNat_toNat]
      exact unicodeEscapeLoop_of_escapeAt hescape

/-- The escapes of a text are undone. -/
theorem unicodeEscapeLoop_escaped {p e : List Char} (h : Rewrites EscapesChar p e)
    (hp : ∀ c ∈ p, IsPlain c) : unicodeEscapeLoop 0 e = p := by
  induction h with
  | nil => rfl
  | cons hx _ ih =>
      rw [List.forall_mem_cons] at hp
      rw [unicodeEscapeLoop_append hx hp.1.2.1 hp.1.2.2.2, ih hp.2]

/-- An escape is ASCII and has no percent sign, unless it is a percent sign that was kept. -/
theorem EscapesChar.ascii {c : Char} {t : List Char} (h : EscapesChar c t) (hle : c.toNat ≤ 0x7e)
    (hpercent : c = '%' → t ≠ [c]) : ∀ d ∈ t, d.toNat < 128 ∧ d ≠ '%' := by
  have hdigit : ∀ {n : ℕ} {d : Char}, Percent.IsHexDigit n d → n < 16 →
      d.toNat < 128 ∧ d ≠ '%' :=
    fun hd hn => ⟨(hd.spec hn).2.1, (hd.spec hn).2.2.1⟩
  cases h with
  | keep => exact List.forall_mem_singleton.mpr ⟨by omega, fun heq => hpercent heq rfl⟩
  | unicode hhigh hlow =>
      simp only [List.forall_mem_cons]
      exact ⟨by decide, by decide, by decide, by decide, hdigit hhigh (by omega),
        hdigit hlow (by omega), fun _ hd => absurd hd List.not_mem_nil⟩
  | hex hhigh hlow =>
      simp only [List.forall_mem_cons]
      exact ⟨by decide, by decide, hdigit hhigh (by omega), hdigit hlow (by omega),
        fun _ hd => absurd hd List.not_mem_nil⟩

/-- A printable ASCII text without percent signs and backslashes, any characters of which were
replaced by escapes, and then any characters by percent escapes in up to four rounds, is normalized
to the text in lower case. -/
theorem normalizeInput_encoded {p e s : String} {n : ℕ} (hp : ∀ c ∈ p.toList, IsPlain c)
    (he : Rewrites EscapesChar p.toList e.toList)
    (hs : Percent.Rounds n e.toList s.toList) (hn : n ≤ 4) :
    normalizeInput s = Text.toAsciiLowercase p := by
  have hascii : ∀ c ∈ e.toList, c.toNat < 128 ∧ c ≠ '%' :=
    he.forall_mem (fun _ _ hx hc => hx.ascii hc.2.1 fun heq => absurd heq hc.2.2.1) hp
  -- Four passes undo the rounds, and the escapes stand for what they are written as only then.
  have hpasses : percentDecodePasses 4 s = e := by
    have hdecode := Percent.iterate_decodeString hs hn hascii
    rw [String.ofList_toList, String.ofList_toList] at hdecode
    rw [percentDecodePasses_eq_iterate]
    exact hdecode
  have hescapes : unicodeEscapeDecode e = p := by
    unfold unicodeEscapeDecode
    rw [unicodeEscapeLoop_escaped he hp, String.ofList_toList]
  unfold normalizeInput
  rw [hpasses, hescapes]

/-- A bracket is escaped, then the backslash of that, and then the percent sign of that and a
digit. -/
theorem normalizeInput_encoded_bracket :
    normalizeInput "A%255cx3%43" = Text.toAsciiLowercase "A<" := by
  have he : Rewrites EscapesChar ['A', '<'] (['A'] ++ (['\\', 'x', '3', 'C'] ++ [])) :=
    .cons .keep (.cons (.hex (.inl rfl) (.inr rfl)) .nil)
  have hround : Rewrites Percent.EncodesChar ['A', '\\', 'x', '3', 'C']
      (['A'] ++ (['%', '5', 'c'] ++ (['x'] ++ (['3'] ++ (['C'] ++ []))))) :=
    .cons .keep (.cons (.escape (.inl rfl) (.inl rfl)) (.cons .keep (.cons .keep
      (.cons .keep .nil))))
  have hround' : Rewrites Percent.EncodesChar ['A', '%', '5', 'c', 'x', '3', 'C']
      (['A'] ++ (['%', '2', '5'] ++ (['5'] ++ (['c'] ++ (['x'] ++ (['3'] ++
        (['%', '4', '3'] ++ []))))))) :=
    .cons .keep (.cons (.escape (.inl rfl) (.inl rfl)) (.cons .keep (.cons .keep (.cons .keep
      (.cons .keep (.cons (.escape (.inl rfl) (.inl rfl)) .nil))))))
  have hplain : ∀ c ∈ ['A', '<'], IsPlain c :=
    List.forall_mem_cons.mpr ⟨by decide, List.forall_mem_singleton.mpr (by decide)⟩
  exact normalizeInput_encoded (p := "A<") (e := "A\\x3C") hplain he
    (.succ (.succ (.zero _) hround) hround') (by decide)

/-- A character with at most one code for it: an escape or a percent escape. -/
def CodesChar (c : Char) (t : List Char) : Prop := EscapesChar c t ∨ Percent.EncodesChar c t

/-- The digits of a code are plain. -/
theorem isPlain_of_isHexDigit {n : ℕ} {d : Char} (h : Percent.IsHexDigit n d) (hn : n < 16) :
    IsPlain d := by
  rcases h with rfl | rfl
  · interval_cases n <;> decide
  · interval_cases n <;> decide

/-- What is left of a text after one pass that a further one leaves alone is what the escapes are
decoded in. -/
theorem normalizeInput_of_pass {s t : List Char} (hpass : Percent.Pass s t)
    (hfixed : Percent.Pass t t) (hs : ∀ c ∈ s, c.toNat < 128) (ht : ∀ c ∈ t, c.toNat < 128) :
    normalizeInput (String.ofList s) =
      Text.toAsciiLowercase (String.ofList (unicodeEscapeLoop 0 t)) := by
  have hfirst : percentDecode (String.ofList s) = String.ofList t :=
    Percent.decodeString_of_pass hpass hs ht
  have hsecond : percentDecode (String.ofList t) = String.ofList t :=
    Percent.decodeString_of_pass hfixed ht ht
  unfold normalizeInput unicodeEscapeDecode
  rw [percentDecodePasses_eq_iterate, Function.iterate_succ_apply, hfirst,
    Function.iterate_fixed hsecond, String.toList_ofList]

/-- A pass takes the percent escapes off a text with codes, and leaves the escapes. -/
theorem exists_escapes {p s : List Char} (h : Rewrites CodesChar p s)
    (hp : ∀ c ∈ p, IsPlain c) :
    ∃ t, Rewrites EscapesChar p t ∧ Percent.Pass s t ∧ ∀ d ∈ s, d.toNat < 128 := by
  induction h with
  | nil => exact ⟨[], .nil, fun _ => rfl, fun _ hd => absurd hd List.not_mem_nil⟩
  | @cons c p x s hx _ ih =>
      rw [List.forall_mem_cons] at hp
      obtain ⟨⟨-, hle, hpercent, -⟩, hp⟩ := hp
      obtain ⟨t, ht, hpass, hascii⟩ := ih hp
      -- One character, with the escape that is left of it.
      have hfirst : ∃ y, EscapesChar c y ∧ Percent.Pass x y ∧ ∀ d ∈ x, d.toNat < 128 := by
        have hkept : ∀ y, EscapesChar c y → Percent.Pass y y ∧ ∀ d ∈ y, d.toNat < 128 := by
          intro y hy
          have hall := hy.ascii hle fun heq => absurd heq hpercent
          exact ⟨Percent.pass_of_ne_percent hall, fun d hd => (hall d hd).1⟩
        rcases hx with hx | hx
        · exact ⟨x, hx, hkept x hx⟩
        · cases hx with
          | keep => exact ⟨[c], .keep, hkept _ .keep⟩
          | @escape high low hhigh hlow =>
              refine ⟨[c], .keep, Percent.pass_escape (by omega) hhigh hlow, ?_⟩
              simp only [List.forall_mem_cons]
              exact ⟨by decide, (hhigh.spec (by omega)).2.1, (hlow.spec (by omega)).2.1,
                fun _ hd => absurd hd List.not_mem_nil⟩
      obtain ⟨y, hy, hpassx, hasciix⟩ := hfirst
      refine ⟨y ++ t, .cons hy ht, hpassx.append hpass, fun d hd => ?_⟩
      exact (List.mem_append.mp hd).elim (hasciix d) (hascii d)

/-- The escapes in a percent escape. Where there is one, a pass finds no percent escape. -/
theorem pass_escaped {high low : Char} {i j : ℕ} (hhigh : Percent.IsHexDigit i high)
    (hlow : Percent.IsHexDigit j low) (hi : i < 16) (hj : j < 16) {s : List Char}
    (h : Rewrites EscapesChar ['%', high, low] s) :
    (s = ['%', high, low] ∨ Percent.Pass s s ∧ ∀ d ∈ s, d.toNat < 128) ∧
      ∀ rest, unicodeEscapeLoop 0 (s ++ rest) = '%' :: high :: low :: unicodeEscapeLoop 0 rest := by
  obtain ⟨-, hleHigh, hneHigh, hslashHigh⟩ := isPlain_of_isHexDigit hhigh hi
  obtain ⟨-, hleLow, hneLow, hslashLow⟩ := isPlain_of_isHexDigit hlow hj
  obtain ⟨a, _, rfl, ha, h⟩ := h.exists_cons
  obtain ⟨b, _, rfl, hb, h⟩ := h.exists_cons
  obtain ⟨d, _, rfl, hd, h⟩ := h.exists_cons
  cases h
  rw [List.append_nil]
  have hallb := hb.ascii hleHigh fun heq => absurd heq hneHigh
  have halld := hd.ascii hleLow fun heq => absurd heq hneLow
  constructor
  · by_cases hpercent : a = ['%']
    · subst hpercent
      by_cases hkept : b ++ d = [high, low]
      · exact .inl (congrArg ('%' :: ·) hkept)
      right
      have hall : ∀ x ∈ b ++ d, x.toNat < 128 ∧ x ≠ '%' := fun x hx =>
        (List.mem_append.mp hx).elim (hallb x) (halld x)
      refine ⟨fun rest => ?_, List.forall_mem_cons.mpr ⟨by decide, fun x hx => (hall x hx).1⟩⟩
      -- An escape stands in the place of a digit, so the percent sign is kept.
      have hnone : Percent.escaped (Utf8.asciiBytes (b ++ d) ++ rest) = none := by
        have hbackslash : ∀ t, Percent.escaped (UInt8.ofNat '\\'.toNat :: t) = none := by
          intro t
          cases t <;> rfl
        have hsecond : ∀ t, Percent.escaped
            (UInt8.ofNat high.toNat :: UInt8.ofNat '\\'.toNat :: t) = none := by
          intro t
          show (Percent.hexValue _).bind _ = none
          rw [(hhigh.spec hi).1]
          rfl
        cases hb with
        | unicode _ _ => exact hbackslash _
        | hex _ _ => exact hbackslash _
        | keep =>
            cases hd with
            | keep => exact absurd rfl hkept
            | unicode _ _ => exact hsecond _
            | hex _ _ => exact hsecond _
      show Percent.decodeAll (0x25 :: (Utf8.asciiBytes (b ++ d) ++ rest)) = _
      rw [Percent.decodeAll_percent_of_none hnone, Percent.pass_of_ne_percent hall rest]
      rfl
    · right
      have hall : ∀ x ∈ a ++ (b ++ d), x.toNat < 128 ∧ x ≠ '%' := by
        intro x hx
        rw [List.mem_append, List.mem_append] at hx
        exact hx.elim (ha.ascii (by decide) (fun _ => hpercent) x)
          fun hx => hx.elim (hallb x) (halld x)
      exact ⟨Percent.pass_of_ne_percent hall, fun x hx => (hall x hx).1⟩
  · intro rest
    rw [List.append_assoc, List.append_assoc,
      unicodeEscapeLoop_append ha (by decide) (by decide),
      unicodeEscapeLoop_append hb hleHigh hslashHigh, unicodeEscapeLoop_append hd hleLow hslashLow]

/-- What is left of a text in which any characters were percent-encoded, and then any escaped: at
least as many characters as it had, and more where a percent escape was escaped. -/
theorem exists_escaped {p e s : List Char} (he : Rewrites Percent.EncodesChar p e)
    (hs : Rewrites EscapesChar e s) (hp : ∀ c ∈ p, IsPlain c) :
    ∃ t u, Percent.Pass s t ∧ Percent.Pass t t ∧ (∀ d ∈ s, d.toNat < 128) ∧
      (∀ d ∈ t, d.toNat < 128) ∧ (∀ rest, unicodeEscapeLoop 0 (t ++ rest) =
        u ++ unicodeEscapeLoop 0 rest) ∧ p.length ≤ u.length ∧
      (u.length = p.length → Rewrites CodesChar p s) := by
  induction he generalizing s with
  | nil =>
      cases hs
      exact ⟨[], [], fun _ => rfl, fun _ => rfl, fun _ hd => absurd hd List.not_mem_nil,
        fun _ hd => absurd hd List.not_mem_nil, fun _ => rfl, le_rfl, fun _ => .nil⟩
  | @cons c p x e hx _ ih =>
      rw [List.forall_mem_cons] at hp
      obtain ⟨⟨-, hle, hpercent, hbackslash⟩, hp⟩ := hp
      obtain ⟨y, s, rfl, hy, hs⟩ := hs.exists_append
      obtain ⟨t, u, hpass, hfixed, hasciis, hasciit, hloop, hlength, hcodes⟩ := ih hs hp
      -- What is left of the first character: itself, or the three of a percent escape.
      have hfirst : ∃ z v, Percent.Pass y z ∧ Percent.Pass z z ∧ (∀ d ∈ y, d.toNat < 128) ∧
          (∀ d ∈ z, d.toNat < 128) ∧ (∀ rest, unicodeEscapeLoop 0 (z ++ rest) =
            v ++ unicodeEscapeLoop 0 rest) ∧
          (v.length = 1 ∧ CodesChar c y ∨ v.length = 3) := by
        cases hx with
        | keep =>
            have hy := hy.of_singleton
            have hall := hy.ascii hle fun heq => absurd heq hpercent
            have hpass := Percent.pass_of_ne_percent hall
            exact ⟨y, [c], hpass, hpass, fun d hd => (hall d hd).1, fun d hd => (hall d hd).1,
              unicodeEscapeLoop_append hy hle hbackslash, .inl ⟨rfl, .inl hy⟩⟩
        | @escape high low hhigh hlow =>
            have hhigh16 : c.toNat / 16 < 16 := by omega
            have hlow16 : c.toNat % 16 < 16 := by omega
            obtain ⟨hcases, hloop⟩ := pass_escaped hhigh hlow hhigh16 hlow16 hy
            rcases hcases with rfl | ⟨hpass, hascii⟩
            · have hall : ∀ d ∈ [c], d.toNat < 128 ∧ d ≠ '%' :=
                List.forall_mem_singleton.mpr ⟨by omega, hpercent⟩
              refine ⟨[c], [c], Percent.pass_escape (by omega) hhigh hlow,
                Percent.pass_of_ne_percent hall, ?_, fun d hd => (hall d hd).1,
                unicodeEscapeLoop_append .keep hle hbackslash,
                .inl ⟨rfl, .inr (.escape hhigh hlow)⟩⟩
              simp only [List.forall_mem_cons]
              exact ⟨by decide, (hhigh.spec hhigh16).2.1, (hlow.spec hlow16).2.1,
                fun _ hd => absurd hd List.not_mem_nil⟩
            · exact ⟨y, ['%', high, low], hpass, hpass, hascii, hascii, hloop, .inr rfl⟩
      obtain ⟨z, v, hpassy, hfixedz, hasciiy, hasciiz, hloopz, hcases⟩ := hfirst
      refine ⟨z ++ t, v ++ u, hpassy.append hpass, hfixedz.append hfixed, ?_, ?_, ?_, ?_, ?_⟩
      · exact fun d hd => (List.mem_append.mp hd).elim (hasciiy d) (hasciis d)
      · exact fun d hd => (List.mem_append.mp hd).elim (hasciiz d) (hasciit d)
      · intro rest
        rw [List.append_assoc, hloopz, hloop, List.append_assoc]
      · rw [List.length_append, List.length_cons]
        omega
      · rw [List.length_append, List.length_cons]
        intro hsame
        rcases hcases with ⟨hone, hcode⟩ | hthree
        · exact .cons hcode (hcodes (by omega))
        · omega

/-- A printable ASCII text without percent signs and backslashes, any characters of which were
replaced by percent escapes, and then any characters of that by escapes, is normalized to the text
in lower case exactly if no character of a percent escape was replaced, so that each character of
the text has at most one code. -/
theorem normalizeInput_escaped_iff {p e s : String} (hp : ∀ c ∈ p.toList, IsPlain c)
    (he : Rewrites Percent.EncodesChar p.toList e.toList)
    (hs : Rewrites EscapesChar e.toList s.toList) :
    normalizeInput s = Text.toAsciiLowercase p ↔ Rewrites CodesChar p.toList s.toList := by
  constructor
  · intro hsame
    obtain ⟨t, u, hpass, hfixed, hasciis, hasciit, hloop, -, hcodes⟩ := exists_escaped he hs hp
    have hnormal := normalizeInput_of_pass hpass hfixed hasciis hasciit
    have hu := hloop []
    rw [List.append_nil] at hu
    rw [String.ofList_toList, hsame, hu] at hnormal
    -- Both texts have the same length, whatever the case of their letters.
    have hlength := congrArg (fun x : String => x.toList.length) hnormal
    simp only [Text.toAsciiLowercase, String.toList_ofList, List.length_map,
      List.length_append] at hlength
    exact hcodes hlength.symm
  · intro hcodes
    obtain ⟨t, ht, hpass, hascii⟩ := exists_escapes hcodes hp
    have hall : ∀ d ∈ t, d.toNat < 128 ∧ d ≠ '%' :=
      ht.forall_mem (fun _ _ hx hc => hx.ascii hc.2.1 fun heq => absurd heq hc.2.2.1) hp
    have hnormal := normalizeInput_of_pass hpass (Percent.pass_of_ne_percent hall) hascii
      fun d hd => (hall d hd).1
    rw [String.ofList_toList, unicodeEscapeLoop_escaped ht hp, String.ofList_toList] at hnormal
    exact hnormal

/-- A letter is percent-encoded, and a bracket is escaped. -/
theorem normalizeInput_escaped_bracket :
    normalizeInput "%41\\x3c" = Text.toAsciiLowercase "A<" := by
  have hplain : ∀ c ∈ ['A', '<'], IsPlain c :=
    List.forall_mem_cons.mpr ⟨by decide, List.forall_mem_singleton.mpr (by decide)⟩
  have hletter : Percent.EncodesChar 'A' ['%', '4', '1'] := .escape (.inl rfl) (.inl rfl)
  have hbracket : EscapesChar '<' ['\\', 'x', '3', 'c'] := .hex (.inl rfl) (.inl rfl)
  have he : Rewrites Percent.EncodesChar ['A', '<'] (['%', '4', '1'] ++ (['<'] ++ [])) :=
    .cons hletter (.cons .keep .nil)
  have hs : Rewrites EscapesChar ['%', '4', '1', '<']
      (['%'] ++ (['4'] ++ (['1'] ++ (['\\', 'x', '3', 'c'] ++ [])))) :=
    .cons .keep (.cons .keep (.cons .keep (.cons hbracket .nil)))
  have hcodes : Rewrites CodesChar ['A', '<'] (['%', '4', '1'] ++ (['\\', 'x', '3', 'c'] ++ [])) :=
    .cons (.inr hletter) (.cons (.inl hbracket) .nil)
  exact (normalizeInput_escaped_iff (p := "A<") (e := "%41<") (s := "%41\\x3c") hplain he hs).mpr
    hcodes

/-- With its percent sign escaped, the percent escape of a bracket is left in the text. -/
theorem normalizeInput_escaped_fails :
    ¬ ∀ p e s : String, (∀ c ∈ p.toList, IsPlain c) →
      Rewrites Percent.EncodesChar p.toList e.toList → Rewrites EscapesChar e.toList s.toList →
        normalizeInput s = Text.toAsciiLowercase p := by
  intro hall
  have he : Rewrites Percent.EncodesChar ['<'] (['%', '3', 'c'] ++ []) :=
    .cons (.escape (.inl rfl) (.inl rfl)) .nil
  have hs : Rewrites EscapesChar ['%', '3', 'c']
      (['\\', 'x', '2', '5'] ++ (['3'] ++ (['c'] ++ []))) :=
    .cons (.hex (.inl rfl) (.inl rfl)) (.cons .keep (.cons .keep .nil))
  have hplain : ∀ c ∈ ['<'], IsPlain c := List.forall_mem_singleton.mpr (by decide)
  have hnormal := hall "<" "%3c" "\\x253c" hplain he hs
  exact absurd hnormal (by decide)

end Waf

end XiraNet

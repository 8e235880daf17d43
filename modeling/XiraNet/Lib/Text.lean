import Mathlib.Algebra.GroupWithZero.Nat
import Mathlib.Data.List.DropRight
import Mathlib.Data.List.Infix

/-!
# String functions

The string functions of the standard library that the gateway uses, on the characters of a
string, so that they evaluate in the kernel.
-/

namespace Text

/-- `s.starts_with(t)`. -/
def startsWith (s t : String) : Bool := t.toList.isPrefixOf s.toList

/-- `s.ends_with(t)`. -/
def endsWith (s t : String) : Bool := t.toList.isSuffixOf s.toList

/-- `s.strip_prefix(t)`. -/
def stripPrefix (s t : String) : Option String :=
  if startsWith s t then some (String.ofList (s.toList.drop t.toList.length)) else none

/-- `s.trim_end_matches(c)`. -/
def trimEndMatches (s : String) (c : Char) : String :=
  String.ofList (s.toList.rdropWhile (· = c))

/-- `s.contains(t)`. -/
def contains (s t : String) : Bool := decide (t.toList <:+: s.toList)

/-- `s.to_ascii_lowercase()`. -/
def toAsciiLowercase (s : String) : String := String.ofList (s.toList.map Char.toLower)

/-- The uppercase of a character. Outside ASCII only those with some of it in ASCII are changed. -/
def upperChars (c : Char) : List Char :=
  match c.toNat with
  | 0x131 => ['I']
  | 0x17f => ['S']
  | 0xdf => ['S', 'S']
  | 0x149 => ['\u02bc', 'N']
  | 0x1f0 => ['J', '\u030c']
  | 0x1e96 => ['H', '\u0331']
  | 0x1e97 => ['T', '\u0308']
  | 0x1e98 => ['W', '\u030a']
  | 0x1e99 => ['Y', '\u030a']
  | 0x1e9a => ['A', '\u02be']
  | 0xfb00 => ['F', 'F']
  | 0xfb01 => ['F', 'I']
  | 0xfb02 => ['F', 'L']
  | 0xfb03 => ['F', 'F', 'I']
  | 0xfb04 => ['F', 'F', 'L']
  | 0xfb05 | 0xfb06 => ['S', 'T']
  | _ => [c.toUpper]

/-- `s.to_uppercase()`, as far as it gives ASCII. -/
def toUppercase (s : String) : String := String.ofList (s.toList.flatMap upperChars)

/-- `s.eq_ignore_ascii_case(t)`. -/
def eqIgnoreAsciiCase (s t : String) : Bool := toAsciiLowercase s = toAsciiLowercase t

/-- `s.split(c)`. -/
def split (s : String) (c : Char) : List String := (s.toList.splitOn c).map String.ofList

/-- `char::is_control`. -/
def isControl (c : Char) : Bool := c.toNat < 0x20 || (0x7f ≤ c.toNat && c.toNat ≤ 0x9f)

/-- `char::is_whitespace`, the Unicode property `White_Space`. -/
def isWhitespace (c : Char) : Bool :=
  let n := c.toNat
  (9 ≤ n && n ≤ 13) || n = 32 || n = 0x85 || n = 0xa0 || n = 0x1680 ||
    (0x2000 ≤ n && n ≤ 0x200a) || n = 0x2028 || n = 0x2029 || n = 0x202f || n = 0x205f || n = 0x3000

/-- `s.split_whitespace()`. -/
def splitWhitespace (s : String) : List String :=
  ((s.toList.splitOnP isWhitespace).filter (· ≠ [])).map String.ofList

/-- `s.trim()`. -/
def trim (s : String) : String :=
  String.ofList ((s.toList.dropWhile isWhitespace).rdropWhile isWhitespace)

/-- `s.trim_start()`. -/
def trimStart (s : String) : String := String.ofList (s.toList.dropWhile isWhitespace)

/-- `s.len()`, on the characters. -/
def byteLength (s : List Char) : ℕ := (s.map Char.utf8Size).sum

/-- `s[..n]`, on the characters, without a value where it panics. -/
def sliceTo : ℕ → List Char → Option (List Char)
  | 0, _ => some []
  | _ + 1, [] => none
  | n + 1, c :: s =>
      if c.utf8Size ≤ n + 1 then (sliceTo (n + 1 - c.utf8Size) s).map (c :: ·) else none

/-- The byte at `n` is inside a character. -/
def IsInside (n : ℕ) (s : List Char) : Prop :=
  ∃ a c b, s = a ++ c :: b ∧ byteLength a < n ∧ n < byteLength a + c.utf8Size

/-- `s.find(c)`, on the characters. -/
def find (s : List Char) (c : Char) : Option ℕ :=
  if c ∈ s then some (byteLength (s.takeWhile (· ≠ c))) else none

/-- A line without the carriage return in front of its line feed. -/
def withoutReturn (line : List Char) : List Char :=
  if line.getLast? = some '\r' then line.dropLast else line

/-- The loop of `s.lines()`; `line` is what was read of a line so far. -/
def linesFrom (line : List Char) : List Char → List (List Char)
  | [] => if line = [] then [] else [line]
  | c :: rest =>
      if c = '\n' then withoutReturn line :: linesFrom [] rest else linesFrom (line ++ [c]) rest

/-- `s.lines()`. -/
def lines (s : String) : List String := (linesFrom [] s.toList).map String.ofList

/-- `format!("{n:0width$}")`. -/
def zeroPadded (n width : ℕ) : String :=
  let digits := Nat.toDigits 10 n
  String.ofList (List.replicate (width - digits.length) '0' ++ digits)

/-- `s.splitn(n, c)`, on the characters. -/
def splitn : ℕ → Char → List Char → List (List Char)
  | 0, _, _ => []
  | 1, _, s => [s]
  | n + 2, c, s =>
      if c ∈ s then s.takeWhile (· ≠ c) :: splitn (n + 1) c ((s.dropWhile (· ≠ c)).tail) else [s]

/-- The loop of `s.replace(old, new)`; `skip` characters belong to an occurrence already
replaced. -/
def replaceLoop (old new : List Char) : ℕ → List Char → List Char
  | _, [] => []
  | skip + 1, _ :: rest => replaceLoop old new skip rest
  | 0, c :: rest =>
      if old.isPrefixOf (c :: rest) then new ++ replaceLoop old new (old.length - 1) rest
      else c :: replaceLoop old new 0 rest

/-- `s.replace(old, new)`, for an `old` that is not empty. -/
def replace (s old new : String) : String :=
  String.ofList (replaceLoop old.toList new.toList 0 s.toList)

-- The numbers that are parsed as `u8` and `u16` have literals.
instance neZero_u8 : NeZero (2 ^ 8) := ⟨by decide⟩

instance neZero_u16 : NeZero (2 ^ 16) := ⟨by decide⟩

/-- `s.parse` of an unsigned type with this largest value. -/
def parseUnsigned (max : ℕ) (s : List Char) : Option ℕ :=
  let digits := match s with
    | '+' :: rest => rest
    | s => s
  if digits = [] ∨ !digits.all Char.isDigit then none
  else
    let n := digits.foldl (fun n c => 10 * n + (c.toNat - '0'.toNat)) 0
    if n ≤ max then some n else none

/-- A number that is read with one largest value is read with another one if it fits. -/
theorem parseUnsigned_of_some {max n : ℕ} {s : List Char} (h : parseUnsigned max s = some n)
    (max' : ℕ) : parseUnsigned max' s = if n ≤ max' then some n else none := by
  unfold parseUnsigned at h ⊢
  dsimp only at h ⊢
  split_ifs at h with hdigits hle
  rw [if_neg hdigits, Option.some.inj h]

/-- The characters of a number. -/
theorem isDigit_of_parseUnsigned {max n : ℕ} {s : List Char} (h : parseUnsigned max s = some n) :
    ∀ c ∈ s, c = '+' ∨ c.isDigit = true := by
  unfold parseUnsigned at h
  dsimp only at h
  split_ifs at h with hdigits
  rw [not_or] at hdigits
  have hall := hdigits.2
  simp only [Bool.not_eq_true', Bool.not_eq_false, List.all_eq_true] at hall
  intro c hc
  split at hall
  next rest => exact (List.mem_cons.mp hc).imp_right (hall c)
  next => exact .inr (hall c hc)

/-- The range of the digits. -/
theorem toNat_of_isDigit {c : Char} (h : c.isDigit = true) : 48 ≤ c.toNat ∧ c.toNat ≤ 57 := by
  simpa [Char.isDigit, UInt32.le_iff_toNat_le] using h

/-- A digit is no white space. -/
theorem isWhitespace_of_isDigit {c : Char} (h : c.isDigit = true) : isWhitespace c = false := by
  have hrange := toNat_of_isDigit h
  simp only [isWhitespace, Bool.or_eq_false_iff, Bool.and_eq_false_iff, decide_eq_false_iff_not]
  omega

/-- The digits of a number are read as the number. -/
theorem parseUnsigned_toDigits {n max : ℕ} (h : n ≤ max) :
    parseUnsigned max (Nat.toDigits 10 n) = some n := by
  have hdigits (c : Char) (hc : c ∈ Nat.toDigits 10 n) : c.isDigit = true :=
    Nat.isDigit_of_mem_toDigits (by decide) (by decide) hc
  have hall : (Nat.toDigits 10 n).all Char.isDigit = true := List.all_eq_true.mpr hdigits
  have hfold : (Nat.toDigits 10 n).foldl (fun n c => 10 * n + (c.toNat - '0'.toNat)) 0 = n := by
    rw [← Nat.ofDigitChars_eq_foldl, Nat.ofDigitChars_ten_toDigits]
  unfold parseUnsigned
  split
  next rest heq => exact absurd (hdigits '+' (heq ▸ List.mem_cons_self)) (by decide)
  next =>
    simp only [hall, Nat.toDigits_ne_nil, hfold, h]
    simp

/-- There is nothing to trim off a string without white space. -/
theorem trim_eq_self {s : String} (h : ∀ c ∈ s.toList, isWhitespace c = false) : trim s = s := by
  have hdrop : s.toList.dropWhile isWhitespace = s.toList :=
    List.dropWhile_eq_self_iff.mpr fun hpos => by simp [h _ (List.getElem_mem hpos)]
  have hdropEnd : s.toList.rdropWhile isWhitespace = s.toList :=
    List.rdropWhile_eq_self_iff.mpr fun hne => by simp [h _ (List.getLast_mem hne)]
  rw [trim, hdrop, hdropEnd, String.ofList_toList]

/-- Nothing is dropped before an element that is kept. -/
theorem rdropWhile_append_cons {p : Char → Bool} {c : Char} (hc : p c = false)
    (s t : List Char) :
    (s ++ c :: t).rdropWhile p = s ++ c :: t.rdropWhile p := by
  induction t using List.reverseRecOn with
  | nil => rw [List.rdropWhile_concat_neg _ _ _ (by simp [hc]), List.rdropWhile_nil]
  | append_singleton t d ih =>
      rw [← List.cons_append, ← List.append_assoc]
      cases hd : p d with
      | false =>
          rw [List.rdropWhile_concat_neg _ _ _ (by simp [hd]),
            List.rdropWhile_concat_neg _ _ _ (by simp [hd]), List.append_assoc, List.cons_append]
      | true => rw [List.rdropWhile_concat_pos _ _ _ hd, List.rdropWhile_concat_pos _ _ _ hd, ih]

/-- There is nothing more to trim. -/
theorem trim_trim (s : String) : trim (trim s) = trim s := by
  unfold trim
  rw [String.toList_ofList]
  congr 1
  -- What is left starts like the rest after the white space in front.
  have hstart : ((s.toList.dropWhile isWhitespace).rdropWhile isWhitespace).dropWhile isWhitespace =
      (s.toList.dropWhile isWhitespace).rdropWhile isWhitespace := by
    have hprefix := List.rdropWhile_prefix isWhitespace (s.toList.dropWhile isWhitespace)
    cases hrest : (s.toList.dropWhile isWhitespace).rdropWhile isWhitespace with
    | nil => rfl
    | cons c rest =>
        rw [hrest] at hprefix
        obtain ⟨rest', hdropped⟩ := hprefix
        have hfirst := List.head?_dropWhile_not isWhitespace s.toList
        rw [← hdropped] at hfirst
        exact List.dropWhile_cons_of_neg (by simpa using hfirst)
  rw [hstart, List.rdropWhile_idempotent]

/-- `startsWith` in terms of the characters. -/
theorem startsWith_iff {s t : String} : startsWith s t = true ↔ t.toList <+: s.toList := by
  simp [startsWith]

/-- Two prefixes of one string are equal if they have the same size. -/
theorem eq_of_startsWith {s t path : String} (hs : startsWith path s = true)
    (ht : startsWith path t = true) (hsize : s.utf8ByteSize = t.utf8ByteSize) : s = t := by
  -- The longer of the two continues the other by something without a byte.
  have hextend : ∀ a b : String, a.toList <+: b.toList → a.utf8ByteSize = b.utf8ByteSize →
      a = b := by
    rintro a b ⟨rest, hrest⟩ heq
    have hb : b = a ++ String.ofList rest := by
      apply String.toList_inj.mp
      rw [String.toList_append, String.toList_ofList, hrest]
    rw [hb, String.utf8ByteSize_append] at heq
    have hempty : String.ofList rest = "" := String.utf8ByteSize_eq_zero_iff.mp (by omega)
    rw [hb, hempty, String.append_empty]
  rw [startsWith_iff] at hs ht
  rcases List.prefix_or_prefix_of_prefix hs ht with h | h
  · exact hextend s t h hsize
  · exact (hextend t s h hsize.symm).symm

/-- `endsWith` in terms of the characters. -/
theorem endsWith_iff {s t : String} : endsWith s t = true ↔ t.toList <:+ s.toList := by
  simp [endsWith]

/-- Stripping a prefix off leaves what stands behind it. -/
theorem stripPrefix_append (s t : String) : stripPrefix (s ++ t) s = some t := by
  have hstart : startsWith (s ++ t) s = true := by
    rw [startsWith_iff, String.toList_append]
    exact List.prefix_append _ _
  rw [stripPrefix, if_pos hstart, String.toList_append, List.drop_left, String.ofList_toList]

/-- What is left behind a prefix ends the string. -/
theorem suffix_of_stripPrefix {s t rest : String} (h : stripPrefix s t = some rest) :
    rest.toList <:+ s.toList := by
  obtain ⟨-, hrest⟩ := Option.ite_none_right_eq_some.mp h
  cases hrest
  rw [String.toList_ofList]
  exact List.drop_suffix _ _

/-- What is left behind white space ends the string. -/
theorem trimStart_suffix (s : String) : (trimStart s).toList <:+ s.toList := by
  rw [trimStart, String.toList_ofList]
  exact List.dropWhile_suffix _

/-- What is trimmed off is a number of copies of the character. -/
theorem exists_trimEndMatches (s : String) (c : Char) :
    ∃ k, s.toList = (trimEndMatches s c).toList ++ List.replicate k c := by
  refine ⟨(s.toList.rtakeWhile (· = c)).length, ?_⟩
  have hall : s.toList.rtakeWhile (· = c) =
      List.replicate (s.toList.rtakeWhile (· = c)).length c := by
    refine List.eq_replicate_iff.mpr ⟨rfl, fun x hx => ?_⟩
    simpa using List.mem_rtakeWhile_imp hx
  rw [← hall]
  simp [trimEndMatches, List.rdropWhile_append_rtakeWhile]

/-- Trimming stops inside the second part of a string when something else is left of it. -/
theorem trimEndMatches_append (s : String) {t : String} {c : Char} (h : ∃ x ∈ t.toList, x ≠ c) :
    trimEndMatches (s ++ t) c = s ++ trimEndMatches t c := by
  -- Trimming works on the reversed string, and stops before it has used up `t`.
  have hrest : (t.toList.reverse.dropWhile (· = c)).isEmpty = false := by
    obtain ⟨x, hx, hxc⟩ := h
    simp only [List.isEmpty_eq_false_iff, ne_eq, List.dropWhile_eq_nil_iff, List.mem_reverse,
      not_forall]
    exact ⟨x, hx, by simpa using hxc⟩
  apply String.toList_inj.mp
  simp [trimEndMatches, List.rdropWhile, List.dropWhile_append, hrest]

/-- A string with a separator is what stands before the first one, and what stands behind it. -/
theorem takeWhile_ne_append {c : Char} {s : List Char} (h : c ∈ s) :
    s.takeWhile (· ≠ c) ++ c :: (s.dropWhile (· ≠ c)).tail = s := by
  induction s with
  | nil => cases h
  | cons x s ih =>
      by_cases hx : x = c
      · simp [hx]
      · have hmem : c ∈ s := (List.mem_cons.mp h).resolve_left (Ne.symm hx)
        rw [List.takeWhile_cons_of_pos (by simpa using hx),
          List.dropWhile_cons_of_pos (by simpa using hx), List.cons_append, ih hmem]

/-- The first piece ends before the first separator. -/
theorem splitn_append {n : ℕ} {c : Char} {a b : List Char} (h : c ∉ a) :
    splitn (n + 2) c (a ++ c :: b) = a :: splitn (n + 1) c b := by
  have hall : ∀ x ∈ a, decide (x ≠ c) = true := fun x hx => decide_eq_true (fun hxc => h (hxc ▸ hx))
  rw [splitn, if_pos (by simp), List.takeWhile_append_of_pos hall,
    List.dropWhile_append_of_pos hall]
  simp

/-- There are pieces. -/
theorem splitn_ne_nil (n : ℕ) (c : Char) (s : List Char) : splitn (n + 1) c s ≠ [] := by
  cases n with
  | zero => simp [splitn]
  | succ n =>
      rw [splitn]
      split <;> simp

/-- The pieces of a string, with the separators between them, are the string. -/
theorem intercalate_splitn (n : ℕ) (c : Char) (s : List Char) :
    [c].intercalate (splitn (n + 1) c s) = s := by
  induction n generalizing s with
  | zero => simp [splitn]
  | succ n ih =>
      rw [splitn]
      split
      next hmem =>
        rw [List.intercalate_cons_of_ne_nil (splitn_ne_nil n c _), ih]
        simpa using takeWhile_ne_append hmem
      next => simp

/-- Replacing by something that is not longer makes nothing longer. -/
theorem length_replaceLoop_le {old new : List Char} (h : new.length ≤ old.length) (skip : ℕ)
    (s : List Char) : (replaceLoop old new skip s).length ≤ s.length - skip := by
  induction s generalizing skip with
  | nil => simp [replaceLoop]
  | cons c rest ih =>
      cases skip with
      | succ skip =>
          rw [replaceLoop]
          have := ih skip
          simp only [List.length_cons]
          omega
      | zero =>
          rw [replaceLoop]
          split
          next hprefix =>
            -- The occurrence is all there, so nothing of it is skipped beyond the end.
            have hlength := (List.isPrefixOf_iff_prefix.mp hprefix).length_le
            have := ih (old.length - 1)
            simp only [List.length_append, List.length_cons] at hlength ⊢
            omega
          next =>
            have := ih 0
            simp only [List.length_cons]
            omega

/-- `replace` by something that is not longer makes nothing longer. -/
theorem length_replace_le (s : String) {old new : String}
    (h : new.toList.length ≤ old.toList.length) :
    (replace s old new).toList.length ≤ s.toList.length := by
  rw [replace, String.toList_ofList]
  exact length_replaceLoop_le h 0 s.toList

/-- White space has no uppercase. -/
theorem upperChars_of_isWhitespace {c : Char} (h : isWhitespace c = true) : upperChars c = [c] := by
  have hrange : ¬ (97 ≤ c.toNat ∧ c.toNat ≤ 122) := by
    simp only [isWhitespace, Bool.or_eq_true, Bool.and_eq_true, decide_eq_true_eq] at h
    omega
  have hupper : c.toUpper = c := dif_neg (by simpa [UInt32.le_iff_toNat_le] using hrange)
  unfold upperChars
  split
  all_goals first | rw [hupper] | (rename_i heq; simp [isWhitespace, heq] at h)

theorem byteLength_nil : byteLength [] = 0 := rfl

theorem byteLength_cons (c : Char) (s : List Char) :
    byteLength (c :: s) = c.utf8Size + byteLength s := rfl

/-- The bytes of two texts. -/
theorem byteLength_append (a b : List Char) :
    byteLength (a ++ b) = byteLength a + byteLength b := by
  rw [byteLength, List.map_append, List.sum_append, byteLength, byteLength]

/-- Only the empty text has no bytes. -/
theorem eq_nil_of_byteLength_eq_zero {s : List Char} (h : byteLength s = 0) : s = [] := by
  cases s with
  | nil => rfl
  | cons c s =>
      have hpos := c.utf8Size_pos
      rw [byteLength_cons] at h
      omega

/-- A slice is taken exactly if it ends in the string and not inside a character. -/
theorem isSome_sliceTo_iff {n : ℕ} {s : List Char} :
    (sliceTo n s).isSome = true ↔ n ≤ byteLength s ∧ ¬ IsInside n s := by
  induction s generalizing n with
  | nil =>
      have hinside : ¬ IsInside n [] := by
        rintro ⟨a, c, b, heq, -⟩
        simp at heq
      cases n <;> simp [sliceTo, byteLength, hinside]
  | cons c s ih =>
      have hpos := c.utf8Size_pos
      -- inside the first character, or behind it and inside one of the others
      have hinside : IsInside n (c :: s) ↔ (0 < n ∧ n < c.utf8Size) ∨
          c.utf8Size < n ∧ IsInside (n - c.utf8Size) s := by
        constructor
        · rintro ⟨a, d, b, heq, hlo, hhi⟩
          cases a with
          | nil =>
              obtain ⟨rfl, rfl⟩ := List.cons.inj heq
              rw [byteLength_nil] at hlo hhi
              exact .inl ⟨hlo, by omega⟩
          | cons e a =>
              obtain ⟨rfl, rfl⟩ := List.cons.inj heq
              rw [byteLength_cons] at hlo hhi
              exact .inr ⟨by omega, a, d, b, rfl, by omega, by omega⟩
        · rintro (⟨hlo, hhi⟩ | ⟨hlt, a, d, b, rfl, hlo, hhi⟩)
          · exact ⟨[], c, s, rfl, hlo, by rw [byteLength_nil]; omega⟩
          · refine ⟨c :: a, d, b, rfl, ?_, ?_⟩
            · rw [byteLength_cons]
              omega
            · rw [byteLength_cons]
              omega
      rw [hinside]
      cases n with
      | zero => simp [sliceTo]
      | succ n =>
          rw [sliceTo, byteLength_cons]
          split
          next hle =>
            rw [Option.isSome_map, ih]
            have hbetween : ¬ (0 < n + 1 ∧ n + 1 < c.utf8Size) := by omega
            have hbound : n + 1 - c.utf8Size ≤ byteLength s ↔
                n + 1 ≤ c.utf8Size + byteLength s := by omega
            rw [or_iff_right hbetween, hbound]
            refine and_congr_right' (not_congr ⟨fun h => ⟨?_, h⟩, And.right⟩)
            obtain ⟨a, d, b, -, hlo, -⟩ := h
            omega
          next hgt =>
            refine ⟨fun h => absurd h Bool.false_ne_true, fun h => absurd (.inl ⟨?_, ?_⟩) h.2⟩
            · exact Nat.succ_pos n
            · omega

instance (n : ℕ) (s : List Char) : Decidable (IsInside n s) :=
  decidable_of_iff (n ≤ byteLength s ∧ ¬ (sliceTo n s).isSome = true) (by
    rw [isSome_sliceTo_iff]
    refine ⟨fun h => not_not.mp fun hinside => h.2 ⟨h.1, hinside⟩, fun h =>
      ⟨?_, fun hnot => hnot.2 h⟩⟩
    obtain ⟨a, c, b, rfl, -, hhi⟩ := h
    rw [byteLength_append, byteLength_cons]
    omega)

/-- A slice that ends behind a number of whole characters. -/
theorem sliceTo_append (a b : List Char) : sliceTo (byteLength a) (a ++ b) = some a := by
  induction a with
  | nil => simp [byteLength, sliceTo]
  | cons c a ih =>
      have hpos := c.utf8Size_pos
      have hlength := byteLength_cons c a
      obtain ⟨n, hn⟩ : ∃ n, byteLength (c :: a) = n + 1 := Nat.exists_eq_add_one.mpr (by omega)
      have hrest : n + 1 - c.utf8Size = byteLength a := by omega
      rw [List.cons_append, hn, sliceTo, if_pos (by omega), hrest, ih, Option.map_some]

/-- What stands before the first occurrence of a character can be cut off. -/
theorem sliceTo_find {s : List Char} {c : Char} {n : ℕ} (h : find s c = some n) :
    sliceTo n s = some (s.takeWhile (· ≠ c)) := by
  obtain ⟨-, hn⟩ := Option.ite_none_right_eq_some.mp h
  cases hn
  have hslice := sliceTo_append (s.takeWhile (· ≠ c)) (s.dropWhile (· ≠ c))
  rwa [List.takeWhile_append_dropWhile] at hslice

/-- A line ends at the first line feed. -/
theorem linesFrom_append (line : List Char) {a : List Char} (h : '\n' ∉ a) (b : List Char) :
    linesFrom line (a ++ '\n' :: b) = withoutReturn (line ++ a) :: linesFrom [] b := by
  induction a generalizing line with
  | nil => rw [List.nil_append, linesFrom, if_pos rfl, List.append_nil]
  | cons c a ih =>
      obtain ⟨hc, ha⟩ := not_or.mp fun h' => h (List.mem_cons.mpr h')
      rw [List.cons_append, linesFrom, if_neg (Ne.symm hc), ih _ ha, List.append_assoc]
      rfl

/-- The loop adds no line feed to a line. -/
theorem not_mem_of_mem_linesFrom {line s : List Char} (hline : '\n' ∉ line) :
    ∀ l ∈ linesFrom line s, '\n' ∉ l := by
  induction s generalizing line with
  | nil =>
      intro l hl
      rw [linesFrom] at hl
      split at hl
      next => cases hl
      next => rwa [List.mem_singleton.mp hl]
  | cons c s ih =>
      intro l hl
      rw [linesFrom] at hl
      split at hl
      next =>
        rcases List.mem_cons.mp hl with rfl | hl
        · unfold withoutReturn
          split
          next => exact fun hmem => hline (List.mem_of_mem_dropLast hmem)
          next => exact hline
        · exact ih List.not_mem_nil l hl
      next hc =>
        refine ih (fun hmem => ?_) l hl
        rcases List.mem_append.mp hmem with hmem | hmem
        · exact hline hmem
        · exact hc (List.mem_singleton.mp hmem).symm

/-- No line has a line feed. -/
theorem not_mem_of_mem_lines {s l : String} (h : l ∈ lines s) : '\n' ∉ l.toList := by
  obtain ⟨l, hl, rfl⟩ := List.mem_map.mp h
  rw [String.toList_ofList]
  exact not_mem_of_mem_linesFrom List.not_mem_nil l hl

/-- A line that does not end in a carriage return is read as it was written. -/
theorem lines_append {a : String} (h : '\n' ∉ a.toList) (hlast : a.toList.getLast? ≠ some '\r')
    (b : String) : lines (a ++ ("\n" ++ b)) = a :: lines b := by
  have hlist : (a ++ ("\n" ++ b)).toList = a.toList ++ '\n' :: b.toList := by simp
  rw [lines, hlist, linesFrom_append _ h, List.nil_append, withoutReturn, if_neg hlast,
    List.map_cons, String.ofList_toList, lines]

/-- There is nothing to trim off between two characters that are no white space. -/
theorem trim_between {a b : Char} (ha : isWhitespace a = false) (hb : isWhitespace b = false)
    (s : List Char) : trim (String.ofList (a :: (s ++ [b]))) = String.ofList (a :: (s ++ [b])) := by
  unfold trim
  rw [String.toList_ofList, List.dropWhile_cons_of_neg (by simp [ha]), ← List.cons_append,
    rdropWhile_append_cons hb, List.rdropWhile_nil]

/-- A number in decimal with a fixed number of digits. -/
structure IsPadded (width n : ℕ) (s : List Char) : Prop where
  length : s.length = width
  isDigit : ∀ c ∈ s, c.isDigit = true
  value : Nat.ofDigitChars 10 s 0 = n

/-- Padding with zeros writes a number that fits with so many digits. -/
theorem isPadded_zeroPadded {n width : ℕ} (hwidth : 0 < width) (h : n < 10 ^ width) :
    IsPadded width n (zeroPadded n width).toList := by
  have hle := (Nat.length_toDigits_le_iff (by decide : 1 < 10) hwidth).mpr h
  rw [zeroPadded, String.toList_ofList]
  refine ⟨?_, fun c hc => ?_, ?_⟩
  · rw [List.length_append, List.length_replicate]
    omega
  · rcases List.mem_append.mp hc with hzero | hdigit
    · rw [List.eq_of_mem_replicate hzero]
      rfl
    · exact Nat.isDigit_of_mem_toDigits (by decide) (by decide) hdigit
  · rw [Nat.ofDigitChars_append, Nat.ofDigitChars_replicate_zero, Nat.mul_zero,
      Nat.ofDigitChars_ten_toDigits]

/-- There is one such text. -/
theorem IsPadded.unique {width n : ℕ} {s t : List Char} (hs : IsPadded width n s)
    (ht : IsPadded width n t) : s = t := by
  induction s using List.reverseRecOn generalizing width n t with
  | nil => exact (List.length_eq_zero_iff.mp (ht.length.trans hs.length.symm)).symm
  | append_singleton s c ih =>
      have hlength := hs.length.trans ht.length.symm
      rcases List.eq_nil_or_concat t with rfl | ⟨t, c', rfl⟩
      · simp at hlength
      · rw [List.concat_eq_append] at ht hlength ⊢
        -- The last digits and the numbers before them agree.
        have hvalue := hs.value.trans ht.value.symm
        rw [Nat.ofDigitChars_append, Nat.ofDigitChars_append, Nat.ofDigitChars_cons,
          Nat.ofDigitChars_cons, Nat.ofDigitChars_nil, Nat.ofDigitChars_nil,
          show '0'.toNat = 48 from rfl] at hvalue
        have hc := toNat_of_isDigit (hs.isDigit c (by simp))
        have hc' := toNat_of_isDigit (ht.isDigit c' (by simp))
        obtain rfl : c = c' := Char.toNat_inj.mp (by omega)
        have hlen : s.length = t.length := by simpa using hlength
        refine congrArg (· ++ [c]) (ih ⟨rfl, fun d hd => hs.isDigit d (by simp [hd]), rfl⟩
          ⟨hlen.symm, fun d hd => ht.isDigit d (by simp [hd]), by omega⟩)

end Text

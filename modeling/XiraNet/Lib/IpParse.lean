import Mathlib.Data.List.Induction
import XiraNet.Lib.IpAddr

/-!
# Reading IP addresses

`IpAddr::from_str`. A reader gets the characters that are left, and gives what it has read and
those that are left then; where it fails, the next one starts at the same place.

* `parse_text`: an address is read back from its text.
-/

namespace IpAddr

/-- `char::to_digit`. -/
def toDigit (radix : ℕ) (c : Char) : Option ℕ :=
  let n := c.toNat
  let value :=
    if 48 ≤ n ∧ n ≤ 57 then n - 48
    else if 97 ≤ n ∧ n ≤ 122 then n - 97 + 10
    else if 65 ≤ n ∧ n ≤ 90 then n - 65 + 10
    else radix
  if value < radix then some value else none

/-- A character that is a digit. -/
def isRadixDigit (radix : ℕ) (c : Char) : Bool := (toDigit radix c).isSome

/-- The number that digits make. -/
def ofDigits (radix : ℕ) (digits : List Char) : ℕ :=
  digits.foldl (fun n c => radix * n + (toDigit radix c).getD 0) 0

/-- `read_number`, for a type with this largest value. -/
def readNumber (radix maxDigits maxValue : ℕ) (allowZeroPrefix : Bool) (s : List Char) :
    Option (ℕ × List Char) :=
  let digits := s.takeWhile (isRadixDigit radix)
  if digits = [] ∨ maxDigits < digits.length then none
  else if allowZeroPrefix = false ∧ digits.head? = some '0' ∧ 1 < digits.length then none
  else if ofDigits radix digits ≤ maxValue then
    some (ofDigits radix digits, s.dropWhile (isRadixDigit radix))
  else none

/-- `read_given_char`. -/
def readGivenChar (c : Char) : List Char → Option (List Char)
  | [] => none
  | c' :: s => if c' = c then some s else none

/-- `read_ipv4_addr`. -/
def readIpv4Addr (s : List Char) : Option ((ℕ × ℕ × ℕ × ℕ) × List Char) := do
  let (a, s) ← readNumber 10 3 255 false s
  let s ← readGivenChar '.' s
  let (b, s) ← readNumber 10 3 255 false s
  let s ← readGivenChar '.' s
  let (c, s) ← readNumber 10 3 255 false s
  let s ← readGivenChar '.' s
  let (d, s) ← readNumber 10 3 255 false s
  return ((a, b, c, d), s)

/-- The character between groups, which none stands before the first. -/
def readColon (first : Bool) (s : List Char) : Option (List Char) :=
  if first then some s else readGivenChar ':' s

/-- `read_groups`, with the number of groups that are left: the groups, and whether the last two of
them are an IPv4 address. -/
def readGroups : ℕ → Bool → List Char → List ℕ × Bool × List Char
  | 0, _, s => ([], false, s)
  | left + 1, first, s =>
      match if 0 < left then (readColon first s).bind readIpv4Addr else none with
      | some ((a, b, c, d), rest) => ([256 * a + b, 256 * c + d], true, rest)
      | none =>
          match (readColon first s).bind (readNumber 16 4 65535 true) with
          | some (group, rest) =>
              let (groups, embedded, rest) := readGroups left false rest
              (group :: groups, embedded, rest)
          | none => ([], false, s)

/-- `read_ipv6_addr`. -/
def readIpv6Addr (s : List Char) : Option (List ℕ × List Char) :=
  let (head, headV4, s) := readGroups 8 true s
  if head.length = 8 then some (head, s)
  -- An IPv4 address does not stand before `::`.
  else if headV4 then none
  else
    match (readGivenChar ':' s).bind (readGivenChar ':') with
    | none => none
    | some s =>
        let (tail, _, s) := readGroups (8 - (head.length + 1)) true s
        some (head ++ List.replicate (8 - head.length - tail.length) 0 ++ tail, s)

/-- An IPv6 address of eight groups. -/
def ofSegments : List ℕ → Option IpAddr
  | [a, b, c, d, e, f, g, h] =>
      some (.v6 (Fin.ofNat _ a) (Fin.ofNat _ b) (Fin.ofNat _ c) (Fin.ofNat _ d) (Fin.ofNat _ e)
        (Fin.ofNat _ f) (Fin.ofNat _ g) (Fin.ofNat _ h))
  | _ => none

/-- `s.parse::<IpAddr>()`, on the characters. -/
def parseChars (s : List Char) : Option IpAddr :=
  match readIpv4Addr s with
  | some ((a, b, c, d), rest) =>
      if rest = [] then
        some (.v4 (Fin.ofNat _ a) (Fin.ofNat _ b) (Fin.ofNat _ c) (Fin.ofNat _ d))
      else none
  | none =>
      match readIpv6Addr s with
      | some (groups, rest) => if rest = [] then ofSegments groups else none
      | none => none

/-- `s.parse::<IpAddr>()`. -/
def parse (s : String) : Option IpAddr := parseChars s.toList

example : parse "::ffff:10.0.0.1" = some (.v6 0 0 0 0 0 0xffff 0x0a00 1) := by decide +kernel

example : parse "010.0.0.1" = none := by decide +kernel

/-- A character that is not read as part of a number. -/
def StopsNumber (radix : ℕ) (rest : List Char) : Prop :=
  ∀ c ∈ rest.head?, isRadixDigit radix c = false

/-- The digits end where the rest begins. -/
theorem takeWhile_digits {radix : ℕ} {digits rest : List Char}
    (hdigits : ∀ c ∈ digits, isRadixDigit radix c = true) (hrest : StopsNumber radix rest) :
    (digits ++ rest).takeWhile (isRadixDigit radix) = digits ∧
      (digits ++ rest).dropWhile (isRadixDigit radix) = rest := by
  rw [List.takeWhile_append_of_pos hdigits, List.dropWhile_append_of_pos hdigits]
  cases rest with
  | nil => simp
  | cons c rest =>
      have hc := hrest c rfl
      simp [hc]

/-- The digits of the radixes that are read. -/
theorem toDigit_digitChar {radix d : ℕ} (hradix : radix = 10 ∨ radix = 16) (hd : d < radix) :
    toDigit radix (Nat.digitChar d) = some d := by
  rcases hradix with rfl | rfl
  · exact (by decide : ∀ d : Fin 10, toDigit 10 (Nat.digitChar d) = some d.val) ⟨d, hd⟩
  · exact (by decide : ∀ d : Fin 16, toDigit 16 (Nat.digitChar d) = some d.val) ⟨d, hd⟩

/-- A number is read back from its digits. -/
theorem ofDigits_toDigits {radix : ℕ} (hradix : radix = 10 ∨ radix = 16) (n : ℕ) :
    (∀ c ∈ Nat.toDigits radix n, isRadixDigit radix c = true) ∧
      ofDigits radix (Nat.toDigits radix n) = n := by
  have hbase : 1 < radix := by omega
  induction n using Nat.strong_induction_on with
  | _ n ih =>
      rw [Nat.toDigits_eq_if hbase]
      split
      next hn =>
        have hdigit := toDigit_digitChar hradix hn
        simp [isRadixDigit, ofDigits, hdigit]
      next hn =>
        -- The last digit comes off the end.
        obtain ⟨hall, hvalue⟩ := ih (n / radix) (Nat.div_lt_self (by omega) hbase)
        have hdigit := toDigit_digitChar hradix (Nat.mod_lt n (by omega : radix > 0))
        constructor
        · intro c hc
          rcases List.mem_append.mp hc with hc | hc
          · exact hall c hc
          · rw [List.mem_singleton.mp hc, isRadixDigit, hdigit]
            rfl
        · unfold ofDigits at hvalue ⊢
          rw [List.foldl_append, hvalue, List.foldl_cons, List.foldl_nil, hdigit, Option.getD_some]
          exact Nat.div_add_mod n radix

/-- A number that fits is read from its digits. -/
theorem readNumber_toDigits {radix maxDigits maxValue : ℕ} {allowZeroPrefix : Bool} {n : ℕ}
    {rest : List Char} (hradix : radix = 10 ∨ radix = 16) (hn : n ≤ maxValue)
    (hlength : (Nat.toDigits radix n).length ≤ maxDigits)
    (hzero : allowZeroPrefix = false → (Nat.toDigits radix n).head? = some '0' →
      (Nat.toDigits radix n).length ≤ 1)
    (hrest : StopsNumber radix rest) :
    readNumber radix maxDigits maxValue allowZeroPrefix (Nat.toDigits radix n ++ rest) =
      some (n, rest) := by
  obtain ⟨hdigits, hvalue⟩ := ofDigits_toDigits hradix n
  obtain ⟨htake, hdrop⟩ := takeWhile_digits hdigits hrest
  simp only [readNumber, htake, hdrop, hvalue]
  rw [if_neg, if_neg, if_pos hn]
  · rintro ⟨hzeros, hhead, hlong⟩
    exact absurd (hzero hzeros hhead) (by omega)
  · rintro (hnil | hlong)
    · exact Nat.toDigits_ne_nil hnil
    · omega

/-- What is known of the text of an octet. -/
theorem toDigits_octet (n : Fin (2 ^ 8)) :
    (Nat.toDigits 10 n.val).length ≤ 3 ∧
      ((Nat.toDigits 10 n.val).head? = some '0' → (Nat.toDigits 10 n.val).length ≤ 1) := by
  revert n
  decide +kernel

/-- An octet is read from its text. -/
theorem readNumber_octet (n : Fin (2 ^ 8)) {rest : List Char} (hrest : StopsNumber 10 rest) :
    readNumber 10 3 255 false (Nat.toDigits 10 n.val ++ rest) = some (n.val, rest) := by
  obtain ⟨hlength, hzero⟩ := toDigits_octet n
  exact readNumber_toDigits (.inl rfl) (by omega) hlength (fun _ => hzero) hrest

/-- A segment is read from its text. -/
theorem readNumber_segment {n : ℕ} (hn : n < 2 ^ 16) {rest : List Char}
    (hrest : StopsNumber 16 rest) :
    readNumber 16 4 65535 true (Nat.toDigits 16 n ++ rest) = some (n, rest) := by
  refine readNumber_toDigits (.inr rfl) (by omega) ?_ (fun h => nomatch h) hrest
  exact (Nat.length_toDigits_le_iff (by decide) (by decide)).mpr (by omega)

/-- An IPv4 address is read from its text. -/
theorem readIpv4Addr_octetText (a b c d : Fin (2 ^ 8)) {rest : List Char}
    (hrest : StopsNumber 10 rest) :
    readIpv4Addr (octetText [a, b, c, d] ++ rest) = some ((a.val, b.val, c.val, d.val), rest) := by
  have hdot : ∀ s, StopsNumber 10 ('.' :: s) := by
    rintro s _ ⟨⟩
    decide
  have htext : octetText [a, b, c, d] ++ rest =
      Nat.toDigits 10 a.val ++ '.' :: (Nat.toDigits 10 b.val ++ '.' ::
        (Nat.toDigits 10 c.val ++ '.' :: (Nat.toDigits 10 d.val ++ rest))) := by
    simp [octetText, List.intercalate_cons_cons]
  rw [htext]
  simp [readIpv4Addr, readNumber_octet _ (hdot _), readNumber_octet d hrest, readGivenChar]

/-- The characters that are left after a number are some of those before. -/
theorem mem_of_readNumber {radix maxDigits maxValue : ℕ} {allowZeroPrefix : Bool} {n : ℕ}
    {s rest : List Char}
    (h : readNumber radix maxDigits maxValue allowZeroPrefix s = some (n, rest)) {c : Char}
    (hc : c ∈ rest) : c ∈ s := by
  unfold readNumber at h
  dsimp only at h
  split at h
  · cases h
  · split at h
    · cases h
    · split at h
      · cases h
        exact (List.dropWhile_sublist _).mem hc
      · cases h

/-- There is a dot in an IPv4 address. -/
theorem dot_mem_of_readIpv4Addr {s : List Char} (h : (readIpv4Addr s).isSome) : '.' ∈ s := by
  obtain ⟨_, h⟩ := Option.isSome_iff_exists.mp h
  simp only [readIpv4Addr, Option.bind_eq_bind, Option.bind_eq_some_iff] at h
  obtain ⟨⟨a, rest⟩, hnumber, rest', hdot, -⟩ := h
  refine mem_of_readNumber hnumber ?_
  cases rest with
  | nil => cases hdot
  | cons c rest =>
      simp only [readGivenChar, Option.ite_none_right_eq_some] at hdot
      exact List.mem_cons.mpr (.inl hdot.1.symm)

/-- Groups after the first one, each with its colon. -/
def groupText (segments : List ℕ) : List Char := segments.flatMap fun n => ':' :: Nat.toDigits 16 n

/-- The text of segments, the first of them apart. -/
theorem segmentText_cons (n : ℕ) (segments : List ℕ) :
    segmentText (n :: segments) = Nat.toDigits 16 n ++ groupText segments := by
  induction segments generalizing n with
  | nil => simp [segmentText, groupText]
  | cons n' segments ih =>
      have hrest := ih n'
      simp only [segmentText, groupText, List.map_cons, List.intercalate_cons_cons,
        List.flatMap_cons] at hrest ⊢
      rw [hrest]
      simp

/-- Nothing that could be read as a group: the end, or the two colons. -/
def EndsGroups (rest : List Char) : Prop := rest = [] ∨ ∃ rest', rest = ':' :: ':' :: rest'

/-- No number goes on in what comes after it. -/
theorem stopsNumber_groupText {segments : List ℕ} {rest : List Char} (hrest : EndsGroups rest) :
    StopsNumber 16 (groupText segments ++ rest) := by
  intro c hc
  cases segments with
  | cons n segments =>
      obtain rfl : ':' = c := by simpa [groupText] using hc
      decide
  | nil =>
      rcases hrest with rfl | ⟨rest', rfl⟩
      · cases hc
      · obtain rfl : ':' = c := by simpa [groupText] using hc
        decide

/-- There is no number where no digit is. -/
theorem readNumber_eq_none {radix maxDigits maxValue : ℕ} {allowZeroPrefix : Bool} {s : List Char}
    (hs : StopsNumber radix s) : readNumber radix maxDigits maxValue allowZeroPrefix s = none := by
  refine if_pos (.inl ?_)
  cases s with
  | nil => rfl
  | cons c s => exact List.takeWhile_cons_of_neg (by simp [hs c rfl])

/-- The text of groups has no dot. -/
theorem dot_notMem_toDigits (n : ℕ) : '.' ∉ Nat.toDigits 16 n := by
  intro hmem
  have hdigit := (ofDigits_toDigits (.inr rfl) n).1 '.' hmem
  exact absurd hdigit (by decide)

/-- The text of groups has no dot. -/
theorem dot_notMem_groupText (segments : List ℕ) : '.' ∉ groupText segments := by
  intro hmem
  obtain ⟨n, -, hn⟩ := List.mem_flatMap.mp hmem
  rcases List.mem_cons.mp hn with hcolon | hdigit
  · exact absurd hcolon (by decide)
  · exact dot_notMem_toDigits n hdigit

/-- No IPv4 address is read where no dot is. -/
theorem bind_readIpv4Addr_eq_none {first : Bool} {s : List Char} (hdot : '.' ∉ s) :
    (readColon first s).bind readIpv4Addr = none := by
  cases hcolon : readColon first s with
  | none => rfl
  | some s' =>
      refine Option.not_isSome_iff_eq_none.mp fun h => hdot ?_
      have hmem := dot_mem_of_readIpv4Addr (s := s') (by simpa using h)
      cases first with
      | true => exact Option.some.inj hcolon ▸ hmem
      | false =>
          cases s with
          | nil => cases hcolon
          | cons c s =>
              simp only [readColon, readGivenChar, Bool.false_eq_true, if_false,
                Option.ite_none_right_eq_some, Option.some.injEq] at hcolon
              exact List.mem_cons_of_mem _ (hcolon.2 ▸ hmem)

/-- A group is read, and then the others. -/
theorem readGroups_succ {left : ℕ} {first : Bool} {s rest : List Char} {n : ℕ} (hdot : '.' ∉ s)
    (h : (readColon first s).bind (readNumber 16 4 65535 true) = some (n, rest)) :
    readGroups (left + 1) first s =
      (n :: (readGroups left false rest).1, (readGroups left false rest).2) := by
  rw [readGroups]
  simp only [bind_readIpv4Addr_eq_none hdot, ite_self, h]

/-- No group is read. -/
theorem readGroups_end {left : ℕ} {first : Bool} {s : List Char} (hdot : '.' ∉ s)
    (h : (readColon first s).bind (readNumber 16 4 65535 true) = none) :
    readGroups left first s = ([], false, s) := by
  cases left with
  | zero => rfl
  | succ left =>
      rw [readGroups]
      simp only [bind_readIpv4Addr_eq_none hdot, ite_self, h]

/-- Groups after the first one are read from their text. -/
theorem readGroups_groupText {segments : List ℕ} {left : ℕ} {rest : List Char}
    (hlength : segments.length ≤ left) (hsegments : ∀ n ∈ segments, n < 2 ^ 16)
    (hdot : '.' ∉ rest) (hrest : EndsGroups rest) :
    readGroups left false (groupText segments ++ rest) = (segments, false, rest) := by
  induction segments generalizing left with
  | nil =>
      -- After the groups comes the end or the `::`, at which no number is read.
      refine readGroups_end hdot ?_
      rcases hrest with rfl | ⟨rest', rfl⟩
      · rfl
      · show readNumber 16 4 65535 true (':' :: rest') = none
        refine readNumber_eq_none ?_
        rintro _ ⟨⟩
        decide
  | cons n segments ih =>
      obtain ⟨left, rfl⟩ : ∃ left', left = left' + 1 := ⟨left - 1, by simp at hlength; omega⟩
      have hdot' : '.' ∉ groupText (n :: segments) ++ rest := by
        rw [List.mem_append, not_or]
        exact ⟨dot_notMem_groupText _, hdot⟩
      have hread : (readColon false (groupText (n :: segments) ++ rest)).bind
          (readNumber 16 4 65535 true) = some (n, groupText segments ++ rest) := by
        rw [groupText, List.flatMap_cons, List.append_assoc]
        exact readNumber_segment (hsegments n List.mem_cons_self) (stopsNumber_groupText hrest)
      rw [readGroups_succ hdot' hread, ih (by simpa using hlength)
        fun n' hn' => hsegments n' (List.mem_cons_of_mem _ hn')]

/-- Groups are read from their text. -/
theorem readGroups_segmentText {segments : List ℕ} {left : ℕ} {rest : List Char}
    (hlength : segments.length ≤ left) (hsegments : ∀ n ∈ segments, n < 2 ^ 16)
    (hdot : '.' ∉ rest) (hrest : EndsGroups rest) :
    readGroups left true (segmentText segments ++ rest) = (segments, false, rest) := by
  cases segments with
  | nil =>
      refine readGroups_end hdot ?_
      exact readNumber_eq_none (@stopsNumber_groupText [] _ hrest)
  | cons n segments =>
      obtain ⟨left, rfl⟩ : ∃ left', left = left' + 1 := ⟨left - 1, by simp at hlength; omega⟩
      rw [segmentText_cons, List.append_assoc]
      have hdot' : '.' ∉ Nat.toDigits 16 n ++ (groupText segments ++ rest) := by
        simp only [List.mem_append, not_or]
        exact ⟨dot_notMem_toDigits n, dot_notMem_groupText _, hdot⟩
      have hread : (readColon true (Nat.toDigits 16 n ++ (groupText segments ++ rest))).bind
          (readNumber 16 4 65535 true) = some (n, groupText segments ++ rest) :=
        readNumber_segment (hsegments n List.mem_cons_self) (stopsNumber_groupText hrest)
      rw [readGroups_succ hdot' hread, readGroups_groupText (by simpa using hlength)
        (fun n' hn' => hsegments n' (List.mem_cons_of_mem _ hn')) hdot hrest]

/-- A run of segments that are zero. -/
def IsZeros (segments : List ℕ) (z : Span) : Prop :=
  ∀ i, z.start ≤ i → i < z.start + z.len → segments[i]? = some 0

/-- A run stays one when a segment comes after it. -/
theorem IsZeros.append {segments : List ℕ} {z : Span} (h : IsZeros segments z) (n : ℕ) :
    IsZeros (segments ++ [n]) z := by
  intro i hi hi'
  have hzero := h i hi hi'
  rw [List.getElem?_append_left (List.getElem?_eq_some_iff.mp hzero).1, hzero]

/-- The longest run is one, and so is the run that ends at the end. -/
theorem isZeros_foldl (segments : List ℕ) :
    IsZeros segments (segments.zipIdx.foldl zeroStep (⟨0, 0⟩, ⟨0, 0⟩)).1 ∧
      IsZeros segments (segments.zipIdx.foldl zeroStep (⟨0, 0⟩, ⟨0, 0⟩)).2 ∧
      ((segments.zipIdx.foldl zeroStep (⟨0, 0⟩, ⟨0, 0⟩)).2.len ≠ 0 →
        (segments.zipIdx.foldl zeroStep (⟨0, 0⟩, ⟨0, 0⟩)).2.start +
          (segments.zipIdx.foldl zeroStep (⟨0, 0⟩, ⟨0, 0⟩)).2.len = segments.length) := by
  have hempty : ∀ segments, IsZeros segments ⟨0, 0⟩ := by
    intro segments i _ hi
    exact absurd hi (Nat.not_lt_zero i)
  induction segments using List.reverseRecOn with
  | nil => exact ⟨hempty [], hempty [], fun h => absurd rfl h⟩
  | append_singleton segments n ih =>
      have hzip : (segments ++ [n]).zipIdx = segments.zipIdx ++ [(n, segments.length)] := by
        simp [List.zipIdx_append]
      rw [hzip, List.foldl_append, List.foldl_cons, List.foldl_nil]
      generalize segments.zipIdx.foldl zeroStep (⟨0, 0⟩, ⟨0, 0⟩) = runs at ih
      obtain ⟨longest, current⟩ := runs
      obtain ⟨hlongest, hcurrent, hend⟩ := ih
      by_cases hn : n = 0
      · -- The run at the end goes on, or starts here.
        subst hn
        have hnext : IsZeros (segments ++ [0])
            ⟨if current.len = 0 then segments.length else current.start, current.len + 1⟩ := by
          intro i hi hi'
          dsimp only at hi hi'
          by_cases hlast : i = segments.length
          · simp [hlast]
          · by_cases hlen : current.len = 0
            · rw [if_pos hlen] at hi hi'
              omega
            · rw [if_neg hlen] at hi hi'
              have hbound : current.start + current.len = segments.length := hend hlen
              exact IsZeros.append (z := current) hcurrent 0 i hi (by omega)
        simp only [zeroStep, if_true]
        refine ⟨?_, hnext, fun _ => ?_⟩
        · split
          · exact hnext
          · exact hlongest.append 0
        · simp only [List.length_append, List.length_singleton]
          split
          next hlen => omega
          next hlen =>
            have hbound : current.start + current.len = segments.length := hend hlen
            omega
      · simp only [zeroStep, if_neg hn]
        exact ⟨hlongest.append n, hempty _, fun h => absurd rfl h⟩

/-- The segments around the longest run of zeros. -/
theorem eq_around_longestZeros {segments : List ℕ} {z : Span} (hz : longestZeros segments = z)
    (hlen : 0 < z.len) :
    z.start + z.len ≤ segments.length ∧
      segments = segments.take z.start ++ List.replicate z.len 0 ++
        segments.drop (z.start + z.len) := by
  have hzeros : IsZeros segments z := hz ▸ (isZeros_foldl segments).1
  have hlast := (List.getElem?_eq_some_iff.mp
    (hzeros (z.start + z.len - 1) (by omega) (by omega))).1
  have hbound : z.start + z.len ≤ segments.length := by omega
  refine ⟨hbound, ?_⟩
  have hmiddle : (segments.drop z.start).take z.len = List.replicate z.len 0 := by
    rw [List.eq_replicate_iff]
    refine ⟨by rw [List.length_take, List.length_drop]; omega, fun n hn => ?_⟩
    obtain ⟨i, hi, rfl⟩ := List.mem_iff_getElem.mp hn
    rw [List.length_take] at hi
    have hzero := hzeros (z.start + i) (by omega) (by omega)
    rw [List.getElem_take, List.getElem_drop]
    exact (List.getElem?_eq_some_iff.mp hzero).2
  rw [← hmiddle, ← List.drop_drop, List.append_assoc, List.take_append_drop,
    List.take_append_drop]

/-- An IPv6 address that is not written like an IPv4 address is read from its text. -/
theorem readIpv6Addr_plain {segments : List ℕ} {z : Span} (hlength : segments.length = 8)
    (hsegments : ∀ n ∈ segments, n < 2 ^ 16) (hz : longestZeros segments = z) :
    let s :=
      if 1 < z.len then
        segmentText (segments.take z.start) ++ "::".toList ++
          segmentText (segments.drop (z.start + z.len))
      else segmentText segments
    '.' ∉ s ∧ readIpv6Addr s = some (segments, []) := by
  have hdots : ∀ segments, '.' ∉ segmentText segments := by
    intro segments
    cases segments with
    | nil => exact List.not_mem_nil
    | cons n segments =>
        rw [segmentText_cons, List.mem_append, not_or]
        exact ⟨dot_notMem_toDigits n, dot_notMem_groupText segments⟩
  intro s
  by_cases hlen : 1 < z.len
  · -- Up to the two colons, and from there on.
    obtain ⟨hbound, hsplit⟩ := eq_around_longestZeros hz (by omega)
    have hs : s = segmentText (segments.take z.start) ++ (':' :: ':' ::
        segmentText (segments.drop (z.start + z.len))) := by
      rw [show s = _ from if_pos hlen, List.append_assoc]
      rfl
    have hdot : '.' ∉ ':' :: ':' :: segmentText (segments.drop (z.start + z.len)) := by
      simp only [List.mem_cons, not_or]
      exact ⟨by decide, by decide, hdots _⟩
    refine ⟨?_, ?_⟩
    · rw [hs, List.mem_append, not_or]
      exact ⟨hdots _, hdot⟩
    have hheadLength : (segments.take z.start).length = z.start := by
      rw [List.length_take]
      omega
    have htailLength : (segments.drop (z.start + z.len)).length = 8 - (z.start + z.len) := by
      rw [List.length_drop, hlength]
    have hhead := @readGroups_segmentText (segments.take z.start) 8 _
      (by rw [hheadLength]; omega) (fun n hn => hsegments n (List.mem_of_mem_take hn)) hdot
      (.inr ⟨_, rfl⟩)
    have htail := @readGroups_segmentText (segments.drop (z.start + z.len)) (8 - (z.start + 1)) []
      (by rw [htailLength]; omega) (fun n hn => hsegments n (List.mem_of_mem_drop hn))
      List.not_mem_nil (.inl rfl)
    rw [List.append_nil] at htail
    simp only [readIpv6Addr, hs, hhead, hheadLength, Bool.false_eq_true, if_false]
    rw [if_neg (by omega)]
    simp only [readGivenChar, if_true, Option.bind_some, htail, htailLength]
    have hzeros : 8 - z.start - (8 - (z.start + z.len)) = z.len := by omega
    rw [hzeros]
    exact congrArg (fun groups => some (groups, [])) hsplit.symm
  · have hs : s = segmentText segments := if_neg hlen
    refine ⟨hs ▸ hdots segments, ?_⟩
    have hall := @readGroups_segmentText segments 8 [] hlength.le hsegments
      List.not_mem_nil (.inl rfl)
    rw [List.append_nil] at hall
    simp only [readIpv6Addr, hs, hall, hlength, if_true]

/-- The two bytes of a segment. -/
theorem octets_of_segment (n : Fin (2 ^ 16)) :
    n.val / 256 < 2 ^ 8 ∧ n.val % 256 < 2 ^ 8 ∧ 256 * (n.val / 256) + n.val % 256 = n.val := by
  omega

/-- An IPv4-mapped address is read from its text. -/
theorem readIpv6Addr_mapped (g h : Fin (2 ^ 16)) :
    readIpv4Addr ("::ffff:".toList ++
        octetText [g.val / 256, g.val % 256, h.val / 256, h.val % 256]) = none ∧
      readIpv6Addr ("::ffff:".toList ++
        octetText [g.val / 256, g.val % 256, h.val / 256, h.val % 256]) =
          some ([0, 0, 0, 0, 0, 0xffff, g.val, h.val], []) := by
  obtain ⟨hg, hg', hgval⟩ := octets_of_segment g
  obtain ⟨hh, hh', hhval⟩ := octets_of_segment h
  have hv4 := @readIpv4Addr_octetText ⟨_, hg⟩ ⟨_, hg'⟩ ⟨_, hh⟩ ⟨_, hh'⟩ []
    (fun c hc => nomatch hc)
  rw [List.append_nil] at hv4
  dsimp only at hv4
  generalize octetText [g.val / 256, g.val % 256, h.val / 256, h.val % 256] = s at hv4 ⊢
  have hcolons : "::ffff:".toList ++ s = ':' :: ':' :: ("ffff".toList ++ ':' :: s) := rfl
  have hstart : ∀ s, StopsNumber 10 (':' :: s) ∧ StopsNumber 16 (':' :: s) := by
    intro s
    constructor <;> rintro _ ⟨⟩ <;> decide
  have hnone : readIpv4Addr (':' :: ':' :: ("ffff".toList ++ ':' :: s)) = none := by
    simp [readIpv4Addr, readNumber_eq_none (hstart _).1]
  have hffff : readIpv4Addr ("ffff".toList ++ ':' :: s) = none := by
    have hnumber : readNumber 10 3 255 false ("ffff".toList ++ ':' :: s) = none := by
      refine readNumber_eq_none ?_
      rintro _ ⟨⟩
      decide
    rw [readIpv4Addr, hnumber]
    rfl
  have hgroup : readNumber 16 4 65535 true ("ffff".toList ++ ':' :: s) = some (0xffff, ':' :: s) :=
    readNumber_segment (n := 0xffff) (by decide) (hstart s).2
  refine ⟨hcolons ▸ hnone, ?_⟩
  rw [hcolons]
  -- No group before the two colons; after them one group, and then the IPv4 address.
  have hhead : readGroups 8 true (':' :: ':' :: ("ffff".toList ++ ':' :: s)) =
      ([], false, ':' :: ':' :: ("ffff".toList ++ ':' :: s)) := by
    simp only [readGroups, readColon, if_true, Option.bind_some, hnone,
      readNumber_eq_none (hstart _).2, ite_self]
  have hlast : readGroups (5 + 1) false (':' :: s) = ([g.val, h.val], true, []) := by
    rw [readGroups, if_pos (by decide)]
    simp only [readColon, Bool.false_eq_true, if_false, readGivenChar, if_true, Option.bind_some,
      hv4, hgval, hhval]
  have htail : readGroups (6 + 1) true ("ffff".toList ++ ':' :: s) =
      ([0xffff, g.val, h.val], true, []) := by
    rw [readGroups]
    simp only [readColon, if_true, Option.bind_some, hffff, ite_self, hgroup, hlast]
  simp only [readIpv6Addr, hhead, List.length_nil, readGivenChar, if_true, Option.bind_some, htail]
  rfl

/-- An address is read back from its text. -/
theorem parse_text (ip : IpAddr) : parse ip.text = some ip := by
  cases ip with
  | v4 a b c d =>
      have hread := @readIpv4Addr_octetText a b c d [] (fun c hc => nomatch hc)
      rw [List.append_nil] at hread
      simp only [parse, text, String.toList_ofList, parseChars, hread, if_true]
      simp
  | v6 a b c d e f g h =>
      have hsegments : ∀ n ∈ [a.val, b.val, c.val, d.val, e.val, f.val, g.val, h.val],
          n < 2 ^ 16 := by
        simp only [List.mem_cons, List.not_mem_nil, or_false]
        rintro n (rfl | rfl | rfl | rfl | rfl | rfl | rfl | rfl) <;> exact Fin.isLt _
      have hof : ofSegments [a.val, b.val, c.val, d.val, e.val, f.val, g.val, h.val] =
          some (.v6 a b c d e f g h) := by
        simp [ofSegments]
      simp only [parse, text, String.toList_ofList]
      unfold v6Text
      split
      -- An address that stands for one of version 4 ends in its text.
      next ab cd heq =>
        simp only [List.cons.injEq, and_true] at heq
        obtain ⟨ha, hb, hc, hd, he, hf, rfl, rfl⟩ := heq
        obtain ⟨hnone, hread⟩ := readIpv6Addr_mapped g h
        simp only [parseChars, hnone, hread, if_true]
        rw [← hof, ha, hb, hc, hd, he, hf]
      next =>
        obtain ⟨hdot, hread⟩ := readIpv6Addr_plain rfl hsegments rfl
        have hnone := Option.not_isSome_iff_eq_none.mp (mt dot_mem_of_readIpv4Addr hdot)
        simp only [parseChars]
        rw [hnone, hread]
        simpa using hof

/-- Different addresses have different texts. -/
theorem text_inj {ip ip' : IpAddr} (h : ip.text = ip'.text) : ip = ip' :=
  Option.some.inj (by rw [← parse_text ip, ← parse_text ip', h])

end IpAddr

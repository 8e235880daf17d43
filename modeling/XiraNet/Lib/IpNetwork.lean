import XiraNet.Lib.IpParse
import XiraNet.Lib.Text

/-!
# Networks of IP addresses

A network in the notation of an address and a prefix length, and the masks that programs test it
with.

* `BitVec.and_mask_eq_iff`: a mask compares the first bits.
* `inNetwork_bits`: the network of all bits is one address.
* `notMem_of_parseChars`: no character of an address is one that separates it from a prefix length.
-/

namespace BitVec

variable {w : ℕ}

/-- A mask compares the bits that it leaves. -/
theorem and_mask_eq_iff (x y : BitVec w) (j : ℕ) :
    x &&& allOnes w <<< j = y &&& allOnes w <<< j ↔ x.toNat / 2 ^ j = y.toNat / 2 ^ j := by
  have hshift : x.toNat / 2 ^ j = y.toNat / 2 ^ j ↔ x >>> j = y >>> j := by
    rw [← BitVec.toNat_inj, toNat_ushiftRight, toNat_ushiftRight, Nat.shiftRight_eq_div_pow,
      Nat.shiftRight_eq_div_pow]
  rw [hshift]
  constructor
  · intro h
    apply eq_of_getLsbD_eq
    intro i _
    -- Above the shift the mask has all the bits of the word.
    have hbit := congrArg (fun z => z.getLsbD (j + i)) h
    by_cases hi : j + i < w
    · have habove : ¬j + i < j := by omega
      simpa [hi, habove] using hbit
    · rw [getLsbD_ushiftRight, getLsbD_ushiftRight, getLsbD_of_ge _ _ (by omega),
        getLsbD_of_ge _ _ (by omega)]
  · intro h
    apply eq_of_getLsbD_eq
    intro i hi
    by_cases hj : i < j
    · simp [hj]
    · have hbit := congrArg (fun z => z.getLsbD (i - j)) h
      simp only [getLsbD_ushiftRight, Nat.add_sub_cancel' (not_lt.mp hj)] at hbit
      simp [hbit]

/-- A mask of a number of this many bits compares the bits that it leaves. -/
theorem and_mask_toNat_eq_iff {a b : ℕ} (ha : a < 2 ^ w) (hb : b < 2 ^ w) (j : ℕ) :
    a &&& (allOnes w <<< j).toNat = b &&& (allOnes w <<< j).toNat ↔ a / 2 ^ j = b / 2 ^ j := by
  have hword := and_mask_eq_iff (BitVec.ofNat w a) (BitVec.ofNat w b) j
  rwa [← BitVec.toNat_inj, toNat_and, toNat_and, toNat_ofNat, toNat_ofNat, Nat.mod_eq_of_lt ha,
    Nat.mod_eq_of_lt hb] at hword

end BitVec

namespace IpAddr

/-- The addresses of a network: those of its family with the same first bits. -/
def InNetwork (ip network : IpAddr) (prefixLen : ℕ) : Prop :=
  ip.bits = network.bits ∧
    ip.toNat / 2 ^ (network.bits - prefixLen) = network.toNat / 2 ^ (network.bits - prefixLen)

instance (ip network : IpAddr) (prefixLen : ℕ) : Decidable (ip.InNetwork network prefixLen) :=
  inferInstanceAs (Decidable (_ ∧ _))

/-- An address is a number of its length. -/
theorem toNat_lt (ip : IpAddr) : ip.toNat < 2 ^ ip.bits := by
  cases ip with
  | v4 a b c d =>
      simp only [toNat, bits, List.foldl_cons, List.foldl_nil]
      omega
  | v6 a b c d e f g h =>
      simp only [toNat, bits, List.foldl_cons, List.foldl_nil]
      omega

/-- An address is known by its family and its number. -/
theorem toNat_inj {ip ip' : IpAddr} (hbits : ip.bits = ip'.bits) :
    ip.toNat = ip'.toNat ↔ ip = ip' := by
  refine ⟨fun h => ?_, fun h => congrArg toNat h⟩
  cases ip with
  | v4 a b c d =>
      cases ip' with
      | v6 => exact absurd hbits (by simp [bits])
      | v4 a' b' c' d' =>
          simp only [toNat, List.foldl_cons, List.foldl_nil] at h
          simp only [v4.injEq, Fin.ext_iff]
          omega
  | v6 a b c d e f g h =>
      cases ip' with
      | v4 => exact absurd hbits (by simp [bits])
      | v6 a' b' c' d' e' f' g' h' =>
          simp only [toNat, List.foldl_cons, List.foldl_nil] at h
          simp only [v6.injEq, Fin.ext_iff]
          omega

/-- The network of all bits is one address. -/
theorem inNetwork_bits {ip network : IpAddr} :
    ip.InNetwork network network.bits ↔ ip = network := by
  simp only [InNetwork, Nat.sub_self, Nat.pow_zero, Nat.div_one]
  refine ⟨fun ⟨hbits, h⟩ => (toNat_inj hbits).mp h, ?_⟩
  rintro rfl
  exact ⟨rfl, rfl⟩

/-- In the network of no bits is the whole family. -/
theorem inNetwork_zero {ip network : IpAddr} :
    ip.InNetwork network 0 ↔ ip.bits = network.bits := by
  refine and_iff_left_of_imp fun hbits => ?_
  rw [Nat.sub_zero, Nat.div_eq_of_lt network.toNat_lt, Nat.div_eq_of_lt (hbits ▸ ip.toNat_lt)]

/-- The number of an IPv4 address. -/
theorem toNat_v4 (a b c d : Fin (2 ^ 8)) :
    (v4 a b c d).toNat = 2 ^ 24 * a.val + 2 ^ 16 * b.val + 2 ^ 8 * c.val + d.val := by
  simp only [toNat, List.foldl_cons, List.foldl_nil]
  omega

/-- The first segment of an IPv6 address, and what comes after it. -/
theorem toNat_v6 (a b c d e f g h : Fin (2 ^ 16)) :
    ∃ rest < 2 ^ 112, (v6 a b c d e f g h).toNat = 2 ^ 112 * a.val + rest := by
  refine ⟨(v6 0 b c d e f g h).toNat, ?_, ?_⟩ <;>
    simp only [toNat, List.foldl_cons, List.foldl_nil, Fin.val_zero] <;> omega

/-- A network of IPv6 that is known by its first segment. -/
theorem inNetwork_v6_iff {a b c d e f g h a' b' c' d' e' f' g' h' : Fin (2 ^ 16)} {prefixLen : ℕ}
    (hle : prefixLen ≤ 16) :
    (v6 a b c d e f g h).InNetwork (v6 a' b' c' d' e' f' g' h') prefixLen ↔
      a.val / 2 ^ (16 - prefixLen) = a'.val / 2 ^ (16 - prefixLen) := by
  obtain ⟨rest, hrest, hnat⟩ := toNat_v6 a b c d e f g h
  obtain ⟨rest', hrest', hnat'⟩ := toNat_v6 a' b' c' d' e' f' g' h'
  have hpow : 2 ^ (128 - prefixLen) = 2 ^ 112 * 2 ^ (16 - prefixLen) := by
    rw [← Nat.pow_add, show 128 - prefixLen = 112 + (16 - prefixLen) by omega]
  have hfirst : (2 ^ 112 * a.val + rest) / 2 ^ 112 = a.val := by omega
  have hfirst' : (2 ^ 112 * a'.val + rest') / 2 ^ 112 = a'.val := by omega
  simp only [InNetwork, hnat, hnat', bits, true_and]
  rw [hpow, ← Nat.div_div_eq_div_mul, hfirst, ← Nat.div_div_eq_div_mul, hfirst']

/-- A network is tested by the mask of its prefix length. -/
theorem mask_eq_iff_inNetwork {ip network : IpAddr} {w : ℕ} (hip : ip.bits = w)
    (hnetwork : network.bits = w) (prefixLen : ℕ) :
    BitVec.ofNat w network.toNat &&& BitVec.allOnes w <<< (w - prefixLen) =
        BitVec.ofNat w ip.toNat &&& BitVec.allOnes w <<< (w - prefixLen) ↔
      ip.InNetwork network prefixLen := by
  subst hnetwork
  have hlt : ip.toNat < 2 ^ network.bits := hip ▸ ip.toNat_lt
  rw [BitVec.and_mask_eq_iff, BitVec.toNat_ofNat, BitVec.toNat_ofNat,
    Nat.mod_eq_of_lt network.toNat_lt, Nat.mod_eq_of_lt hlt, eq_comm, InNetwork, and_iff_right hip]

/-- The characters that an address is written with. -/
def isAddrChar (c : Char) : Bool := isRadixDigit 16 c || c = '.' || c = ':'

/-- What was read between two places is part of an address. -/
def Reads (s rest : List Char) : Prop :=
  ∃ chars, s = chars ++ rest ∧ ∀ c ∈ chars, isAddrChar c = true

/-- Nothing was read. -/
theorem Reads.refl (s : List Char) : Reads s s := ⟨[], rfl, by simp⟩

/-- What is read in two steps. -/
theorem Reads.trans {s s' rest : List Char} (h : Reads s s') (h' : Reads s' rest) :
    Reads s rest := by
  obtain ⟨chars, rfl, hchars⟩ := h
  obtain ⟨chars', rfl, hchars'⟩ := h'
  refine ⟨chars ++ chars', (List.append_assoc ..).symm, fun c hc => ?_⟩
  exact (List.mem_append.mp hc).elim (hchars c) (hchars' c)

/-- A digit of a smaller radix is a hexadecimal one. -/
theorem isRadixDigit_hex {radix : ℕ} (hradix : radix ≤ 16) {c : Char}
    (h : isRadixDigit radix c = true) : isRadixDigit 16 c = true := by
  simp only [isRadixDigit, toDigit] at h ⊢
  split_ifs at h ⊢ <;> simp_all <;> omega

/-- A number is part of an address. -/
theorem Reads.number {radix maxDigits maxValue : ℕ} {allowZeroPrefix : Bool} {n : ℕ}
    {s rest : List Char} (hradix : radix ≤ 16)
    (h : readNumber radix maxDigits maxValue allowZeroPrefix s = some (n, rest)) :
    Reads s rest := by
  have hrest : s.dropWhile (isRadixDigit radix) = rest := by
    unfold readNumber at h
    dsimp only at h
    split_ifs at h
    exact (Prod.mk.inj (Option.some.inj h)).2
  refine ⟨s.takeWhile (isRadixDigit radix), ?_, fun c hc => ?_⟩
  · rw [← hrest, List.takeWhile_append_dropWhile]
  · simp [isAddrChar, isRadixDigit_hex hradix (List.mem_takeWhile_imp hc)]

/-- A dot or a colon is part of an address. -/
theorem Reads.given {c : Char} {s rest : List Char} (hc : isAddrChar c = true)
    (h : readGivenChar c s = some rest) : Reads s rest := by
  cases s with
  | nil => cases h
  | cons c' s =>
      simp only [readGivenChar, Option.ite_none_right_eq_some, Option.some.injEq] at h
      obtain ⟨rfl, rfl⟩ := h
      exact ⟨[c'], rfl, by simpa using hc⟩

/-- An IPv4 address is part of one. -/
theorem Reads.ipv4 {s rest : List Char} {octets : ℕ × ℕ × ℕ × ℕ}
    (h : readIpv4Addr s = some (octets, rest)) : Reads s rest := by
  simp only [readIpv4Addr, Option.bind_eq_bind, Option.bind_eq_some_iff] at h
  obtain ⟨⟨a, s₁⟩, ha, s₂, hdot, ⟨b, s₃⟩, hb, s₄, hdot', ⟨c, s₅⟩, hc, s₆, hdot'', ⟨d, s₇⟩, hd, h⟩ :=
    h
  obtain ⟨-, rfl⟩ := Prod.mk.inj (Option.some.inj h)
  have hgiven : isAddrChar '.' = true := by decide
  exact ((Reads.number (by decide) ha).trans (.given hgiven hdot)).trans <|
    ((Reads.number (by decide) hb).trans (.given hgiven hdot')).trans <|
      ((Reads.number (by decide) hc).trans (.given hgiven hdot'')).trans
        (Reads.number (by decide) hd)

/-- The colon before a group is part of an address. -/
theorem Reads.colon {first : Bool} {s rest : List Char} (h : readColon first s = some rest) :
    Reads s rest := by
  cases first with
  | true => exact Option.some.inj h ▸ Reads.refl s
  | false => exact Reads.given (by decide) h

/-- Groups are part of an address. -/
theorem Reads.groups (left : ℕ) (first : Bool) (s : List Char) :
    Reads s (readGroups left first s).2.2 := by
  induction left generalizing first s with
  | zero => exact Reads.refl s
  | succ left ih =>
      rw [readGroups]
      split
      next a b c d rest hv4 =>
        obtain ⟨-, hread⟩ := Option.ite_none_right_eq_some.mp hv4
        obtain ⟨s', hcolon, hread⟩ := Option.bind_eq_some_iff.mp hread
        exact (Reads.colon hcolon).trans (Reads.ipv4 hread)
      next =>
        split
        next group rest hgroup =>
          obtain ⟨s', hcolon, hread⟩ := Option.bind_eq_some_iff.mp hgroup
          exact ((Reads.colon hcolon).trans (Reads.number (by decide) hread)).trans (ih false rest)
        next => exact Reads.refl s

/-- An IPv6 address is one. -/
theorem Reads.ipv6 {s rest : List Char} {groups : List ℕ}
    (h : readIpv6Addr s = some (groups, rest)) : Reads s rest := by
  have hhead := Reads.groups 8 true s
  simp only [readIpv6Addr] at h
  generalize readGroups 8 true s = read at h hhead
  obtain ⟨head, headV4, s'⟩ := read
  dsimp only at h hhead
  split_ifs at h
  · cases h
    exact hhead
  · split at h
    next => cases h
    next s'' hcolons =>
      obtain ⟨s₁, hcolon, hcolon'⟩ := Option.bind_eq_some_iff.mp hcolons
      have htail := Reads.groups (8 - (head.length + 1)) true s''
      obtain ⟨-, rfl⟩ := Prod.mk.inj (Option.some.inj h)
      exact ((hhead.trans (.given (by decide) hcolon)).trans (.given (by decide) hcolon')).trans
        htail

/-- An address has only its characters. -/
theorem isAddrChar_of_parseChars {s : List Char} {ip : IpAddr} (h : parseChars s = some ip) :
    ∀ c ∈ s, isAddrChar c = true := by
  have hread : Reads s [] := by
    unfold parseChars at h
    split at h
    next a b c d rest hv4 =>
      obtain ⟨rfl, -⟩ := Option.ite_none_right_eq_some.mp h
      exact Reads.ipv4 hv4
    next =>
      split at h
      next groups rest hv6 =>
        obtain ⟨rfl, -⟩ := Option.ite_none_right_eq_some.mp h
        exact Reads.ipv6 hv6
      next => cases h
  obtain ⟨chars, rfl, hchars⟩ := hread
  simpa using hchars

/-- No character of an address is another one. -/
theorem notMem_of_parseChars {s : List Char} {ip : IpAddr} (h : parseChars s = some ip) {c : Char}
    (hc : isAddrChar c = false) : c ∉ s := fun hmem => by
  rw [isAddrChar_of_parseChars h c hmem] at hc
  exact Bool.noConfusion hc

end IpAddr

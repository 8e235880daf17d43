import XiraNet.Base
import XiraNet.Lib.IpNetwork
import XiraNet.Middleware.ClientIp

/-!
# IP filter

`middleware/ip_filter.rs`: the lists of addresses that the gateway answers or refuses, and the two
tests of an address against a network, the one of the filter and the one of the rate limiter.

* `isAllowed_iff`: which addresses the filter lets through.
* `CidrEntry.parse_of_cidrText`, `CidrEntry.contains_iff`: the rate limiter tests networks of both
  families.
* `matchesNetwork_iff`: when the filter tests them too.
* `matchesNetwork_fails`: no address but one is in the network of all of them.
-/

namespace XiraNet

open RateLimit

/-- `ip_matches_cidr`. A shift of a 32-bit number goes by its distance modulo 32. -/
def ipMatchesCidr (ip cidr : String) : Bool :=
  if '/' ∉ cidr.toList then ip = cidr
  else
    match Text.split cidr '/' with
    | [addr, len] =>
        match IpAddr.parse addr, Text.parseUnsigned u32Max len.toList, IpAddr.parse ip with
        | some cidrIp, some prefixLen, some targetIp =>
            match cidrIp, targetIp with
            | .v4 .., .v4 .. =>
                let cidrBits := BitVec.ofNat 32 cidrIp.toNat
                let targetBits := BitVec.ofNat 32 targetIp.toNat
                let mask :=
                  if 32 ≤ prefixLen then BitVec.allOnes 32
                  else ~~~(1#32 <<< ((32 - prefixLen) % 32) - 1#32)
                cidrBits &&& mask = targetBits &&& mask
            | _, _ => false
        | _, _, _ => false
    | _ => false

/-- `IpFilterMiddleware`. -/
structure IpFilterMiddleware where
  whitelist : List String
  blacklist : List String
  enabled : Bool

namespace IpFilterMiddleware

variable (filter : IpFilterMiddleware)

/-- `is_allowed`. -/
def isAllowed (ip : String) : Bool :=
  if filter.enabled = false then true
  else if ip ∈ filter.blacklist then false
  else if filter.blacklist.any fun blocked => ipMatchesCidr ip blocked then false
  else if filter.whitelist = [] then true
  else if ip ∈ filter.whitelist then true
  else filter.whitelist.any fun allowed => ipMatchesCidr ip allowed

/-- The requests that `call` hands on. -/
def passes (req : HttpRequest) : Bool :=
  filter.isAllowed ((req.peerAddr.map IpAddr.text).getD "unknown")

end IpFilterMiddleware

/-- An address, with a prefix length or without one. -/
inductive CidrText : String → IpAddr → ℕ → Prop
  | address {c : String} {network : IpAddr} (haddr : IpAddr.parse c = some network) :
      CidrText c network network.bits
  | withPrefix {addr len : String} {network : IpAddr} {max prefixLen : ℕ}
      (haddr : IpAddr.parse addr = some network)
      (hlen : Text.parseUnsigned max len.toList = some prefixLen) :
      CidrText (addr ++ "/" ++ len) network prefixLen

/-- Both tests accept the address if it is in the network, and reject every address where the
prefix is longer than one. -/
structure MatchesNetwork (c : String) (network : IpAddr) (prefixLen : ℕ) (ip : IpAddr) : Prop where
  parses : (CidrEntry.parse c).isSome ↔ prefixLen ≤ network.bits
  contains : ((CidrEntry.parse c).any fun entry => entry.contains ip) = true ↔
    prefixLen ≤ network.bits ∧ ip.InNetwork network prefixLen
  matchesCidr : ipMatchesCidr ip.text c = true ↔
    prefixLen ≤ network.bits ∧ ip.InNetwork network prefixLen

/-- What the filter tests rightly: an address is compared as it is written, a prefix of no bits or
of too many is one of all bits, and no address is in a network of IPv6. -/
def TestedByFilter (c : String) (network : IpAddr) (prefixLen : ℕ) (ip : IpAddr) : Prop :=
  if '/' ∉ c.toList then ip = network → c = network.text
  else
    match network with
    | .v4 .. =>
        (prefixLen = 0 → ip.bits = 32 → ip = network) ∧
          (32 < prefixLen → prefixLen ≤ u32Max → ip ≠ network)
    | .v6 .. => prefixLen ≤ 128 → ¬ip.InNetwork network prefixLen

namespace RateLimit.CidrEntry

/-- An entry contains the addresses of its network. -/
theorem contains_iff (entry : CidrEntry) (ip : IpAddr) :
    entry.contains ip = true ↔ ip.InNetwork entry.network entry.prefixLen := by
  obtain ⟨network, prefixLen, hle⟩ := entry
  have hsame : ∀ w, ip.bits = w → network.bits = w →
      (samePrefix w prefixLen (.ofNat w network.toNat) (.ofNat w ip.toNat) = true ↔
        ip.InNetwork network prefixLen) := by
    intro w hip hnetwork
    unfold samePrefix
    split
    next hzero => simp [hzero, IpAddr.inNetwork_zero, hip, hnetwork]
    next => simpa using IpAddr.mask_eq_iff_inNetwork hip hnetwork prefixLen
  have hfamilies : ip.bits ≠ network.bits → ¬ip.InNetwork network prefixLen :=
    fun hbits hin => hbits hin.1
  cases network with
  | v4 =>
      cases ip with
      | v4 => exact hsame 32 rfl rfl
      | v6 => exact iff_of_false Bool.false_ne_true (hfamilies (by simp [IpAddr.bits]))
  | v6 =>
      cases ip with
      | v4 => exact iff_of_false Bool.false_ne_true (hfamilies (by simp [IpAddr.bits]))
      | v6 => exact hsame 128 rfl rfl

end RateLimit.CidrEntry

/-- The characters of an address are no white space. -/
theorem isWhitespace_of_isAddrChar {c : Char} (h : IpAddr.isAddrChar c = true) :
    Text.isWhitespace c = false := by
  have hnat : c.toNat ∈ List.range' 46 57 := by
    simp only [IpAddr.isAddrChar, Bool.or_eq_true, decide_eq_true_eq] at h
    rcases h with (hdigit | rfl) | rfl
    · simp only [IpAddr.isRadixDigit, IpAddr.toDigit] at hdigit
      rw [List.mem_range'_1]
      split_ifs at hdigit <;> simp_all <;> omega
    · decide
    · decide
  rw [List.mem_range'_1] at hnat
  simp only [Text.isWhitespace, Bool.or_eq_false_iff, Bool.and_eq_false_iff,
    decide_eq_false_iff_not]
  omega

/-- The characters of a number are no white space. -/
theorem isWhitespace_of_digit {c : Char} (h : c = '+' ∨ c.isDigit = true) :
    Text.isWhitespace c = false := by
  rcases h with rfl | hdigit
  · decide
  · exact Text.isWhitespace_of_isDigit hdigit

section Texts

variable {c addr len : String} {network ip : IpAddr} {max prefixLen : ℕ}

/-- What separates an address from a prefix length is in neither. -/
theorem slash_notMem_of_parse (haddr : IpAddr.parse addr = some network) : '/' ∉ addr.toList :=
  IpAddr.notMem_of_parseChars haddr (by decide)

/-- What separates an address from a prefix length is in neither. -/
theorem slash_notMem_of_parseUnsigned (hlen : Text.parseUnsigned max len.toList = some prefixLen) :
    '/' ∉ len.toList := fun hmem => by
  rcases Text.isDigit_of_parseUnsigned hlen '/' hmem with h | h
  · exact absurd h (by decide)
  · exact absurd h (by decide)

/-- The characters of an address with a prefix length. -/
theorem toList_cidr : (addr ++ "/" ++ len).toList = addr.toList ++ '/' :: len.toList := by
  simp

/-- The rate limiter reads a network if its prefix is not too long. -/
theorem RateLimit.CidrEntry.parse_of_cidrText (h : CidrText c network prefixLen) :
    CidrEntry.parse c =
      if hle : prefixLen ≤ network.bits then some ⟨network, prefixLen, hle⟩ else none := by
  cases h with
  | address haddr =>
      have htrim : Text.trim c = c := Text.trim_eq_self fun x hx =>
        isWhitespace_of_isAddrChar (IpAddr.isAddrChar_of_parseChars haddr x hx)
      have hne : c.toList ≠ [] := by
        intro hnil
        rw [IpAddr.parse, hnil, show IpAddr.parseChars [] = none by decide] at haddr
        cases haddr
      have hread : IpAddr.parseChars c.toList = some network := haddr
      simp only [CidrEntry.parse, htrim, if_neg hne, if_neg (slash_notMem_of_parse haddr), hread]
      rw [dif_pos le_rfl]
      rfl
  | @withPrefix addr len _ max _ haddr hlen =>
      have htrim : Text.trim (addr ++ "/" ++ len) = addr ++ "/" ++ len := by
        refine Text.trim_eq_self fun x hx => ?_
        rw [toList_cidr] at hx
        rcases List.mem_append.mp hx with hx | hx
        · exact isWhitespace_of_isAddrChar (IpAddr.isAddrChar_of_parseChars haddr x hx)
        · rcases List.mem_cons.mp hx with rfl | hx
          · decide
          · exact isWhitespace_of_digit (Text.isDigit_of_parseUnsigned hlen x hx)
      have hall : ∀ x ∈ addr.toList, decide (x ≠ '/') = true := fun x hx =>
        decide_eq_true fun heq => slash_notMem_of_parse haddr (heq ▸ hx)
      have htake : (addr.toList ++ '/' :: len.toList).takeWhile (· ≠ '/') = addr.toList := by
        rw [List.takeWhile_append_of_pos hall]
        simp
      have hdrop : ((addr.toList ++ '/' :: len.toList).dropWhile (· ≠ '/')).tail = len.toList := by
        rw [List.dropWhile_append_of_pos hall]
        simp
      have hread : IpAddr.parseChars addr.toList = some network := haddr
      have hmax : network.bits ≤ 255 := by cases network <;> simp [IpAddr.bits]
      simp only [CidrEntry.parse, htrim, toList_cidr]
      rw [if_neg (by simp), if_pos (by simp), htake, hdrop, hread,
        Text.parseUnsigned_of_some hlen 255]
      by_cases hle : prefixLen ≤ network.bits
      · rw [if_pos (hle.trans hmax)]
      · split_ifs <;> simp [hle]

/-- Without a prefix length, texts are compared. -/
theorem ipMatchesCidr_address (haddr : IpAddr.parse c = some network) (s : String) :
    ipMatchesCidr s c = true ↔ s = c := by
  rw [ipMatchesCidr, if_pos (slash_notMem_of_parse haddr), decide_eq_true_eq]

/-- The prefix length of the mask that the filter makes. -/
def maskedBits (prefixLen : ℕ) : ℕ := if prefixLen = 0 then 32 else min prefixLen 32

/-- The mask is the one of this prefix length. -/
theorem mask_eq (prefixLen : ℕ) :
    (if 32 ≤ prefixLen then BitVec.allOnes 32
      else ~~~(1#32 <<< ((32 - prefixLen) % 32) - 1#32)) =
      BitVec.allOnes 32 <<< (32 - maskedBits prefixLen) := by
  split
  next hle =>
    rw [maskedBits, if_neg (by omega), Nat.min_eq_right hle]
    rfl
  next hlt =>
    have hall : ∀ k : Fin 32, ~~~(1#32 <<< ((32 - k.val) % 32) - 1#32) =
        BitVec.allOnes 32 <<< (32 - maskedBits k.val) := by
      decide
    exact hall ⟨prefixLen, by omega⟩

/-- With a prefix length, addresses of IPv4 are compared by their first bits. -/
theorem ipMatchesCidr_withPrefix (haddr : IpAddr.parse addr = some network)
    (hlen : Text.parseUnsigned max len.toList = some prefixLen) :
    ipMatchesCidr ip.text (addr ++ "/" ++ len) = true ↔
      prefixLen ≤ u32Max ∧ network.bits = 32 ∧ ip.InNetwork network (maskedBits prefixLen) := by
  have hsplit : Text.split (addr ++ "/" ++ len) '/' = [addr, len] := by
    rw [Text.split, toList_cidr,
      List.splitOn_append_cons_self_of_not_mem (slash_notMem_of_parse haddr),
      List.splitOn_eq_singleton (slash_notMem_of_parseUnsigned hlen)]
    simp
  rw [ipMatchesCidr, if_neg (by simp), hsplit]
  simp only [haddr, Text.parseUnsigned_of_some hlen u32Max, IpAddr.parse_text]
  by_cases hmax : prefixLen ≤ u32Max
  · rw [if_pos hmax, and_iff_right hmax]
    cases network with
    | v6 => exact iff_of_false Bool.false_ne_true fun h => absurd h.1 (by simp [IpAddr.bits])
    | v4 =>
        cases ip with
        | v6 => exact iff_of_false Bool.false_ne_true fun h => absurd h.2.1 (by simp [IpAddr.bits])
        | v4 =>
            simp only [mask_eq, decide_eq_true_eq]
            rw [@IpAddr.mask_eq_iff_inNetwork _ _ 32 rfl rfl]
            exact (and_iff_right rfl).symm
  · rw [if_neg hmax]
    exact iff_of_false Bool.false_ne_true fun h => hmax h.1

/-- When the mask is the one of the prefix length, or makes no difference. -/
theorem masked_iff (a b c d : Fin (2 ^ 8)) :
    (prefixLen ≤ u32Max ∧ ip.InNetwork (.v4 a b c d) (maskedBits prefixLen) ↔
        prefixLen ≤ 32 ∧ ip.InNetwork (.v4 a b c d) prefixLen) ↔
      (prefixLen = 0 → ip.bits = 32 → ip = .v4 a b c d) ∧
        (32 < prefixLen → prefixLen ≤ u32Max → ip ≠ .v4 a b c d) := by
  have hsame : ip.InNetwork (.v4 a b c d) 32 ↔ ip = .v4 a b c d := IpAddr.inNetwork_bits
  have hfamily : ip.InNetwork (.v4 a b c d) 0 ↔ ip.bits = 32 := IpAddr.inNetwork_zero
  rcases Nat.eq_zero_or_pos prefixLen with rfl | hpos
  · -- The mask for the prefix of no bits is the one of all bits.
    have hbits : ip = .v4 a b c d → ip.bits = 32 := by
      rintro rfl
      rfl
    rw [show maskedBits 0 = 32 from rfl, hsame, hfamily]
    simp only [Nat.zero_le, true_and, forall_const]
    exact ⟨fun hiff => ⟨hiff.mpr, fun hlong => absurd hlong (by omega)⟩,
      fun htested => ⟨hbits, htested.1⟩⟩
  · by_cases hle : prefixLen ≤ 32
    · have hmasked : maskedBits prefixLen = prefixLen := by
        rw [maskedBits, if_neg (by omega), Nat.min_eq_left hle]
      have hmax : prefixLen ≤ u32Max := hle.trans (by decide)
      rw [hmasked, and_iff_right hmax, and_iff_right hle]
      exact iff_of_true Iff.rfl ⟨fun hzero => by omega, fun hlong => by omega⟩
    · -- No address is in a network whose prefix is too long.
      have hmasked : maskedBits prefixLen = 32 := by
        rw [maskedBits, if_neg (by omega), Nat.min_eq_right (by omega)]
      have hnone : ¬(prefixLen ≤ 32 ∧ ip.InNetwork (.v4 a b c d) prefixLen) := fun h => hle h.1
      rw [hmasked, hsame, iff_false_right hnone, not_and]
      exact ⟨fun hne => ⟨fun hzero => by omega, fun _ => hne⟩,
        fun htested => htested.2 (by omega)⟩

/-- When both tests say which addresses are in a network. -/
theorem matchesNetwork_iff (h : CidrText c network prefixLen) :
    MatchesNetwork c network prefixLen ip ↔ TestedByFilter c network prefixLen ip := by
  -- The test of the rate limiter is right, so it is about the one of the filter.
  have hentry : MatchesNetwork c network prefixLen ip ↔ (ipMatchesCidr ip.text c = true ↔
      prefixLen ≤ network.bits ∧ ip.InNetwork network prefixLen) := by
    refine ⟨fun hmatches => hmatches.matchesCidr, fun htext => ?_⟩
    have hparse := CidrEntry.parse_of_cidrText h
    by_cases hle : prefixLen ≤ network.bits
    · rw [dif_pos hle] at hparse
      exact ⟨by simp [hparse, hle], by simp [hparse, hle, CidrEntry.contains_iff], htext⟩
    · rw [dif_neg hle] at hparse
      exact ⟨by simp [hparse, hle], by simp [hparse, hle], htext⟩
  rw [hentry]
  cases h with
  | address haddr =>
      unfold TestedByFilter
      rw [if_pos (slash_notMem_of_parse haddr), ipMatchesCidr_address haddr,
        and_iff_right le_rfl, IpAddr.inNetwork_bits]
      constructor
      · rintro hiff rfl
        exact (hiff.mpr rfl).symm
      · intro hcanonical
        refine ⟨fun htext => ?_, fun heq => heq ▸ (hcanonical heq).symm⟩
        rw [← htext, IpAddr.parse_text] at haddr
        exact Option.some.inj haddr
  | withPrefix haddr hlen =>
      unfold TestedByFilter
      rw [if_neg (by simp), ipMatchesCidr_withPrefix haddr hlen]
      cases network with
      | v6 => simp [IpAddr.bits]
      | v4 a b c d =>
          rw [show (IpAddr.v4 a b c d).bits = 32 from rfl, eq_self, true_and]
          exact masked_iff a b c d

/-- Both tests find an address in a network. -/
theorem matchesNetwork_ten : MatchesNetwork "10.0.0.0/8" (.v4 10 0 0 0) 8 (.v4 10 1 2 3) := by
  have htext : CidrText "10.0.0.0/8" (.v4 10 0 0 0) 8 :=
    @CidrText.withPrefix "10.0.0.0" "8" (.v4 10 0 0 0) 32 8 (by decide +kernel) (by decide)
  refine (matchesNetwork_iff htext).mpr ?_
  unfold TestedByFilter
  rw [if_neg (by decide)]
  exact ⟨fun hzero => absurd hzero (by decide), fun hlong => absurd hlong (by decide)⟩

/-- The filter says that an address is not in the network of all addresses. -/
theorem matchesNetwork_fails :
    ¬∀ (c : String) (network ip : IpAddr) (prefixLen : ℕ), CidrText c network prefixLen →
      MatchesNetwork c network prefixLen ip := by
  intro hall
  have htext : CidrText "0.0.0.0/0" (.v4 0 0 0 0) 0 :=
    @CidrText.withPrefix "0.0.0.0" "0" (.v4 0 0 0 0) 32 0 (by decide +kernel) (by decide)
  have hmatches := (hall _ _ (.v4 1 2 3 4) _ htext).matchesCidr
  exact absurd hmatches (by decide +kernel)

end Texts

namespace IpFilterMiddleware

variable {filter : IpFilterMiddleware}

/-- What the filter compares with its lists is in no network notation. -/
theorem slash_notMem_peer (req : HttpRequest) :
    '/' ∉ ((req.peerAddr.map IpAddr.text).getD "unknown").toList := by
  cases req.peerAddr with
  | none => decide
  | some ip => exact slash_notMem_of_parse (IpAddr.parse_text ip)

/-- A request is handed on if its address matches nothing of the one list, and something of the
other if there is one. -/
theorem passes_iff (henabled : filter.enabled = true) (req : HttpRequest) :
    filter.passes req = true ↔
      let ip := (req.peerAddr.map IpAddr.text).getD "unknown"
      (∀ blocked ∈ filter.blacklist, ipMatchesCidr ip blocked = false) ∧
        (filter.whitelist ≠ [] →
          ∃ allowed ∈ filter.whitelist, ipMatchesCidr ip allowed = true) := by
  have hslash := slash_notMem_peer req
  unfold passes
  generalize (req.peerAddr.map IpAddr.text).getD "unknown" = ip at hslash
  -- An address that is in a list matches itself there.
  have hself : ipMatchesCidr ip ip = true := by
    rw [ipMatchesCidr, if_pos hslash, decide_eq_true_eq]
  unfold isAllowed
  rw [if_neg (by simp [henabled])]
  split_ifs with hblocked hblocks hempty hlisted
  · refine iff_of_false id fun h => ?_
    exact Bool.noConfusion ((h.1 ip hblocked).symm.trans hself)
  · refine iff_of_false id fun h => ?_
    obtain ⟨blocked, hmem, hmatches⟩ := List.any_eq_true.mp hblocks
    exact Bool.noConfusion ((h.1 blocked hmem).symm.trans hmatches)
  all_goals
    have hnone : ∀ blocked ∈ filter.blacklist, ipMatchesCidr ip blocked = false := by
      simpa using hblocks
  · exact iff_of_true rfl ⟨hnone, fun hne => absurd hempty hne⟩
  · exact iff_of_true rfl ⟨hnone, fun _ => ⟨ip, hlisted, hself⟩⟩
  · rw [List.any_eq_true, and_iff_right hnone]
    exact ⟨fun hany _ => hany, fun hany => hany hempty⟩

end IpFilterMiddleware

end XiraNet

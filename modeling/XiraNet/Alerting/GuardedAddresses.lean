import XiraNet.Alerting.UrlGuard
import XiraNet.Lib.IpNetwork

/-!
# Guarded addresses

`is_ip_allowed` of `alerting/url_guard.rs` against the networks that the guard is documented to
block, and an address of IPv4 against the form that it has in IPv6.

* `isIpAllowed_mapped_iff`: the two forms of an address are treated alike, but for the address of
  the metadata service where it is the only one that is blocked.
* `blocksDocumented_iff`: what is documented is blocked, but for the addresses that are reserved.
-/

/-- `to_ipv6_mapped`. -/
def IpAddr.mapped (a b c d : Fin (2 ^ 8)) : IpAddr :=
  .v6 0 0 0 0 0 0xffff ⟨256 * a.val + b.val, by omega⟩ ⟨256 * c.val + d.val, by omega⟩

namespace XiraNet

section Mapped

variable (a b c d : Fin (2 ^ 8))

/-- The octets of an address are read off its segments. -/
theorem octets_of_pair : (256 * a.val + b.val) >>> 8 = a.val ∧
    (256 * a.val + b.val) &&& 0xff = b.val := by
  have hmod : (256 * a.val + b.val) &&& (2 ^ 8 - 1) = (256 * a.val + b.val) % 2 ^ 8 :=
    Nat.and_two_pow_sub_one_eq_mod _ _
  rw [Nat.shiftRight_eq_div_pow]
  constructor
  · omega
  · exact hmod.trans (by omega)

/-- A mapped address is safe if the address is. -/
theorem isSafeIp_mapped : isSafeIp (.mapped a b c d) = isSafeIpv4 a b c d := by
  obtain ⟨ha, hb⟩ := octets_of_pair a b
  obtain ⟨hc, hd⟩ := octets_of_pair c d
  simp [isSafeIp, IpAddr.mapped, ha, hb, hc, hd]

/-- No mapped address is one of the metadata service. -/
theorem isMetadataIp_mapped : isMetadataIp (.mapped a b c d) = false := by
  simp [isMetadataIp, IpAddr.mapped]

/-- The address of the metadata service is not safe. -/
theorem isSafeIpv4_metadata : isSafeIpv4 169 254 169 254 = false := by
  decide

/-- An address is rejected for requests to anywhere like its mapped form. -/
theorem isIpAllowed_mapped_strict :
    isIpAllowed (.mapped a b c d) .strict = isIpAllowed (.v4 a b c d) .strict := by
  have hsafe : isMetadataIp (.v4 a b c d) = true → isSafeIpv4 a b c d = false := by
    intro hmetadata
    simp only [isMetadataIp, decide_eq_true_eq, List.cons.injEq, and_true] at hmetadata
    obtain ⟨ha, hb, hc, hd⟩ := hmetadata
    rw [ha, hb, hc, hd]
    exact isSafeIpv4_metadata
  simp only [isIpAllowed, isMetadataIp_mapped, isSafeIp_mapped, reduceCtorEq, Bool.false_eq_true,
    if_false]
  split
  next hmetadata => exact hsafe hmetadata
  next => rfl

/-- An address is treated like its mapped form, but for the one of the metadata service where only
that one is blocked. -/
theorem isIpAllowed_mapped_iff (level : GuardLevel) :
    isIpAllowed (.mapped a b c d) level = isIpAllowed (.v4 a b c d) level ↔
      ¬(level = .upstreamOnly ∧ IpAddr.v4 a b c d = .v4 169 254 169 254) := by
  have hmetadata : isMetadataIp (.v4 a b c d) = true ↔
      IpAddr.v4 a b c d = .v4 169 254 169 254 := by
    simp only [isMetadataIp, decide_eq_true_eq, List.cons.injEq, and_true, IpAddr.v4.injEq,
      Fin.ext_iff]
    rfl
  cases level with
  | strict => exact iff_of_true (isIpAllowed_mapped_strict a b c d) (by simp)
  | upstreamOnly =>
      simp only [isIpAllowed, isMetadataIp_mapped, hmetadata, Bool.false_eq_true, if_true, if_false,
        true_and]
      split
      next hip => exact iff_of_false Bool.noConfusion fun hne => hne hip
      next hip => exact iff_of_true rfl hip

/-- The mapped form of the address of the metadata service is not blocked. -/
theorem isIpAllowed_mapped_fails :
    ¬∀ (a b c d : Fin (2 ^ 8)) (level : GuardLevel),
      isIpAllowed (.mapped a b c d) level = isIpAllowed (.v4 a b c d) level := by
  intro hall
  exact absurd (hall 169 254 169 254 .upstreamOnly) (by decide)

end Mapped

/-- The networks of IPv4 that are blocked for requests to anywhere. -/
def documentedV4 : List (IpAddr × ℕ) :=
  [(.v4 0 0 0 0, 8), (.v4 127 0 0 0, 8), (.v4 10 0 0 0, 8), (.v4 172 16 0 0, 12),
    (.v4 192 168 0 0, 16), (.v4 169 254 0 0, 16), (.v4 100 64 0 0, 10), (.v4 192 0 2 0, 24),
    (.v4 198 51 100 0, 24), (.v4 203 0 113 0, 24), (.v4 224 0 0 0, 4), (.v4 240 0 0 0, 4)]

/-- The networks of IPv6 that are. -/
def documentedV6 : List (IpAddr × ℕ) :=
  [(.v6 0 0 0 0 0 0 0 1, 128), (.v6 0xfe80 0 0 0 0 0 0 0, 10), (.v6 0xff00 0 0 0 0 0 0 0, 8),
    (.v6 0 0 0 0 0 0 0 0, 128), (.v6 0xfc00 0 0 0 0 0 0 0, 7)]

/-- An address of one of these networks. -/
def InDocumented (ip : IpAddr) : Prop :=
  ∃ network ∈ documentedV4 ++ documentedV6, ip.InNetwork network.1 network.2

/-- An address that is documented as blocked, itself or as a mapped one. -/
def Documented (ip : IpAddr) : Prop :=
  InDocumented ip ∨ ∃ a b c d, ip = .mapped a b c d ∧ InDocumented (.v4 a b c d)

/-- An address of the last network of IPv4, which is reserved, other than the one for broadcast. -/
def IsReserved (ip : IpAddr) : Prop :=
  ip.InNetwork (.v4 240 0 0 0) 4 ∧ ip ≠ .v4 255 255 255 255

/-- What the strict guard rejects is what is documented. -/
def BlocksDocumented (ip : IpAddr) : Prop := isIpAllowed ip .strict = false ↔ Documented ip

/-- The octets of the networks of IPv4 before the last one. -/
def HasSpecialPurpose (a b c : ℕ) : Prop :=
  a = 0 ∨ a = 127 ∨ a = 10 ∨ (a = 172 ∧ 16 ≤ b ∧ b ≤ 31) ∨ (a = 192 ∧ b = 168) ∨
    (a = 169 ∧ b = 254) ∨ (a = 100 ∧ 64 ≤ b ∧ b ≤ 127) ∨ (a = 192 ∧ b = 0 ∧ c = 2) ∨
    (a = 198 ∧ b = 51 ∧ c = 100) ∨ (a = 203 ∧ b = 0 ∧ c = 113) ∨ (224 ≤ a ∧ a ≤ 239)

/-- The last network comes after all of them. -/
theorem HasSpecialPurpose.lt {a b c : ℕ} (h : HasSpecialPurpose a b c) : a < 240 := by
  rcases h with h | h | h | h | h | h | h | h | h | h | h <;> omega

/-- The networks of IPv4 by the octets of their addresses. -/
theorem inDocumented_v4_iff (a b c d : Fin (2 ^ 8)) :
    InDocumented (.v4 a b c d) ↔ HasSpecialPurpose a b c ∨ 240 ≤ a.val := by
  have hfamily : InDocumented (.v4 a b c d) ↔
      ∃ network ∈ documentedV4, (IpAddr.v4 a b c d).InNetwork network.1 network.2 := by
    have hnone : ¬∃ network ∈ documentedV6, (IpAddr.v4 a b c d).InNetwork network.1 network.2 := by
      simp [documentedV6, IpAddr.InNetwork, IpAddr.bits]
    simp only [InDocumented, List.mem_append, or_and_right, exists_or, iff_false_intro hnone,
      or_false]
  rw [hfamily]
  simp only [documentedV4, List.exists_mem_cons_iff, List.not_mem_nil, false_and, exists_false,
    or_false, IpAddr.InNetwork, IpAddr.bits, true_and, IpAddr.toNat_v4, HasSpecialPurpose, or_assoc]
  -- One network after the other.
  refine or_congr ?_ <| or_congr ?_ <| or_congr ?_ <| or_congr ?_ <| or_congr ?_ <|
    or_congr ?_ <| or_congr ?_ <| or_congr ?_ <| or_congr ?_ <| or_congr ?_ <| or_congr ?_ ?_
  all_goals
    simp only [Nat.reduceSub, Nat.reducePow]
    omega

/-- The reserved addresses by their octets. -/
theorem isReserved_v4_iff (a b c d : Fin (2 ^ 8)) :
    IsReserved (.v4 a b c d) ↔
      240 ≤ a.val ∧ [a.val, b.val, c.val, d.val] ≠ [255, 255, 255, 255] := by
  have hnetwork : (IpAddr.v4 a b c d).InNetwork (.v4 240 0 0 0) 4 ↔ 240 ≤ a.val := by
    simp only [IpAddr.InNetwork, IpAddr.bits, true_and, IpAddr.toNat_v4, Nat.reduceSub,
      Nat.reducePow]
    omega
  rw [IsReserved, hnetwork, ne_eq, ne_eq, IpAddr.v4.injEq]
  simp only [Fin.ext_iff, List.cons.injEq, and_true]
  rfl

/-- Where two tests and a last one fail. -/
theorem ite_eq_false_iff {p q r : Bool} :
    (if p then false else if q then false else r) = false ↔
      p = true ∨ q = true ∨ r = false := by
  revert p q r
  decide

/-- The octets of an IPv4 address that is not safe. -/
theorem isSafeIpv4_eq_false_iff (a b c d : ℕ) :
    isSafeIpv4 a b c d = false ↔
      HasSpecialPurpose a b c ∨ [a, b, c, d] = [255, 255, 255, 255] := by
  rw [isSafeIpv4, ite_eq_false_iff, HasSpecialPurpose]
  simp only [Bool.or_eq_true, Bool.and_eq_true, decide_eq_true_eq, decide_eq_false_iff_not,
    not_not, List.cons.injEq, and_true, ne_eq, or_assoc]
  constructor
  · rintro (h | h | h | h | h | h | h | h | h | h | h | h | h) <;> simp [h]
  · rintro (h | h | h | h | h | h | h | h | h | h | h | h) <;> simp [h]

/-- What the guard rejects of IPv4. -/
theorem isIpAllowed_v4_iff (a b c d : Fin (2 ^ 8)) :
    isIpAllowed (.v4 a b c d) .strict = false ↔
      InDocumented (.v4 a b c d) ∧ ¬IsReserved (.v4 a b c d) := by
  have hsafe : isIpAllowed (.mapped a b c d) .strict = isSafeIpv4 a b c d := by
    simp [isIpAllowed, isMetadataIp_mapped, isSafeIp_mapped]
  rw [← isIpAllowed_mapped_strict, hsafe, isSafeIpv4_eq_false_iff, inDocumented_v4_iff,
    isReserved_v4_iff, not_and, not_not]
  constructor
  · rintro (hspecial | hbroadcast)
    · exact ⟨.inl hspecial, fun hlast => absurd hspecial.lt (by omega)⟩
    · have ha := (List.cons.inj hbroadcast).1
      exact ⟨.inr (by omega), fun _ => hbroadcast⟩
  · rintro ⟨hspecial | hlast, hbroadcast⟩
    · exact .inl hspecial
    · exact .inr (hbroadcast hlast)

/-- The networks of IPv6 by the segments of their addresses. -/
theorem inDocumented_v6_iff (a b c d e f g h : Fin (2 ^ 16)) :
    InDocumented (.v6 a b c d e f g h) ↔
      IpAddr.v6 a b c d e f g h = .v6 0 0 0 0 0 0 0 1 ∨ a.val / 2 ^ 6 = 0xfe80 / 2 ^ 6 ∨
        a.val / 2 ^ 8 = 0xff00 / 2 ^ 8 ∨ IpAddr.v6 a b c d e f g h = .v6 0 0 0 0 0 0 0 0 ∨
        a.val / 2 ^ 9 = 0xfc00 / 2 ^ 9 := by
  have hfamily : InDocumented (.v6 a b c d e f g h) ↔
      ∃ network ∈ documentedV6, (IpAddr.v6 a b c d e f g h).InNetwork network.1 network.2 := by
    have hnone :
        ¬∃ network ∈ documentedV4, (IpAddr.v6 a b c d e f g h).InNetwork network.1 network.2 := by
      simp [documentedV4, IpAddr.InNetwork, IpAddr.bits]
    simp only [InDocumented, List.mem_append, or_and_right, exists_or, iff_false_intro hnone,
      false_or]
  rw [hfamily]
  simp only [documentedV6, List.exists_mem_cons_iff, List.not_mem_nil, false_and, exists_false,
    or_false]
  refine or_congr IpAddr.inNetwork_bits <| or_congr (IpAddr.inNetwork_v6_iff (by decide)) <|
    or_congr (IpAddr.inNetwork_v6_iff (by decide)) <| or_congr IpAddr.inNetwork_bits <|
    IpAddr.inNetwork_v6_iff (by decide)

/-- The masks of the first segment. -/
theorem and_segment_eq_iff {a : ℕ} (ha : a < 2 ^ 16) :
    (a &&& 0xff00 = 0xff00 ↔ a / 2 ^ 8 = 0xff00 / 2 ^ 8) ∧
      (a &&& 0xfe00 = 0xfc00 ↔ a / 2 ^ 9 = 0xfc00 / 2 ^ 9) ∧
        (a &&& 0xffc0 = 0xfe80 ↔ a / 2 ^ 6 = 0xfe80 / 2 ^ 6) :=
  ⟨@BitVec.and_mask_toNat_eq_iff 16 a 0xff00 ha (by decide) 8,
    @BitVec.and_mask_toNat_eq_iff 16 a 0xfc00 ha (by decide) 9,
    @BitVec.and_mask_toNat_eq_iff 16 a 0xfe80 ha (by decide) 6⟩

/-- An address that ends like one of IPv4 is a mapped one. -/
theorem exists_mapped {a b c d e f : Fin (2 ^ 16)} (g h : Fin (2 ^ 16))
    (hsegments : [a.val, b.val, c.val, d.val, e.val, f.val] = [0, 0, 0, 0, 0, 0xffff]) :
    ∃ x y z w, IpAddr.v6 a b c d e f g h = .mapped x y z w := by
  refine ⟨⟨g / 256, by omega⟩, ⟨g % 256, by omega⟩, ⟨h / 256, by omega⟩, ⟨h % 256, by omega⟩, ?_⟩
  simp only [List.cons.injEq, and_true] at hsegments
  simp only [IpAddr.mapped, IpAddr.v6.injEq, Fin.ext_iff, hsegments, Nat.div_add_mod]
  decide

/-- An address that is not mapped is rejected if it is in one of the networks. -/
theorem isIpAllowed_v6_iff {a b c d e f g h : Fin (2 ^ 16)}
    (hmapped : ¬∃ x y z w, IpAddr.v6 a b c d e f g h = .mapped x y z w) :
    isIpAllowed (.v6 a b c d e f g h) .strict = false ↔ InDocumented (.v6 a b c d e f g h) := by
  obtain ⟨hmulticast, hlocal, hlink⟩ := and_segment_eq_iff a.isLt
  rw [inDocumented_v6_iff, ← hmulticast, ← hlocal, ← hlink]
  unfold isIpAllowed
  split
  next hmetadata =>
    -- The metadata service has a unique-local address.
    simp only [isMetadataIp, Bool.and_eq_true, decide_eq_true_eq] at hmetadata
    rw [hmetadata.1]
    exact iff_of_true rfl (.inr (.inr (.inr (.inr (by decide)))))
  next =>
    have hplain : ¬(([a.val, b.val, c.val, d.val, e.val, f.val, g.val, h.val].take 5 =
        [0, 0, 0, 0, 0] && f.val = 0xffff) = true) := by
      intro hlike
      refine hmapped (exists_mapped g h ?_)
      simpa [and_assoc] using hlike
    have hone : IpAddr.v6 a b c d e f g h = .v6 0 0 0 0 0 0 0 1 ↔
        [a.val, b.val, c.val, d.val, e.val, f.val, g.val, h.val] = [0, 0, 0, 0, 0, 0, 0, 1] := by
      simp only [IpAddr.v6.injEq, Fin.ext_iff, List.cons.injEq, and_true]
      rfl
    have hzero : IpAddr.v6 a b c d e f g h = .v6 0 0 0 0 0 0 0 0 ↔
        [a.val, b.val, c.val, d.val, e.val, f.val, g.val, h.val] = [0, 0, 0, 0, 0, 0, 0, 0] := by
      simp only [IpAddr.v6.injEq, Fin.ext_iff, List.cons.injEq, and_true]
      rfl
    rw [hone, hzero]
    simp only [isSafeIp, if_neg hplain, reduceCtorEq, if_false, Bool.or_eq_true, decide_eq_true_eq]
    split_ifs with hfirst hunique hunicast
    · refine iff_of_true rfl ?_
      rcases hfirst with (hloopback | hunspecified) | hmulti
      · exact .inl hloopback
      · exact .inr (.inr (.inr (.inl hunspecified)))
      · exact .inr (.inr (.inl hmulti))
    · exact iff_of_true rfl (.inr (.inr (.inr (.inr hunique))))
    · exact iff_of_true rfl (.inr (.inl hunicast))
    · rw [not_or, not_or] at hfirst
      simp [hfirst, hunique, hunicast]

/-- The networks of IPv6 have no mapped addresses. -/
theorem not_inDocumented_mapped (a b c d : Fin (2 ^ 8)) : ¬InDocumented (.mapped a b c d) := by
  rw [IpAddr.mapped, inDocumented_v6_iff]
  simp

/-- Mapped forms are forms of one address. -/
theorem mapped_inj {a b c d a' b' c' d' : Fin (2 ^ 8)}
    (h : IpAddr.mapped a b c d = .mapped a' b' c' d') :
    IpAddr.v4 a b c d = .v4 a' b' c' d' := by
  simp only [IpAddr.mapped, IpAddr.v6.injEq, Fin.ext_iff, true_and] at h
  simp only [IpAddr.v4.injEq, Fin.ext_iff]
  omega

/-- A reserved address is in the last of the networks. -/
theorem IsReserved.inDocumented {ip : IpAddr} (h : IsReserved ip) : InDocumented ip :=
  ⟨(.v4 240 0 0 0, 4), by decide, h.1⟩

/-- The strict guard rejects what is documented, but not the reserved addresses of IPv4 and their
mapped forms. -/
theorem blocksDocumented_iff (ip : IpAddr) :
    BlocksDocumented ip ↔
      ¬(IsReserved ip ∨ ∃ a b c d, ip = .mapped a b c d ∧ IsReserved (.v4 a b c d)) := by
  have hreserved : ∀ a b c d, (InDocumented (.v4 a b c d) ∧ ¬IsReserved (.v4 a b c d) ↔
      InDocumented (.v4 a b c d)) ↔ ¬IsReserved (.v4 a b c d) := by
    intro a b c d
    rw [and_iff_left_iff_imp]
    exact ⟨fun h hres => h hres.inDocumented hres, fun h _ => h⟩
  cases ip with
  | v4 a b c d =>
      rw [BlocksDocumented, Documented, isIpAllowed_v4_iff]
      simpa [IpAddr.mapped] using hreserved a b c d
  | v6 a b c d e f g h =>
      have hnone : ¬IsReserved (.v6 a b c d e f g h) := fun hres => by
        have hbits := hres.1.1
        simp [IpAddr.bits] at hbits
      by_cases hmapped : ∃ x y z w, IpAddr.v6 a b c d e f g h = .mapped x y z w
      · obtain ⟨x, y, z, w, hip⟩ := hmapped
        have hone : ∀ p : IpAddr → Prop, (∃ x' y' z' w', IpAddr.mapped x y z w =
            .mapped x' y' z' w' ∧ p (.v4 x' y' z' w')) ↔ p (.v4 x y z w) := by
          intro p
          constructor
          · rintro ⟨x', y', z', w', hsame, hp⟩
            rwa [mapped_inj hsame]
          · exact fun hp => ⟨x, y, z, w, rfl, hp⟩
        rw [hip] at hnone ⊢
        rw [BlocksDocumented, Documented, isIpAllowed_mapped_strict, isIpAllowed_v4_iff, hone, hone,
          or_iff_right hnone, or_iff_right (not_inDocumented_mapped x y z w)]
        exact hreserved x y z w
      · have hempty : ∀ p : IpAddr → Prop, ¬∃ x y z w,
            IpAddr.v6 a b c d e f g h = .mapped x y z w ∧ p (.v4 x y z w) := by
          rintro p ⟨x, y, z, w, hip, -⟩
          exact hmapped ⟨x, y, z, w, hip⟩
        rw [BlocksDocumented, Documented, isIpAllowed_v6_iff hmapped, or_iff_left (hempty _)]
        exact iff_of_true Iff.rfl (not_or.mpr ⟨hnone, hempty _⟩)

/-- A reserved address is not blocked. -/
theorem blocksDocumented_fails : ¬∀ ip, BlocksDocumented ip := by
  intro hall
  have hblocked := (hall (.v4 240 0 0 1)).mpr (.inl ⟨(.v4 240 0 0 0, 4), by decide, by decide⟩)
  exact absurd hblocked (by decide)

end XiraNet

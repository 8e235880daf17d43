import XiraNet.Identity.Base32
import XiraNet.Lib.Bytes

/-!
# One-time codes by their definition

What a time-based one-time code is by RFC 6238 and RFC 4226, and that `verify_totp` accepts the
codes of the current time step and of the two beside it.

## Main result

* `verifyTotp_iff`: a text is accepted for the base32 text of a key exactly if it is the code of
  one of the three steps, and the truncation of the hash stays inside its 20 bytes.
-/

namespace XiraNet

open BitGroups

/-- The dynamic truncation of a hash: the last 31 of the 32 bits that start at the byte whose place
the low four bits of the last byte give. -/
def dynamicTruncation (hash : Fin 20 → UInt8) : ℕ :=
  let offset : Fin 16 := Fin.ofNat 16 (hash (Fin.last 19)).toNat
  value (((List.finRange 4).flatMap fun i : Fin 4 =>
    byteBits (hash ⟨offset.val + i.val, by omega⟩)).drop 1)

/-- A text is the code of a time step: six decimal digits with the truncated hash of the step,
whose 64 bits are the message. -/
def IsTotp (hmac : HmacSha1) (key : List UInt8) (step : ℕ) (code : String) : Prop :=
  ∃ message : List UInt8, message.length = 8 ∧ value (message.flatMap byteBits) = step ∧
    Text.IsPadded 6 (dynamicTruncation (hmac key message) % 10 ^ 6) code.toList

/-- The truncation in `generate_totp_code`, with its indexing. -/
def truncateIndexed (hash : List UInt8) : Option ℕ := do
  let last ← hash[hash.length - 1]?
  let offset := last.toNat &&& 0x0f
  let first ← hash[offset]?
  let second ← hash[offset + 1]?
  let third ← hash[offset + 2]?
  let fourth ← hash[offset + 3]?
  some (((first.toNat &&& 0x7f) <<< 24) ||| (second.toNat <<< 16) ||| (third.toNat <<< 8) |||
    fourth.toNat)

/-- `generate_totp_code`, where `none` is an index outside the hash. -/
def generateTotpCodeIndexed (hmac : HmacSha1) (key : List UInt8) (timeStep : ℕ) : Option String :=
  (truncateIndexed (List.ofFn (hmac key (toBeBytes timeStep)))).map fun binCode =>
    Text.zeroPadded (binCode % 10 ^ totpDigits) totpDigits

/-- The four bytes from the offset, without the first bit, are the bits of the code's number. -/
theorem bits_binCode (a b c d : UInt8) :
    bits 31 (((a.toNat &&& 0x7f) <<< 24) ||| (b.toNat <<< 16) ||| (c.toNat <<< 8) ||| d.toNat) =
      bits 7 a.toNat ++ byteBits b ++ byteBits c ++ byteBits d := by
  -- One byte after the other enters from the right.
  have hnested : ((a.toNat &&& 0x7f) <<< 24) ||| (b.toNat <<< 16) ||| (c.toNat <<< 8) ||| d.toNat =
      ((((a.toNat &&& 0x7f) <<< 8 ||| b.toNat) <<< 8 ||| c.toNat) <<< 8) ||| d.toNat := by
    simp only [Nat.shiftLeft_or_distrib, ← Nat.shiftLeft_add]
  rw [hnested, bits_shiftLeft_or 23 d.toNat_lt, bits_shiftLeft_or 15 c.toNat_lt,
    bits_shiftLeft_or 7 b.toNat_lt]
  exact congrArg (· ++ _ ++ _ ++ _) (bits_and_mask 7 a.toNat)

/-- The number of a code is below 2 ^ 31. -/
theorem binCode_lt (a b c d : UInt8) :
    ((a.toNat &&& 0x7f) <<< 24) ||| (b.toNat <<< 16) ||| (c.toNat <<< 8) ||| d.toNat < 2 ^ 31 := by
  have ha : a.toNat &&& 0x7f < 2 ^ 7 := Nat.and_lt_two_pow a.toNat (by omega)
  have hb := b.toNat_lt
  have hc := c.toNat_lt
  have hd := d.toNat_lt
  refine Nat.or_lt_two_pow (Nat.or_lt_two_pow (Nat.or_lt_two_pow ?_ ?_) ?_) (by omega)
  · exact Nat.shiftLeft_lt ha
  · rw [Nat.shiftLeft_eq]
    omega
  · rw [Nat.shiftLeft_eq]
    omega

/-- The dynamic truncation with masks and shifts. -/
theorem dynamicTruncation_eq (hash : Fin 20 → UInt8) {offset : ℕ}
    (hoffset : (hash 19).toNat &&& 0x0f = offset) (hlt : offset < 16) :
    dynamicTruncation hash = (((hash ⟨offset, by omega⟩).toNat &&& 0x7f) <<< 24) |||
      ((hash ⟨offset + 1, by omega⟩).toNat <<< 16) |||
      ((hash ⟨offset + 2, by omega⟩).toNat <<< 8) ||| (hash ⟨offset + 3, by omega⟩).toNat := by
  have hmod : (hash 19).toNat % 16 = offset :=
    (Nat.and_two_pow_sub_one_eq_mod (hash 19).toNat 4).symm.trans hoffset
  subst hmod
  rw [← Nat.mod_eq_of_lt (binCode_lt _ _ _ _), ← value_bits, bits_binCode]
  rfl

theorem offset_lt (last : UInt8) : last.toNat &&& 0x0f < 16 :=
  Nat.and_lt_two_pow (n := 4) last.toNat (by omega)

/-- The indexed truncation reads inside the hash. -/
theorem truncateIndexed_ofFn (hash : Fin 20 → UInt8) :
    truncateIndexed (List.ofFn hash) = some (dynamicTruncation hash) := by
  have hlt := offset_lt (hash 19)
  have hget : ∀ i (hi : i < 20), (List.ofFn hash)[i]? = some (hash ⟨i, hi⟩) := by
    intro i hi
    rw [List.getElem?_ofFn, dif_pos hi]
  rw [truncateIndexed, List.length_ofFn, hget 19 (by omega)]
  simp only [Option.bind_eq_bind, Option.bind_some]
  rw [show (hash ⟨19, by omega⟩) = hash 19 from rfl, hget _ (by omega), Option.bind_some,
    hget _ (by omega), Option.bind_some, hget _ (by omega), Option.bind_some, hget _ (by omega),
    Option.bind_some, dynamicTruncation_eq hash rfl hlt]

/-- The code of a step. -/
theorem generateTotpCode_eq (hmac : HmacSha1) (key : List UInt8) (step : ℕ) :
    generateTotpCode hmac key step =
      Text.zeroPadded (dynamicTruncation (hmac key (toBeBytes step)) % 10 ^ 6) 6 := by
  have hlt := offset_lt (hmac key (toBeBytes step) 19)
  have hplace : ∀ i (hi : i < 20), Fin.ofNat 20 i = ⟨i, hi⟩ := fun i hi =>
    Fin.ext (Nat.mod_eq_of_lt hi)
  rw [dynamicTruncation_eq _ rfl hlt, ← hplace _ (by omega), ← hplace _ (by omega),
    ← hplace _ (by omega), ← hplace _ (by omega)]
  rfl

/-- No index of the code's truncation is outside the hash. -/
theorem generateTotpCodeIndexed_eq (hmac : HmacSha1) (key : List UInt8) (step : ℕ) :
    generateTotpCodeIndexed hmac key step = some (generateTotpCode hmac key step) := by
  rw [generateTotpCodeIndexed, truncateIndexed_ofFn, Option.map_some, generateTotpCode_eq]
  rfl

/-- The message of a step has the bits of the step. -/
theorem toBeBytes_spec {step : ℕ} (h : step < 2 ^ 64) :
    (toBeBytes step).length = 8 ∧ value ((toBeBytes step).flatMap byteBits) = step := by
  refine ⟨by rw [toBeBytes, List.length_map, List.length_range], ?_⟩
  have hbits : (toBeBytes step).flatMap byteBits = bits (8 * 8) step := by
    rw [← flatMap_range_bits, toBeBytes, List.flatMap_map]
    refine congrArg (fun g => List.flatMap g (List.range 8)) (funext fun i => ?_)
    rw [byteBits, UInt8.toNat_ofNat', bits_mod le_rfl]
  rw [hbits, value_bits, Nat.mod_eq_of_lt h]

/-- Messages of one length with one number are equal. -/
theorem message_unique {m m' : List UInt8} (hlength : m.length = m'.length)
    (hvalue : value (m.flatMap byteBits) = value (m'.flatMap byteBits)) : m = m' := by
  have hbits : m.flatMap byteBits = m'.flatMap byteBits := by
    rw [← bits_value (m.flatMap byteBits), ← bits_value (m'.flatMap byteBits), hvalue,
      length_flatMap length_byteBits, length_flatMap length_byteBits, hlength]
  have hempty : ([] : List Bool).length < 8 := by decide
  exact (flatMap_inj length_byteBits byteBits_injective hempty hempty
    (congrArg (· ++ []) hbits)).1

/-- The generated code is the code of the step, and the only one. -/
theorem eq_generateTotpCode_iff (hmac : HmacSha1) (key : List UInt8) {step : ℕ}
    (h : step < 2 ^ 64) (code : String) :
    generateTotpCode hmac key step = code ↔ IsTotp hmac key step code := by
  obtain ⟨hlength, hvalue⟩ := toBeBytes_spec h
  have hpadded := Text.isPadded_zeroPadded (by decide : 0 < 6)
    (Nat.mod_lt (dynamicTruncation (hmac key (toBeBytes step))) (by decide : 0 < 10 ^ 6))
  rw [← generateTotpCode_eq] at hpadded
  constructor
  · rintro rfl
    exact ⟨toBeBytes step, hlength, hvalue, hpadded⟩
  · rintro ⟨message, hlength', hvalue', hcode⟩
    obtain rfl := message_unique (hlength'.trans hlength.symm) (hvalue'.trans hvalue.symm)
    exact String.toList_inj.mp (hpadded.unique hcode)

/-- The steps around a time. -/
theorem totpSteps_eq {now : ℕ} (h : now < 2 ^ 63) :
    totpSteps now = [now / 30, now / 30 - 1, now / 30 + 1] := by
  have hstep : asI64 (now / totpPeriod) = (now / 30 : ℕ) := if_pos (by rw [totpPeriod]; omega)
  have hsteps : ∀ offset : ℤ, -1 ≤ offset → offset ≤ 1 →
      (max (saturatingAddI64 (asI64 (now / totpPeriod)) offset) 0).toNat =
        ((now / 30 : ℕ) + offset).toNat := by
    intro offset hlo hhi
    rw [hstep, saturatingAddI64]
    omega
  simp only [totpSteps, List.map_cons, List.map_nil]
  rw [hsteps 0 (by omega) (by omega), hsteps (-1) (by omega) (by omega),
    hsteps 1 (by omega) (by omega)]
  refine congrArg₂ _ (by omega) (congrArg₂ _ (by omega) (congrArg₂ _ (by omega) rfl))

/-- A text is accepted for a key exactly if it is the code of the current time step or of one of
the two beside it, and no index is outside the hash. -/
theorem verifyTotp_iff (hmac : HmacSha1) (key : List UInt8) (now : ℕ) (hnow : now < 2 ^ 63)
    (code : String) :
    (verifyTotp hmac now (base32Encode key) code = true ↔
      ∃ step ∈ [now / 30 - 1, now / 30, now / 30 + 1], IsTotp hmac key step code) ∧
    ∀ step, generateTotpCodeIndexed hmac key step = some (generateTotpCode hmac key step) := by
  refine ⟨?_, generateTotpCodeIndexed_eq hmac key⟩
  simp only [verifyTotp, base32Decode_of_respelled key (.refl _), totpSteps_eq hnow,
    List.any_eq_true, decide_eq_true_eq]
  constructor
  · rintro ⟨step, hstep, hcode⟩
    simp only [List.mem_cons, List.not_mem_nil, or_false] at hstep
    have hlt : step < 2 ^ 64 := by omega
    refine ⟨step, ?_, (eq_generateTotpCode_iff hmac key hlt code).mp hcode⟩
    simp only [List.mem_cons, List.not_mem_nil, or_false]
    omega
  · rintro ⟨step, hstep, hcode⟩
    simp only [List.mem_cons, List.not_mem_nil, or_false] at hstep
    have hlt : step < 2 ^ 64 := by omega
    refine ⟨step, ?_, (eq_generateTotpCode_iff hmac key hlt code).mpr hcode⟩
    simp only [List.mem_cons, List.not_mem_nil, or_false]
    omega

/-- The hash of the first step for the key `12345678901234567890`. -/
def firstStepHash : HmacSha1 := fun _ _ =>
  List.get [0x75, 0xa4, 0x8a, 0x19, 0xd4, 0xcb, 0xe1, 0x00, 0x64, 0x4e,
    0x8a, 0xc1, 0x39, 0x7e, 0xea, 0x74, 0x7a, 0x2d, 0x33, 0xab]

/-- The test vector of RFC 6238 for the 59th second. -/
theorem verifyTotp_firstStep :
    verifyTotp firstStepHash 59 (base32Encode (Utf8.encode "12345678901234567890")) "287082" =
      true := by
  refine (verifyTotp_iff firstStepHash (Utf8.encode "12345678901234567890") 59 (by decide)
    "287082").1.mpr ⟨1, by decide, [0, 0, 0, 0, 0, 0, 0, 1], by decide, by decide, ?_⟩
  exact ⟨rfl, by simp, rfl⟩

end XiraNet

import Mathlib.Logic.Function.Iterate
import Mathlib.Tactic.IntervalCases
import XiraNet.Lib.Bytes

/-!
# Rounds of percent encoding

What decoding makes of a text that was percent-encoded several times, each time in an arbitrary
choice of its characters. A round may encode the percent sign or a digit of an older escape, so the
characters of one text are nested to different depths, and one pass of decoding reaches the inside
of some of them before others.

* `Percent.Layers`: the nested forms of a character, up to a depth.
* `Percent.Layers.decode`: a pass takes one layer off, whatever comes after.
* `Percent.iterate_decodeString`: as many passes as there were rounds restore the text.
* `Percent.Pass`: what one pass makes of a part of a text, whatever comes after.
-/

/-- A list that is rewritten element by element. -/
inductive Rewrites {α β : Type*} (R : α → List β → Prop) : List α → List β → Prop
  | nil : Rewrites R [] []
  | cons {x : α} {xs : List α} {y ys : List β} (hx : R x y) (hxs : Rewrites R xs ys) :
      Rewrites R (x :: xs) (y ++ ys)

namespace Rewrites

variable {α β γ : Type*} {R : α → List β → Prop} {S : β → List γ → Prop} {T : α → List γ → Prop}

/-- The first element is rewritten apart from the others. -/
theorem exists_cons {x : α} {xs : List α} {ys : List β} (h : Rewrites R (x :: xs) ys) :
    ∃ z zs, ys = z ++ zs ∧ R x z ∧ Rewrites R xs zs := by
  cases h with
  | @cons _ _ z zs hx hxs => exact ⟨z, zs, rfl, hx, hxs⟩

/-- The parts of a list are rewritten apart. -/
theorem exists_append {xs xs' : List α} {ys : List β} (h : Rewrites R (xs ++ xs') ys) :
    ∃ zs zs', ys = zs ++ zs' ∧ Rewrites R xs zs ∧ Rewrites R xs' zs' := by
  induction xs generalizing ys with
  | nil => exact ⟨[], ys, rfl, .nil, h⟩
  | cons x xs ih =>
      obtain ⟨y, _, rfl, hx, hxs⟩ := h.exists_cons
      obtain ⟨zs, zs', rfl, hzs, hzs'⟩ := ih hxs
      exact ⟨y ++ zs, zs', (List.append_assoc _ _ _).symm, .cons hx hzs, hzs'⟩

/-- Two rewritings, one after the other. -/
theorem trans (hRS : ∀ x y z, R x y → Rewrites S y z → T x z) {xs : List α} {ys : List β}
    {zs : List γ} (h : Rewrites R xs ys) (h' : Rewrites S ys zs) : Rewrites T xs zs := by
  induction h generalizing zs with
  | nil =>
      cases h'
      exact .nil
  | cons hx _ ih =>
      obtain ⟨z, zs', rfl, hz, hzs'⟩ := h'.exists_append
      exact .cons (hRS _ _ _ hx hz) (ih hzs')

/-- The rewriting of one element. -/
theorem of_singleton {x : α} {ys : List β} (h : Rewrites R [x] ys) : R x ys := by
  cases h with
  | cons hx hxs =>
      cases hxs
      rw [List.append_nil]
      exact hx

/-- What holds of all that an element is rewritten to. -/
theorem forall_mem {P : α → Prop} {Q : β → Prop} (hR : ∀ x y, R x y → P x → ∀ b ∈ y, Q b)
    {xs : List α} {ys : List β} (h : Rewrites R xs ys) (hP : ∀ x ∈ xs, P x) : ∀ b ∈ ys, Q b := by
  induction h with
  | nil => exact fun b hb => absurd hb List.not_mem_nil
  | cons hx _ ih =>
      rw [List.forall_mem_cons] at hP
      intro b hb
      rcases List.mem_append.mp hb with hb | hb
      · exact hR _ _ hx hP.1 b hb
      · exact ih hP.2 b hb

/-- Where every element is rewritten to itself, the list is. -/
theorem eq_of_singleton {R : α → List α → Prop} (hR : ∀ x y, R x y → y = [x]) {xs ys : List α}
    (h : Rewrites R xs ys) : ys = xs := by
  induction h with
  | nil => rfl
  | cons hx _ ih => rw [hR _ _ hx, ih, List.singleton_append]

end Rewrites

namespace Utf8

/-- The bytes of an ASCII text. -/
def asciiBytes (s : List Char) : List UInt8 := s.map fun c => UInt8.ofNat c.toNat

/-- The bytes of two texts. -/
theorem asciiBytes_append (s t : List Char) :
    asciiBytes (s ++ t) = asciiBytes s ++ asciiBytes t := List.map_append

/-- An ASCII text is encoded in one byte for each character. -/
theorem encode_ofList_of_ascii {s : List Char} (hs : ∀ c ∈ s, c.toNat < 128) :
    encode (String.ofList s) = asciiBytes s := by
  unfold encode
  rw [String.toList_ofList]
  induction s with
  | nil => rfl
  | cons c s ih =>
      rw [List.forall_mem_cons] at hs
      have hchar : String.utf8EncodeChar c = [UInt8.ofNat c.toNat] :=
        if_pos (Nat.le_of_lt_succ hs.1)
      rw [List.flatMap_cons, hchar, ih hs.2]
      rfl

/-- The bytes of an ASCII text are decoded one by one. -/
theorem lossy_asciiBytes {s : List Char} (hs : ∀ c ∈ s, c.toNat < 128) :
    lossy (asciiBytes s) = String.ofList s := by
  unfold lossy
  congr 1
  induction s with
  | nil => rfl
  | cons c s ih =>
      rw [List.forall_mem_cons] at hs
      have htoNat : (UInt8.ofNat c.toNat).toNat = c.toNat := by
        rw [UInt8.toNat_ofNat']
        omega
      have hlt : UInt8.ofNat c.toNat < 0x80 := by
        rw [UInt8.lt_iff_toNat_lt, htoNat]
        exact hs.1
      show decodeLossy 0 (UInt8.ofNat c.toNat :: asciiBytes s) = c :: s
      rw [decodeLossy, if_pos hlt, htoNat, Char.ofNat_toNat, ih hs.2]

end Utf8

namespace Percent

open Utf8

/-- A hexadecimal digit of a value, as a small or as a capital letter. -/
def IsHexDigit (n : ℕ) (d : Char) : Prop := d = Nat.digitChar n ∨ d = (Nat.digitChar n).toUpper

/-- What one round makes of a character: it is left as it is or replaced by its escape. -/
inductive EncodesChar (c : Char) : List Char → Prop
  | keep : EncodesChar c [c]
  | escape {high low : Char} (hhigh : IsHexDigit (c.toNat / 16) high)
      (hlow : IsHexDigit (c.toNat % 16) low) : EncodesChar c ['%', high, low]

/-- A number of rounds over a text. -/
inductive Rounds : ℕ → List Char → List Char → Prop
  | zero (s : List Char) : Rounds 0 s s
  | succ {n : ℕ} {s t u : List Char} (hrounds : Rounds n s t)
      (hround : Rewrites EncodesChar t u) : Rounds (n + 1) s u

/-- The forms of a character that has been encoded at most `n` layers deep: the three characters of
an escape have forms of their own. -/
inductive Layers : ℕ → Char → List Char → Prop
  | keep (n : ℕ) (c : Char) : Layers n c [c]
  | escape {n : ℕ} {c high low : Char} {a b d : List Char}
      (hhigh : IsHexDigit (c.toNat / 16) high) (hlow : IsHexDigit (c.toNat % 16) low)
      (ha : Layers n '%' a) (hb : Layers n high b) (hd : Layers n low d) :
      Layers (n + 1) c (a ++ (b ++ d))

/-- One more round adds at most one layer. -/
theorem Layers.round {n : ℕ} {c : Char} {s t : List Char} (h : Layers n c s)
    (hround : Rewrites EncodesChar s t) : Layers (n + 1) c t := by
  induction h generalizing t with
  | keep n c =>
      cases hround.of_singleton with
      | keep => exact .keep _ c
      | escape hhigh hlow => exact .escape hhigh hlow (.keep n _) (.keep n _) (.keep n _)
  | escape hhigh hlow _ _ _ iha ihb ihd =>
      obtain ⟨a, u, rfl, hrounda, hround⟩ := hround.exists_append
      obtain ⟨b, d, rfl, hroundb, hroundd⟩ := hround.exists_append
      exact .escape hhigh hlow (iha hrounda) (ihb hroundb) (ihd hroundd)

/-- After `n` rounds every character has a form of at most `n` layers. -/
theorem Rounds.layers {n : ℕ} {s t : List Char} (h : Rounds n s t) : Rewrites (Layers n) s t := by
  induction h with
  | zero s =>
      induction s with
      | nil => exact .nil
      | cons c s ih => exact .cons (.keep 0 c) ih
  | succ _ hround ih => exact ih.trans (fun _ _ _ hx hxs => hx.round hxs) hround

/-- What a digit is for the decoder. -/
theorem IsHexDigit.spec {n : ℕ} {d : Char} (h : IsHexDigit n d) (hn : n < 16) :
    hexValue (UInt8.ofNat d.toNat) = some n ∧ d.toNat < 128 ∧ d ≠ '%' ∧ d ≠ '+' := by
  rcases h with rfl | rfl
  · interval_cases n <;> decide
  · interval_cases n <;> decide

/-- The decoder that protects no byte, from the start of a text. -/
abbrev decodeAll (bytes : List UInt8) : List UInt8 := decode (fun _ => false) 0 bytes

/-- A byte that is no percent sign is kept. -/
theorem decodeAll_cons_of_ne {b : UInt8} (hb : b ≠ 0x25) (rest : List UInt8) :
    decodeAll (b :: rest) = b :: decodeAll rest := by
  unfold decodeAll
  rw [decode, if_neg hb]

/-- A percent sign is kept before what is no escape. -/
theorem decodeAll_percent_of_none {rest : List UInt8} (h : escaped rest = none) :
    decodeAll (0x25 :: rest) = 0x25 :: decodeAll rest := by
  unfold decodeAll
  rw [decode, if_pos rfl, h]

/-- What starts with a percent sign is not the rest of an escape. -/
theorem escaped_percent (rest : List UInt8) : escaped (0x25 :: rest) = none := by
  cases rest with
  | nil => rfl
  | cons low rest => rfl

/-- An escape is replaced by its byte. -/
theorem decodeAll_escape {high low : UInt8} {i j : ℕ} (hhigh : hexValue high = some i)
    (hlow : hexValue low = some j) (rest : List UInt8) :
    decodeAll (0x25 :: high :: low :: rest) = UInt8.ofNat (16 * i + j) :: decodeAll rest := by
  have hescaped : escaped (high :: low :: rest) = some (UInt8.ofNat (16 * i + j)) := by
    show ((hexValue high).bind fun i => (hexValue low).map fun j => UInt8.ofNat (16 * i + j)) = _
    rw [hhigh, hlow]
    rfl
  unfold decodeAll
  rw [decode, if_pos rfl, hescaped]
  rfl

/-- The byte of a percent sign is none of another ASCII character. -/
theorem ofNat_toNat_ne_percent {c : Char} (hc : c.toNat < 128) (hne : c ≠ '%') :
    UInt8.ofNat c.toNat ≠ 0x25 := by
  intro h
  have htoNat := congrArg UInt8.toNat h
  rw [UInt8.toNat_ofNat', Nat.mod_eq_of_lt (by omega)] at htoNat
  exact hne (Char.toNat_inj.mp htoNat)

/-- A pass of decoding makes `t` of `s`, whatever comes after. -/
def Pass (s t : List Char) : Prop :=
  ∀ rest, decodeAll (asciiBytes s ++ rest) = asciiBytes t ++ decodeAll rest

/-- Two parts of a text. -/
theorem Pass.append {s t s' t' : List Char} (h : Pass s t) (h' : Pass s' t') :
    Pass (s ++ s') (t ++ t') := by
  intro rest
  rw [asciiBytes_append, List.append_assoc, h, h', asciiBytes_append, List.append_assoc]

/-- A text without percent signs is left as it is. -/
theorem pass_of_ne_percent {s : List Char} (hs : ∀ c ∈ s, c.toNat < 128 ∧ c ≠ '%') : Pass s s := by
  intro rest
  induction s with
  | nil => rfl
  | cons c s ih =>
      rw [List.forall_mem_cons] at hs
      show decodeAll (UInt8.ofNat c.toNat :: (asciiBytes s ++ rest)) = _
      rw [decodeAll_cons_of_ne (ofNat_toNat_ne_percent hs.1.1 hs.1.2), ih hs.2]
      rfl

/-- An escape is replaced by its character. -/
theorem pass_escape {c high low : Char} (hc : c.toNat < 128)
    (hhigh : IsHexDigit (c.toNat / 16) high) (hlow : IsHexDigit (c.toNat % 16) low) :
    Pass ['%', high, low] [c] := by
  intro rest
  have hvalue : 16 * (c.toNat / 16) + c.toNat % 16 = c.toNat := by omega
  have hdecode := decodeAll_escape (hhigh.spec (by omega)).1 (hlow.spec (by omega)).1 rest
  rw [hvalue] at hdecode
  exact hdecode

/-- What a pass makes of a string. -/
theorem decodeString_of_pass {s t : List Char} (h : Pass s t) (hs : ∀ c ∈ s, c.toNat < 128)
    (ht : ∀ c ∈ t, c.toNat < 128) :
    decodeString (fun _ => false) (String.ofList s) = String.ofList t := by
  have hdecode := h []
  rw [List.append_nil] at hdecode
  unfold decodeString
  rw [encode_ofList_of_ascii hs]
  show lossy (decodeAll (asciiBytes s)) = String.ofList t
  rw [hdecode]
  show lossy (asciiBytes t ++ []) = String.ofList t
  rw [List.append_nil, lossy_asciiBytes ht]

/-- A form that is not the character itself starts with a percent sign. -/
theorem Layers.eq_or_percent {n : ℕ} {c : Char} {s : List Char} (h : Layers n c s) :
    s = [c] ∨ 0 < n ∧ ∃ t, s = '%' :: t := by
  induction h with
  | keep n c => exact .inl rfl
  | @escape n c high low a b d hhigh hlow ha hb hd iha ihb ihd =>
      right
      refine ⟨Nat.succ_pos n, ?_⟩
      rcases iha with rfl | ⟨-, t, rfl⟩
      · exact ⟨b ++ d, rfl⟩
      · exact ⟨t ++ (b ++ d), rfl⟩

/-- A pass over a form takes one layer off, and goes on behind it as if the form had not been
there. A percent sign without a layer depends on what comes after it and is left out. -/
theorem Layers.decode {n : ℕ} {c : Char} {s : List Char} (h : Layers n c s) (hc : c.toNat < 128)
    (hpercent : c = '%' → s ≠ [c]) :
    ∃ t, Layers (n - 1) c t ∧ Pass s t := by
  induction h with
  | keep n c =>
      refine ⟨[c], .keep _ c, pass_of_ne_percent (List.forall_mem_singleton.mpr ⟨hc, ?_⟩)⟩
      exact fun heq => hpercent heq rfl
  | @escape n c high low a b d hhigh hlow ha hb hd iha ihb ihd =>
      obtain ⟨hvalueHigh, hhigh128, hhighNe, -⟩ := hhigh.spec (by omega)
      obtain ⟨-, hlow128, hlowNe, -⟩ := hlow.spec (by omega)
      obtain ⟨b', hb', hdecodeb⟩ := ihb hhigh128 fun heq => absurd heq hhighNe
      obtain ⟨d', hd', hdecoded⟩ := ihd hlow128 fun heq => absurd heq hlowNe
      -- What is left when the escape itself stays, around a percent sign in the form `a'`.
      have hkept : 0 < n → ∀ a', Layers (n - 1) '%' a' →
          (∀ rest, decodeAll (asciiBytes (a ++ (b ++ d)) ++ rest) =
            asciiBytes a' ++ decodeAll (asciiBytes (b ++ d) ++ rest)) →
          ∃ t, Layers n c t ∧ Pass (a ++ (b ++ d)) t := by
        intro hpos a' ha' hdecodea
        obtain ⟨m, rfl⟩ : ∃ m, n = m + 1 := ⟨n - 1, by omega⟩
        refine ⟨a' ++ (b' ++ d'), .escape hhigh hlow ha' hb' hd', fun rest => ?_⟩
        rw [hdecodea, asciiBytes_append, List.append_assoc, hdecodeb, hdecoded]
        simp only [asciiBytes_append, List.append_assoc]
      by_cases hleaf : a = ['%']
      · subst hleaf
        rcases hb.eq_or_percent with rfl | ⟨hpos, u, rfl⟩
        · rcases hd.eq_or_percent with rfl | ⟨hpos, u, rfl⟩
          -- The escape of a character whose digits are both there.
          · exact ⟨[c], .keep _ c, pass_escape hc hhigh hlow⟩
          -- The second digit is still an escape.
          · refine hkept hpos ['%'] (.keep _ _) fun rest => decodeAll_percent_of_none ?_
            show (hexValue _).bind _ = none
            rw [hvalueHigh]
            rfl
        -- The first digit is still an escape.
        · exact hkept hpos ['%'] (.keep _ _) fun rest =>
            decodeAll_percent_of_none (escaped_percent _)
      · have hpos : 0 < n := (ha.eq_or_percent.resolve_left hleaf).1
        obtain ⟨a', ha', hdecodea⟩ := iha (by decide) fun _ => hleaf
        refine hkept hpos a' ha' fun rest => ?_
        rw [← hdecodea, asciiBytes_append, List.append_assoc]

/-- A form of an ASCII character is ASCII. -/
theorem Layers.ascii {n : ℕ} {c : Char} {s : List Char} (h : Layers n c s) (hc : c.toNat < 128) :
    ∀ d ∈ s, d.toNat < 128 := by
  induction h with
  | keep n c => exact List.forall_mem_singleton.mpr hc
  | escape hhigh hlow _ _ _ iha ihb ihd =>
      intro x hx
      rcases List.mem_append.mp hx with hx | hx
      · exact iha (by decide) x hx
      · rcases List.mem_append.mp hx with hx | hx
        · exact ihb (hhigh.spec (by omega)).2.1 x hx
        · exact ihd (hlow.spec (by omega)).2.1 x hx

/-- A pass over a text takes one layer off all of its characters. -/
theorem pass_layers {n : ℕ} {s t : List Char} (h : Rewrites (Layers n) s t)
    (hs : ∀ c ∈ s, c.toNat < 128 ∧ c ≠ '%') :
    ∃ u, Rewrites (Layers (n - 1)) s u ∧ Pass t u := by
  induction h with
  | nil => exact ⟨[], .nil, fun _ => rfl⟩
  | @cons c s x t hx _ ih =>
      rw [List.forall_mem_cons] at hs
      obtain ⟨y, hy, hpass⟩ := hx.decode hs.1.1 fun heq => absurd heq hs.1.2
      obtain ⟨u, hu, hrest⟩ := ih hs.2
      exact ⟨y ++ u, .cons hy hu, hpass.append hrest⟩

/-- A pass over a string takes one layer off all of its characters. -/
theorem decodeString_layers {n : ℕ} {s t : List Char} (h : Rewrites (Layers n) s t)
    (hs : ∀ c ∈ s, c.toNat < 128 ∧ c ≠ '%') :
    ∃ u, Rewrites (Layers (n - 1)) s u ∧
      decodeString (fun _ => false) (String.ofList t) = String.ofList u := by
  have hascii : ∀ {m : ℕ} {v : List Char}, Rewrites (Layers m) s v → ∀ c ∈ v, c.toNat < 128 :=
    fun hv => hv.forall_mem (fun _ _ hx hc => hx.ascii hc) fun c hc => (hs c hc).1
  obtain ⟨u, hu, hpass⟩ := pass_layers h hs
  exact ⟨u, hu, decodeString_of_pass hpass (hascii h) (hascii hu)⟩

/-- At least as many passes as there were rounds restore an ASCII text without percent signs. -/
theorem iterate_decodeString {n k : ℕ} {s t : List Char} (h : Rounds n s t) (hk : n ≤ k)
    (hs : ∀ c ∈ s, c.toNat < 128 ∧ c ≠ '%') :
    (decodeString fun _ => false)^[k] (String.ofList t) = String.ofList s := by
  have hlayers : ∀ (m k : ℕ) (u : List Char), Rewrites (Layers m) s u → m ≤ k →
      (decodeString fun _ => false)^[k] (String.ofList u) = String.ofList s := by
    intro m k
    induction k generalizing m with
    | zero =>
        intro u hu hm
        obtain rfl := Nat.le_zero.mp hm
        have hplain : ∀ c x, Layers 0 c x → x = [c] := by
          intro c x hx
          exact hx.eq_or_percent.resolve_right fun hpos => absurd hpos.1 (Nat.lt_irrefl 0)
        exact congrArg String.ofList (hu.eq_of_singleton hplain)
    | succ k ih =>
        intro u hu hm
        obtain ⟨v, hv, hdecode⟩ := decodeString_layers hu hs
        rw [Function.iterate_succ_apply, hdecode]
        exact ih (m - 1) v hv (by omega)
  exact hlayers n k t h.layers hk

end Percent

import Mathlib.Data.List.Induction
import Mathlib.Data.Nat.Bitwise
import Mathlib.Tactic.Cases

/-!
# Streams of bits in groups

The bits of a number, the most significant one first, and streams of bits cut into groups of one
width. A buffer that takes in a group is the old bits followed by the new ones, and a stream
determines its groups and what is left over.
-/

universe u

namespace BitGroups

/-- The low `w` bits of a number, the most significant one first. -/
def bits : ℕ → ℕ → List Bool
  | 0, _ => []
  | w + 1, n => n.testBit w :: bits w n

@[simp]
theorem length_bits (w n : ℕ) : (bits w n).length = w := by
  induction w with
  | zero => rfl
  | succ w ih => rw [bits, List.length_cons, ih]

/-- Numbers with the same low bits. -/
theorem bits_congr {w m n : ℕ} (h : ∀ i < w, m.testBit i = n.testBit i) : bits w m = bits w n := by
  induction w with
  | zero => rfl
  | succ w ih =>
      rw [bits, bits, h w (by omega), ih fun i hi => h i (by omega)]

/-- Equal bits are equal bits at every place. -/
theorem testBit_of_bits_eq {w m n : ℕ} (h : bits w m = bits w n) {i : ℕ} (hi : i < w) :
    m.testBit i = n.testBit i := by
  induction w with
  | zero => omega
  | succ w ih =>
      obtain ⟨htop, hrest⟩ := List.cons.inj h
      rcases Nat.lt_succ_iff_lt_or_eq.mp hi with hlt | rfl
      · exact ih hrest hlt
      · exact htop

/-- The bits of a small number determine it. -/
theorem bits_inj {w m n : ℕ} (hm : m < 2 ^ w) (hn : n < 2 ^ w) (h : bits w m = bits w n) :
    m = n := by
  apply Nat.eq_of_testBit_eq
  intro i
  by_cases hi : i < w
  · exact testBit_of_bits_eq h hi
  · have hle : 2 ^ w ≤ 2 ^ i := Nat.pow_le_pow_right (by omega) (by omega)
    rw [Nat.testBit_lt_two_pow (by omega), Nat.testBit_lt_two_pow (by omega)]

/-- The upper part of some bits and the lower part. -/
theorem bits_add (a b n : ℕ) : bits (a + b) n = bits a (n >>> b) ++ bits b n := by
  induction a with
  | zero => rw [Nat.zero_add, bits, List.nil_append]
  | succ a ih =>
      rw [Nat.add_right_comm, bits, ih, bits, Nat.testBit_shiftRight, Nat.add_comm b a,
        List.cons_append]

/-- A word keeps the bits that fit. -/
theorem bits_mod {w m : ℕ} (h : w ≤ m) (n : ℕ) : bits w (n % 2 ^ m) = bits w n := by
  apply bits_congr
  intro i hi
  rw [Nat.testBit_mod_two_pow, decide_eq_true (by omega : i < m), Bool.true_and]

/-- Bits masked to their own width. -/
theorem bits_and_mask (w n : ℕ) : bits w (n &&& (2 ^ w - 1)) = bits w n := by
  rw [Nat.and_two_pow_sub_one_eq_mod, bits_mod le_rfl]

/-- The bits of a number with a group behind it. -/
theorem bits_shiftLeft_or (a : ℕ) {b d : ℕ} (hd : d < 2 ^ b) (n : ℕ) :
    bits (a + b) (n <<< b ||| d) = bits a n ++ bits b d := by
  rw [bits_add]
  refine congrArg₂ _ (bits_congr fun i hi => ?_) (bits_congr fun i hi => ?_)
  · -- Above the new group stands the number.
    have hle : 2 ^ b ≤ 2 ^ (b + i) := Nat.pow_le_pow_right (by omega) (by omega)
    rw [Nat.testBit_shiftRight, Nat.testBit_or, Nat.testBit_shiftLeft,
      Nat.testBit_lt_two_pow (by omega : d < 2 ^ (b + i)),
      decide_eq_true (by omega : b + i ≥ b), Bool.true_and, Bool.or_false,
      Nat.add_sub_cancel_left]
  · rw [Nat.testBit_or, Nat.testBit_shiftLeft, decide_eq_false (by omega : ¬ i ≥ b),
      Bool.false_and, Bool.false_or]

/-- A buffer of `m` bits that takes in a group, if all the bits fit. -/
theorem bits_push {a b m d : ℕ} (hfit : a + b ≤ m) (hd : d < 2 ^ b) (n : ℕ) :
    bits (a + b) ((n <<< b) % 2 ^ m ||| d) = bits a n ++ bits b d := by
  have hle : 2 ^ b ≤ 2 ^ m := Nat.pow_le_pow_right (by omega) (by omega)
  have hword : (n <<< b) % 2 ^ m ||| d = (n <<< b ||| d) % 2 ^ m := by
    rw [Nat.or_mod_two_pow, Nat.mod_eq_of_lt (by omega : d < 2 ^ m)]
  rw [hword, bits_mod hfit, bits_shiftLeft_or a hd]

/-- Bits shifted to the left are followed by zeros. -/
theorem bits_shiftLeft (a b n : ℕ) :
    bits (a + b) (n <<< b) = bits a n ++ List.replicate b false := by
  have hzero : ∀ w, bits w 0 = List.replicate w false := by
    intro w
    induction w with
    | zero => rfl
    | succ w ih => rw [bits, ih, Nat.zero_testBit, List.replicate_succ]
  have hpush := bits_shiftLeft_or a (Nat.two_pow_pos b) n
  rwa [Nat.or_zero, hzero b] at hpush

/-- The number with these bits. -/
def value (l : List Bool) : ℕ := l.foldl (fun n b => 2 * n + b.toNat) 0

/-- The number of a longer stream. -/
theorem value_append (l : List Bool) (b : Bool) : value (l ++ [b]) = 2 * value l + b.toNat := by
  rw [value, List.foldl_append]
  rfl

/-- The number of the low bits. -/
theorem value_bits (w n : ℕ) : value (bits w n) = n % 2 ^ w := by
  induction w generalizing n with
  | zero => rw [Nat.pow_zero, Nat.mod_one]; rfl
  | succ w ih =>
      -- The last bit is the lowest one.
      have hlast : bits 1 n = [n.testBit 0] := rfl
      rw [bits_add w 1, hlast, value_append, ih, Nat.shiftRight_eq_div_pow, Nat.pow_one,
        Nat.toNat_testBit, Nat.pow_zero, Nat.div_one, Nat.pow_succ', Nat.mod_mul]
      exact Nat.add_comm _ _

/-- The bits of the number of a stream are the stream. -/
theorem bits_value (l : List Bool) : bits l.length (value l) = l := by
  induction l using List.reverseRecOn with
  | nil => rfl
  | append_singleton l b ih =>
      have hb : b.toNat < 2 ^ 1 := by cases b <;> decide
      have hbit : bits 1 b.toNat = [b] := by cases b <;> rfl
      have hor : 2 * value l + b.toNat = value l <<< 1 ||| b.toNat := by
        rw [← Nat.shiftLeft_add_eq_or_of_lt hb, Nat.shiftLeft_eq, Nat.pow_one, Nat.mul_comm]
      rw [List.length_append, List.length_singleton, value_append, hor, bits_shiftLeft_or _ hb, ih,
        hbit]

/-- A number cut into groups. -/
theorem flatMap_range_bits (w k n : ℕ) :
    (List.range k).flatMap (fun i => bits w (n >>> (w * (k - 1 - i)))) = bits (w * k) n := by
  induction k with
  | zero => rfl
  | succ k ih =>
      rw [List.range_succ_eq_map, List.flatMap_cons, List.flatMap_map, Nat.mul_succ,
        Nat.add_comm (w * k), bits_add, ← ih]
      refine congrArg₂ _ rfl ?_
      refine congrArg (fun g => List.flatMap g (List.range k)) (funext fun i => ?_)
      rw [Nat.succ_eq_add_one, show k + 1 - 1 - (i + 1) = k - 1 - i by omega]

variable {α : Type u} {f : α → List Bool} {w : ℕ}

/-- The bits of a stream. -/
theorem length_flatMap (hf : ∀ a, (f a).length = w) (l : List α) :
    (l.flatMap f).length = w * l.length := by
  induction l with
  | nil => rfl
  | cons a l ih =>
      rw [List.flatMap_cons, List.length_append, hf, ih, List.length_cons, Nat.mul_succ,
        Nat.add_comm]

/-- A stream determines its groups and the bits left over, which are fewer than a group has. -/
theorem flatMap_inj (hf : ∀ a, (f a).length = w) (hinj : Function.Injective f) {l l' : List α}
    {r r' : List Bool} (hr : r.length < w) (hr' : r'.length < w)
    (h : l.flatMap f ++ r = l'.flatMap f ++ r') : l = l' ∧ r = r' := by
  -- A whole group is longer than what can be left over.
  have hshort : ∀ {a : α} {l : List α} {r r' : List Bool}, r.length < w →
      r ≠ (a :: l).flatMap f ++ r' := by
    rintro a l r r' hr rfl
    rw [List.length_append, length_flatMap hf, List.length_cons, Nat.mul_succ] at hr
    omega
  induction l generalizing l' with
  | nil =>
      cases l' with
      | nil => exact ⟨rfl, h⟩
      | cons a' l' => exact absurd h (hshort hr)
  | cons a l ih =>
      cases l' with
      | nil => exact absurd h.symm (hshort hr')
      | cons a' l' =>
          rw [List.flatMap_cons, List.flatMap_cons, List.append_assoc, List.append_assoc] at h
          obtain ⟨hhead, htail⟩ := List.append_inj h ((hf a).trans (hf a').symm)
          obtain ⟨rfl, rfl⟩ := ih htail
          exact ⟨congrArg (· :: l) (hinj hhead), rfl⟩

end BitGroups

import Mathlib.Data.String.Basic
import XiraNet.Http
import XiraNet.Lib.SortedMap
import XiraNet.Lib.Text

/-!
# JSON pointers

`Value::pointer_mut` of `serde_json`, as far as a text is read or replaced through it. A token of a
pointer names a field of an object or, in decimal digits, an item of an array.

* `Json.changeText_comm`: changes at different pointers do not depend on their order.
* `Json.pointer_changeText_of_ne`: a text stays through a change at another pointer.
-/

namespace XiraNet

namespace Json

/-- The index that a token stands for; it has no sign and no leading zero. -/
def parseIndex (token : String) : Option ℕ :=
  if Text.startsWith token "+" || (Text.startsWith token "0" && token.length ≠ 1) then none
  else Text.parseUnsigned (2 ^ 64 - 1) token.toList

/-- `pointer`, for the tokens of a pointer. -/
def pointer : List String → Json → Option Json
  | [], v => some v
  | token :: tokens, .object fields => (fields.lookup token).bind (pointer tokens)
  | token :: tokens, .array items =>
      (parseIndex token).bind fun i => items[i]?.bind (pointer tokens)
  | _ :: _, _ => none

/-- What a pointer points to, replaced if it is a text. -/
def changeText (f : String → String) : List String → Json → Json
  | [], .string s => .string (f s)
  | [], v => v
  | token :: tokens, .object fields =>
      .object (SortedMap.modify fields token (changeText f tokens))
  | token :: tokens, .array items =>
      match parseIndex token with
      | some i => .array (items.modify i (changeText f tokens))
      | none => .array items
  | _ :: _, v => v

/-- The digits of a number without a leading zero are those that it is written with. -/
theorem toDigits_foldl {s : List Char} (hdigits : ∀ c ∈ s, c.isDigit = true)
    (hzero : s.head? ≠ some '0' ∨ s.length = 1) (hne : s ≠ []) :
    Nat.toDigits 10 (s.foldl (fun n c => 10 * n + (c.toNat - '0'.toNat)) 0) = s := by
  induction s using List.reverseRecOn with
  | nil => exact absurd rfl hne
  | append_singleton t c ih =>
      have hc := hdigits c (List.mem_append_right _ (List.mem_singleton_self c))
      have hdigit := Text.toNat_of_isDigit hc
      have hlt : c.toNat - 48 < 10 := by omega
      have hlast : Nat.toDigits 10 (c.toNat - 48) = [c] := by
        have hchar : ∀ d < 10, Nat.digitChar d = Char.ofNat (48 + d) := by decide
        rw [Nat.toDigits_of_lt_base hlt, hchar _ hlt, Nat.add_sub_cancel' hdigit.1,
          Char.ofNat_toNat]
      rw [List.foldl_append, List.foldl_cons, List.foldl_nil, show '0'.toNat = 48 from rfl]
      cases t with
      | nil =>
          rw [List.foldl_nil, Nat.mul_zero, Nat.zero_add]
          exact hlast
      | cons d t =>
          have hhead : (d :: t).head? ≠ some '0' := by
            rcases hzero with h | h
            · simpa using h
            · simp at h
          have hrest := ih (fun c hc => hdigits c (List.mem_append_left _ hc)) (.inl hhead)
            (List.cons_ne_nil d t)
          rw [show '0'.toNat = 48 from rfl] at hrest
          generalize (d :: t).foldl (fun n c => 10 * n + (c.toNat - 48)) 0 = m at hrest ⊢
          have hpos : 0 < m := by
            refine Nat.pos_of_ne_zero fun hm => hhead ?_
            rw [← hrest, hm]
            rfl
          rw [← Nat.toDigits_append_toDigits (by decide) hpos hlt, hrest, hlast]

/-- A number without a sign is read from its digits. -/
theorem eq_of_parseUnsigned {max n : ℕ} {s : List Char} (hsign : ¬ ['+'] <+: s)
    (h : Text.parseUnsigned max s = some n) :
    s ≠ [] ∧ (∀ c ∈ s, c.isDigit = true) ∧
      s.foldl (fun n c => 10 * n + (c.toNat - '0'.toNat)) 0 = n := by
  unfold Text.parseUnsigned at h
  split at h
  next rest => exact absurd (List.prefix_append ['+'] rest) hsign
  next =>
    dsimp only at h
    split_ifs at h with hform hle
    rw [not_or, Bool.not_eq_true', Bool.not_eq_false, List.all_eq_true] at hform
    exact ⟨hform.1, hform.2, Option.some.inj h⟩

/-- A token of an index is the index as it is written. -/
theorem toList_of_parseIndex {token : String} {i : ℕ} (h : parseIndex token = some i) :
    token.toList = Nat.toDigits 10 i := by
  unfold parseIndex at h
  split at h
  next => cases h
  next hform =>
    simp only [Bool.or_eq_true, Bool.and_eq_true, decide_eq_true_eq, not_or, not_and, not_not,
      Text.startsWith_iff] at hform
    obtain ⟨hsign, hzero⟩ := hform
    obtain ⟨hne, hdigits, hvalue⟩ := eq_of_parseUnsigned hsign h
    have hfirst : token.toList.head? ≠ some '0' ∨ token.toList.length = 1 := by
      by_cases hhead : token.toList.head? = some '0'
      · refine .inr (hzero ?_)
        obtain ⟨rest, hrest⟩ := List.head?_eq_some_iff.mp hhead
        exact ⟨rest, hrest.symm⟩
      · exact .inl hhead
    rw [← hvalue]
    exact (toDigits_foldl hdigits hfirst hne).symm

/-- Different tokens are different indices. -/
theorem parseIndex_inj {token token' : String} {i : ℕ} (h : parseIndex token = some i)
    (h' : parseIndex token' = some i) : token = token' :=
  String.toList_injective ((toList_of_parseIndex h).trans (toList_of_parseIndex h').symm)

variable {f g : String → String} {tokens tokens' : List String} {v : Json} {s : String}

/-- A text that has been changed. -/
theorem pointer_changeText_self (h : v.pointer tokens = some (.string s)) :
    (v.changeText f tokens).pointer tokens = some (.string (f s)) := by
  induction tokens generalizing v with
  | nil =>
      cases h
      rfl
  | cons token tokens ih =>
      cases v with
      | object fields =>
          obtain ⟨w, hw, hrest⟩ := Option.bind_eq_some_iff.mp h
          rw [changeText, pointer, SortedMap.lookup_modify, if_pos rfl, hw]
          exact ih hrest
      | array items =>
          obtain ⟨i, hi, hitem⟩ := Option.bind_eq_some_iff.mp h
          obtain ⟨w, hw, hrest⟩ := Option.bind_eq_some_iff.mp hitem
          rw [changeText, hi]
          dsimp only
          rw [pointer, hi, Option.bind_some, List.getElem?_modify_eq, hw]
          exact ih hrest
      | null => cases h
      | bool _ => cases h
      | number _ => cases h
      | string _ => cases h

/-- Two changes at the same pointer. -/
theorem changeText_changeText_self :
    (v.changeText g tokens).changeText f tokens = v.changeText (fun s => f (g s)) tokens := by
  induction tokens generalizing v with
  | nil => cases v <;> rfl
  | cons token tokens ih =>
      cases v with
      | object fields =>
          rw [changeText, changeText, changeText, SortedMap.modify_modify_self]
          simp only [ih]
      | array items =>
          cases hi : parseIndex token with
          | none => simp only [changeText, hi]
          | some i =>
              simp only [changeText, hi, List.modify_modify_eq]
              refine congrArg (fun f => array (items.modify i f)) ?_
              ext w
              exact ih
      | null => rfl
      | bool _ => rfl
      | number _ => rfl
      | string _ => rfl

/-- A change of an item depends on the item. -/
theorem modify_congr {items : List Json} {i : ℕ} {w : Json} {F G : Json → Json}
    (hw : items[i]? = some w) (h : F w = G w) : items.modify i F = items.modify i G := by
  apply List.ext_getElem?
  intro j
  rw [List.getElem?_modify, List.getElem?_modify]
  by_cases hj : i = j
  · subst hj
    rw [hw]
    simp [h]
  · simp [hj]

/-- A change depends on the text that it finds. -/
theorem changeText_congr (h : v.pointer tokens = some (.string s)) (hfg : f s = g s) :
    v.changeText f tokens = v.changeText g tokens := by
  induction tokens generalizing v with
  | nil =>
      cases h
      exact congrArg string hfg
  | cons token tokens ih =>
      cases v with
      | object fields =>
          obtain ⟨w, hw, hrest⟩ := Option.bind_eq_some_iff.mp h
          rw [changeText, changeText, SortedMap.modify_congr hw (ih hrest)]
      | array items =>
          obtain ⟨i, hi, hitem⟩ := Option.bind_eq_some_iff.mp h
          obtain ⟨w, hw, hrest⟩ := Option.bind_eq_some_iff.mp hitem
          simp only [changeText, hi]
          rw [modify_congr hw (ih hrest)]
      | null => rfl
      | bool _ => rfl
      | number _ => rfl
      | string _ => rfl

/-- What an empty pointer points to is no text, or nothing is behind it. -/
theorem changeText_nil_comm {token : String} :
    (v.changeText g (token :: tokens)).changeText f [] =
      (v.changeText f []).changeText g (token :: tokens) := by
  cases v with
  | object fields => rfl
  | array items =>
      simp only [changeText]
      split <;> rfl
  | null => rfl
  | bool _ => rfl
  | number _ => rfl
  | string _ => rfl

/-- Changes at different pointers do not depend on their order. -/
theorem changeText_comm (hne : tokens ≠ tokens') :
    (v.changeText g tokens').changeText f tokens =
      (v.changeText f tokens).changeText g tokens' := by
  induction tokens generalizing v tokens' with
  | nil =>
      cases tokens' with
      | nil => exact absurd rfl hne
      | cons token' tokens' => exact changeText_nil_comm
  | cons token tokens ih =>
      cases tokens' with
      | nil => exact changeText_nil_comm.symm
      | cons token' tokens' =>
          have hrest : token = token' → tokens ≠ tokens' := by
            rintro rfl rfl
            exact hne rfl
          cases v with
          | object fields =>
              simp only [changeText]
              by_cases htoken : token = token'
              · subst htoken
                rw [SortedMap.modify_modify_self, SortedMap.modify_modify_self]
                simp only [ih (hrest rfl)]
              · rw [SortedMap.modify_comm fields htoken]
          | array items =>
              cases hi : parseIndex token with
              | none =>
                  simp only [changeText, hi]
                  split <;> simp only [changeText, hi]
              | some i =>
                  cases hj : parseIndex token' with
                  | none => simp only [changeText, hi, hj]
                  | some j =>
                      simp only [changeText, hi, hj]
                      by_cases hij : i = j
                      · subst hij
                        rw [List.modify_modify_eq, List.modify_modify_eq]
                        refine congrArg (fun F => array (items.modify i F)) ?_
                        ext w
                        exact ih (hrest (parseIndex_inj hi hj))
                      · rw [List.modify_modify_ne _ _ _ hij]
          | null => rfl
          | bool _ => rfl
          | number _ => rfl
          | string _ => rfl

/-- A text stays through a change at another pointer. -/
theorem pointer_changeText_of_ne (hne : tokens ≠ tokens')
    (h : v.pointer tokens = some (.string s)) :
    (v.changeText f tokens').pointer tokens = some (.string s) := by
  induction tokens generalizing v tokens' with
  | nil =>
      cases h
      cases tokens' with
      | nil => exact absurd rfl hne
      | cons token' tokens' => rfl
  | cons token tokens ih =>
      cases tokens' with
      | nil =>
          -- There is no text above a text.
          cases v with
          | string _ => cases h
          | object _ => exact h
          | array _ => exact h
          | null => cases h
          | bool _ => cases h
          | number _ => cases h
      | cons token' tokens' =>
          have hrest : token = token' → tokens ≠ tokens' := by
            rintro rfl rfl
            exact hne rfl
          cases v with
          | object fields =>
              obtain ⟨w, hw, hbelow⟩ := Option.bind_eq_some_iff.mp h
              rw [changeText, pointer, SortedMap.lookup_modify]
              split
              next htoken =>
                rw [hw]
                exact ih (hrest htoken) hbelow
              next => exact h
          | array items =>
              cases hj : parseIndex token' with
              | none =>
                  simp only [changeText, hj]
                  exact h
              | some j =>
                  obtain ⟨i, hi, hitem⟩ := Option.bind_eq_some_iff.mp h
                  obtain ⟨w, hw, hbelow⟩ := Option.bind_eq_some_iff.mp hitem
                  simp only [changeText, hj]
                  rw [pointer, hi, Option.bind_some, List.getElem?_modify, hw]
                  by_cases hji : j = i
                  · subst hji
                    simpa using ih (hrest (parseIndex_inj hi hj)) hbelow
                  · simpa [hji] using hbelow
          | null => cases h
          | bool _ => cases h
          | number _ => cases h
          | string _ => cases h

end Json

end XiraNet

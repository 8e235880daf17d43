import XiraNet.Datapipeline.JsonPointer

/-!
# Masking

`TransformEngine::apply` of `datapipeline/transforms.rs`: rules mask, remove, add, rename and
rewrite fields of a JSON body, one after the other. A text that is masked later may be moved by the
rules before, and may be masked more than once.

* `TransformEngine.concealed_iff`: when the result tells nothing of a text but its length and its
  last characters.
-/

namespace XiraNet

/-- How a text is rewritten. -/
inductive ValueTransform
  | uppercase
  | lowercase
  | trim
  | hash
  deriving DecidableEq, Repr

/-- What a rule does. -/
inductive TransformAction
  | maskField (field : String) (visibleChars : ℕ)
  | removeField (field : String)
  | addField (field value : String)
  | renameField (old new : String)
  | transformValue (field : String) (transform : ValueTransform)
  deriving DecidableEq, Repr

/-- A rule. -/
structure TransformRule where
  name : String
  pathMatch : String
  action : TransformAction
  deriving DecidableEq, Repr

/-- The upper and the lower case of all of Unicode, and the digest in hexadecimal digits. -/
structure TransformLib where
  toUppercase : String → String
  toLowercase : String → String
  sha256Hex : String → String

/-- `path_matches`. -/
def pathMatches (path pattern : String) : Bool :=
  pattern = "" || path = pattern ||
    (Text.stripPrefix path pattern).any fun rest => Text.startsWith rest "/"

namespace TransformEngine

/-- The tokens of the pointer that a field path becomes. -/
def fieldTokens (field : String) : List String :=
  (Text.split (Text.replace field "." "/") '/').map fun token =>
    Text.replace (Text.replace token "~1" "/") "~0" "~"

/-- The masked form of a text. -/
def mask (visibleChars : ℕ) (s : String) : String :=
  let chars := s.toList
  let total := chars.length
  let visible := min visibleChars total
  if visible < total then
    String.ofList (List.replicate (total - visible) '*' ++ chars.drop (total - visible))
  -- A text that would be shown in full is hidden in full.
  else String.ofList (List.replicate total '*')

/-- The new form of a text. -/
def rewrite (lib : TransformLib) : ValueTransform → String → String
  | .uppercase => lib.toUppercase
  | .lowercase => lib.toLowercase
  | .trim => Text.trim
  | .hash => lib.sha256Hex

variable (lib : TransformLib)

/-- What a rule does to the body. -/
def applyAction (body : Json) : TransformAction → Json
  | .maskField field visibleChars => body.changeText (mask visibleChars) (fieldTokens field)
  | .removeField field =>
      match body with
      | .object fields => .object (SortedMap.erase fields field)
      | body => body
  | .addField field value =>
      match body with
      | .object fields => .object (SortedMap.insert fields field (.string value))
      | body => body
  | .renameField old new =>
      match body with
      | .object fields =>
          match fields.lookup old with
          | some v => .object (SortedMap.insert (SortedMap.erase fields old) new v)
          | none => .object fields
      | body => body
  | .transformValue field transform => body.changeText (rewrite lib transform) (fieldTokens field)

/-- The actions of the rules for a path. -/
def actionsFor (rules : List TransformRule) (path : String) : List TransformAction :=
  (rules.filter fun rule => pathMatches path rule.pathMatch).map TransformRule.action

/-- `apply`. -/
def apply (rules : List TransformRule) (path : String) (body : Json) : Json :=
  rules.foldl (fun body rule =>
    if pathMatches path rule.pathMatch then applyAction lib body rule.action else body) body

/-- The fields of a body are sorted, as `serde_json` keeps them. -/
def FieldsSorted : Json → Prop
  | .object fields => SortedMap.Sorted fields
  | _ => True

/-- Two texts are equally long and end with the same characters. -/
structure SameEnd (shown : ℕ) (s t : String) : Prop where
  length : s.toList.length = t.toList.length
  last : s.toList.drop (s.toList.length - shown) = t.toList.drop (t.toList.length - shown)

/-- What an action does to a text of which only the last characters may be shown. -/
inductive Fate
  /-- Nothing else is left of it. -/
  | concealed
  /-- More of it is left, at a pointer. -/
  | left (location : List String)
  /-- It is rewritten. -/
  | rewritten
  deriving DecidableEq, Repr

/-- A field of an object is gone. -/
def fateOfField (body : Json) (location : List String) (field : String) : Fate :=
  match body, location with
  | .object _, token :: tokens => if field = token then .concealed else .left (token :: tokens)
  | _, location => .left location

/-- The fate of a text of some length in a body. -/
def fate (shown length : ℕ) (body : Json) (location : List String) : TransformAction → Fate
  | .maskField field visibleChars =>
      if fieldTokens field = location ∧ (visibleChars ≤ shown ∨ length ≤ visibleChars) then
        .concealed
      else .left location
  | .removeField field => fateOfField body location field
  | .addField field _ => fateOfField body location field
  | .renameField old new =>
      match body, location with
      | .object fields, token :: tokens =>
          if fields.lookup old = none then .left (token :: tokens)
          else if old = token then .left (new :: tokens)
          else fateOfField body location new
      | _, location => .left location
  | .transformValue field _ => if fieldTokens field = location then .rewritten else .left location

/-- One of the actions conceals the text. -/
def conceals (shown length : ℕ) : List TransformAction → Json → List String → Bool
  | [], _, _ => false
  | action :: actions, body, location =>
      match fate shown length body location action with
      | .concealed => true
      | .left location' => conceals shown length actions (applyAction lib body action) location'
      | .rewritten => false

/-- No action rewrites the text while it can be told. -/
def unrewritten (shown length : ℕ) : List TransformAction → Json → List String → Bool
  | [], _, _ => true
  | action :: actions, body, location =>
      match fate shown length body location action with
      | .concealed => true
      | .left location' => unrewritten shown length actions (applyAction lib body action) location'
      | .rewritten => false

variable {lib} {shown visibleChars : ℕ} {s t u : String}

/-- The texts may be taken the other way round. -/
theorem SameEnd.symm (h : SameEnd shown s t) : SameEnd shown t s := ⟨h.length.symm, h.last.symm⟩

/-- The same end passes on. -/
theorem SameEnd.trans (h : SameEnd shown s t) (h' : SameEnd shown t u) : SameEnd shown s u :=
  ⟨h.length.trans h'.length, h.last.trans h'.last⟩

/-- A text has the same end as itself. -/
theorem SameEnd.refl (shown : ℕ) (s : String) : SameEnd shown s s := ⟨rfl, rfl⟩

/-- A shorter end is the same, too. -/
theorem SameEnd.mono {less : ℕ} (h : SameEnd shown s t) (hle : less ≤ shown) :
    SameEnd less s t := by
  refine ⟨h.length, ?_⟩
  have hdrop : ∀ u : String, u.toList.drop (u.toList.length - less) =
      (u.toList.drop (u.toList.length - shown)).drop
        (u.toList.length - less - (u.toList.length - shown)) := by
    intro u
    rw [List.drop_drop]
    congr 1
    omega
  rw [hdrop s, hdrop t, h.last, h.length]

/-- The masked form of a text that is longer than what is shown of it. -/
theorem toList_mask_of_lt (h : visibleChars < s.toList.length) :
    (mask visibleChars s).toList =
      List.replicate (s.toList.length - visibleChars) '*' ++
        s.toList.drop (s.toList.length - visibleChars) := by
  unfold mask
  dsimp only
  rw [Nat.min_eq_left h.le, if_pos h, String.toList_ofList]

/-- The masked form of a text that is no longer than what may be shown. -/
theorem mask_of_le (h : s.toList.length ≤ visibleChars) :
    mask visibleChars s = String.ofList (List.replicate s.toList.length '*') := by
  unfold mask
  dsimp only
  rw [Nat.min_eq_right h, if_neg (lt_irrefl _)]

/-- A mask that shows no more than the same end conceals the difference. -/
theorem mask_eq_mask (h : SameEnd shown s t)
    (hshown : visibleChars ≤ shown ∨ s.toList.length ≤ visibleChars) :
    mask visibleChars s = mask visibleChars t := by
  by_cases hlong : visibleChars < s.toList.length
  · have hend := h.mono (hshown.resolve_right (not_le.mpr hlong))
    apply String.toList_injective
    rw [toList_mask_of_lt hlong, toList_mask_of_lt (h.length ▸ hlong), hend.last, h.length]
  · rw [mask_of_le (not_lt.mp hlong), mask_of_le (h.length ▸ not_lt.mp hlong), h.length]

/-- What a mask shows is the end of the text. -/
theorem sameEnd_mask (hshown : shown ≤ visibleChars) (hlong : visibleChars < s.toList.length) :
    SameEnd shown s (mask visibleChars s) := by
  have hmask := toList_mask_of_lt hlong
  have hlength : (mask visibleChars s).toList.length = s.toList.length := by
    rw [hmask, List.length_append, List.length_replicate, List.length_drop]
    omega
  -- The stars lie before the end.
  have hstars : (List.replicate (s.toList.length - visibleChars) '*').drop
      (s.toList.length - shown) = [] := by
    apply List.drop_eq_nil_of_le
    rw [List.length_replicate]
    omega
  refine ⟨hlength.symm, ?_⟩
  rw [hlength, hmask, List.drop_append, hstars, List.nil_append, List.length_replicate,
    List.drop_drop]
  congr 1
  omega

variable {body : Json} {location location' : List String} {action : TransformAction}
  {actions : List TransformAction}

/-- The body with another text at a pointer. -/
def withText (body : Json) (location : List String) (t : String) : Json :=
  body.changeText (fun _ => t) location

/-- What a fate says of two texts at a pointer of bodies that are the same otherwise. -/
inductive Meets (lib : TransformLib) (shown : ℕ) (s t : String) (body : Json)
    (location : List String) (action : TransformAction) : Fate → Prop
  | concealed
      (h : applyAction lib (withText body location t) action = applyAction lib body action) :
      Meets lib shown s t body location action .concealed
  | left {location' : List String} {s' t' : String}
      (htext : (applyAction lib body action).pointer location' = some (.string s'))
      (hother : applyAction lib (withText body location t) action =
        withText (applyAction lib body action) location' t')
      (hs : SameEnd (shown + 1) s s') (ht : SameEnd (shown + 1) t t') :
      Meets lib shown s t body location action (.left location')
  | rewritten : Meets lib shown s t body location action .rewritten

/-- An action that leaves both texts as they are, at a pointer. -/
theorem meets_left (htext : (applyAction lib body action).pointer location' = some (.string s))
    (hother : applyAction lib (withText body location t) action =
      withText (applyAction lib body action) location' t) :
    Meets lib shown s t body location action (.left location') :=
  .left htext hother (.refl _ s) (.refl _ t)

/-- A field that is masked. -/
theorem maskField_eq (body : Json) (field : String) (visibleChars : ℕ) :
    applyAction lib body (.maskField field visibleChars) =
      body.changeText (mask visibleChars) (fieldTokens field) := by
  rw [applyAction]

/-- A field that is rewritten. -/
theorem transformValue_eq (body : Json) (field : String) (transform : ValueTransform) :
    applyAction lib body (.transformValue field transform) =
      body.changeText (rewrite lib transform) (fieldTokens field) := by
  rw [applyAction]

/-- A mask. -/
theorem meets_maskField (htext : body.pointer location = some (.string s))
    (hend : SameEnd shown s t) (field : String) (visibleChars : ℕ) :
    Meets lib shown s t body location (.maskField field visibleChars)
      (fate shown s.toList.length body location (.maskField field visibleChars)) := by
  rw [fate]
  split
  next h =>
    obtain ⟨rfl, hshown⟩ := h
    apply Meets.concealed
    rw [maskField_eq, maskField_eq, withText, Json.changeText_changeText_self]
    exact Json.changeText_congr htext (mask_eq_mask hend hshown).symm
  next h =>
    by_cases htokens : fieldTokens field = location
    · subst htokens
      simp only [true_and, not_or, not_le] at h
      -- Both texts are masked, and at least one character more can be told.
      refine Meets.left ?_ ?_ (sameEnd_mask h.1 h.2) (sameEnd_mask h.1 (hend.length ▸ h.2))
      · rw [maskField_eq]
        exact Json.pointer_changeText_self htext
      · rw [maskField_eq, maskField_eq, withText, withText, Json.changeText_changeText_self,
          Json.changeText_changeText_self]
    · apply meets_left
      · rw [maskField_eq]
        exact Json.pointer_changeText_of_ne (Ne.symm htokens) htext
      · rw [maskField_eq, maskField_eq, withText, withText, Json.changeText_comm htokens]

/-- A rewritten field. -/
theorem meets_transformValue (htext : body.pointer location = some (.string s)) (field : String)
    (transform : ValueTransform) :
    Meets lib shown s t body location (.transformValue field transform)
      (fate shown s.toList.length body location (.transformValue field transform)) := by
  rw [fate]
  split
  next => exact .rewritten
  next htokens =>
    apply meets_left
    · rw [transformValue_eq]
      exact Json.pointer_changeText_of_ne (Ne.symm htokens) htext
    · rw [transformValue_eq, transformValue_eq, withText, withText, Json.changeText_comm htokens]

/-- A body that is no object stays so with another text. -/
theorem withText_ne_object (hbody : ∀ fields, body ≠ .object fields)
    (fields : List (String × Json)) : withText body location t ≠ .object fields := by
  unfold withText
  cases location with
  | nil =>
      cases body with
      | object fields' => exact absurd rfl (hbody fields')
      | string _ => exact Json.noConfusion
      | null | bool _ | number _ | array _ => exact Json.noConfusion
  | cons token tokens =>
      cases body with
      | object fields' => exact absurd rfl (hbody fields')
      | array items =>
          rw [Json.changeText]
          split <;> exact Json.noConfusion
      | null | bool _ | number _ | string _ => exact Json.noConfusion

/-- The actions on the fields of an object. -/
def OnFields : TransformAction → Prop
  | .removeField _ | .addField _ _ | .renameField _ _ => True
  | .maskField _ _ | .transformValue _ _ => False

/-- An action on the fields of an object does nothing to another body. -/
theorem applyAction_of_ne_object (hon : OnFields action) (hbody : ∀ fields, body ≠ .object fields) :
    applyAction lib body action = body := by
  cases action with
  | maskField _ _ => cases hon
  | transformValue _ _ => cases hon
  | removeField _ | addField _ _ | renameField _ _ =>
      cases body with
      | object fields => exact absurd rfl (hbody fields)
      | null | bool _ | number _ | string _ | array _ => rfl

/-- An action on the fields of an object leaves a text in another body. -/
theorem meets_of_ne_object (htext : body.pointer location = some (.string s))
    (hon : OnFields action) (hbody : ∀ fields, body ≠ .object fields) :
    Meets lib shown s t body location action
      (fate shown s.toList.length body location action) := by
  have hfate : fate shown s.toList.length body location action = .left location := by
    cases action with
    | maskField _ _ => cases hon
    | transformValue _ _ => cases hon
    | removeField _ | addField _ _ | renameField _ _ =>
        cases body with
        | object fields => exact absurd rfl (hbody fields)
        | null | bool _ | number _ | string _ | array _ => rfl
  have hsame : applyAction lib body action = body := applyAction_of_ne_object hon hbody
  rw [hfate]
  apply meets_left
  · rw [hsame]
    exact htext
  · rw [hsame, applyAction_of_ne_object hon (withText_ne_object hbody)]

section

variable {fields : List (String × Json)} {token : String} {tokens : List String} {v w : Json}
  {old new : String}

/-- A text below a field that is found. -/
theorem pointer_object (hv : fields.lookup token = some v)
    (htext : v.pointer tokens = some (.string s)) :
    (Json.object fields).pointer (token :: tokens) = some (.string s) :=
  Option.bind_eq_some_iff.mpr ⟨v, hv, htext⟩

/-- Another text below a field. -/
theorem withText_object (fields : List (String × Json)) (token : String) (tokens : List String)
    (t : String) : withText (.object fields) (token :: tokens) t =
      .object (SortedMap.modify fields token (Json.changeText (fun _ => t) tokens)) := by
  rw [withText, Json.changeText]

/-- A field that is removed. -/
theorem removeField_object (fields : List (String × Json)) (field : String) :
    applyAction lib (.object fields) (.removeField field) =
      .object (SortedMap.erase fields field) := by
  rw [applyAction]

/-- A field that is added. -/
theorem addField_object (fields : List (String × Json)) (field value : String) :
    applyAction lib (.object fields) (.addField field value) =
      .object (SortedMap.insert fields field (.string value)) := by
  rw [applyAction]

/-- A field that is not there cannot be renamed. -/
theorem renameField_of_none (h : fields.lookup old = none) :
    applyAction lib (.object fields) (.renameField old new) = .object fields := by
  rw [applyAction, h]

/-- A field that is renamed. -/
theorem renameField_of_some (h : fields.lookup old = some w) :
    applyAction lib (.object fields) (.renameField old new) =
      .object (SortedMap.insert (SortedMap.erase fields old) new w) := by
  rw [applyAction, h]

/-- A removed field. -/
theorem meets_removeField (hsorted : SortedMap.Sorted fields) (hv : fields.lookup token = some v)
    (htext : v.pointer tokens = some (.string s)) (field : String) :
    Meets lib shown s t (.object fields) (token :: tokens) (.removeField field)
      (fate shown s.toList.length (.object fields) (token :: tokens) (.removeField field)) := by
  rw [fate, fateOfField]
  split
  next hfield =>
    subst hfield
    apply Meets.concealed
    rw [withText_object, removeField_object, removeField_object, hsorted.erase_modify_self]
  next hfield =>
    apply meets_left
    · rw [removeField_object]
      refine pointer_object ?_ htext
      rw [SortedMap.lookup_erase, if_neg (Ne.symm hfield), hv]
    · rw [withText_object, removeField_object, removeField_object, withText_object,
        hsorted.erase_modify_of_ne hfield]

/-- An added field. -/
theorem meets_addField (hsorted : SortedMap.Sorted fields) (hv : fields.lookup token = some v)
    (htext : v.pointer tokens = some (.string s)) (field value : String) :
    Meets lib shown s t (.object fields) (token :: tokens) (.addField field value)
      (fate shown s.toList.length (.object fields) (token :: tokens) (.addField field value)) := by
  rw [fate, fateOfField]
  split
  next hfield =>
    subst hfield
    apply Meets.concealed
    rw [withText_object, addField_object, addField_object, hsorted.insert_modify_self]
  next hfield =>
    apply meets_left
    · rw [addField_object]
      refine pointer_object ?_ htext
      rw [SortedMap.lookup_insert, if_neg (Ne.symm hfield), hv]
    · rw [withText_object, addField_object, addField_object, withText_object,
        hsorted.insert_modify_of_ne hfield]

/-- A renamed field: the text moves with it, is replaced by it, or has nothing to do with it. -/
theorem meets_renameField (hsorted : SortedMap.Sorted fields) (hv : fields.lookup token = some v)
    (htext : v.pointer tokens = some (.string s)) (old new : String) :
    Meets lib shown s t (.object fields) (token :: tokens) (.renameField old new)
      (fate shown s.toList.length (.object fields) (token :: tokens) (.renameField old new)) := by
  have hlookup := SortedMap.lookup_modify fields token old (Json.changeText (fun _ => t) tokens)
  rw [fate]
  split
  next hnone =>
    have hne : old ≠ token := by
      rintro rfl
      cases hv.symm.trans hnone
    rw [if_neg hne, hnone] at hlookup
    apply meets_left
    · rw [renameField_of_none hnone]
      exact pointer_object hv htext
    · rw [withText_object, renameField_of_none hlookup, renameField_of_none hnone, withText_object]
  next hsome =>
    obtain ⟨w, hw⟩ := Option.ne_none_iff_exists'.mp hsome
    split
    next hold =>
      subst hold
      obtain rfl : v = w := Option.some.inj (hv.symm.trans hw)
      rw [if_pos rfl, hv, Option.map_some] at hlookup
      apply meets_left
      · rw [renameField_of_some hv]
        exact pointer_object (by rw [SortedMap.lookup_insert, if_pos rfl]) htext
      · rw [withText_object, renameField_of_some hlookup, renameField_of_some hv,
          withText_object, hsorted.erase_modify_self, (hsorted.erase _).modify_insert_self]
    next hold =>
      rw [if_neg hold, hw] at hlookup
      have herased := hsorted.erase_modify_of_ne hold (Json.changeText (fun _ => t) tokens)
      rw [fateOfField]
      split
      next hnew =>
        subst hnew
        apply Meets.concealed
        rw [withText_object, renameField_of_some hlookup, renameField_of_some hw, herased,
          (hsorted.erase _).insert_modify_self]
      next hnew =>
        apply meets_left
        · rw [renameField_of_some hw]
          refine pointer_object ?_ htext
          rw [SortedMap.lookup_insert, if_neg (Ne.symm hnew), SortedMap.lookup_erase,
            if_neg (Ne.symm hold), hv]
        · rw [withText_object, renameField_of_some hlookup, renameField_of_some hw, herased,
            withText_object, (hsorted.erase _).insert_modify_of_ne hnew]

end

variable (lib) in
/-- The fate of a text says what an action does to it. -/
theorem meets_fate (hsorted : FieldsSorted body) (htext : body.pointer location = some (.string s))
    (hend : SameEnd shown s t) (action : TransformAction) :
    Meets lib shown s t body location action
      (fate shown s.toList.length body location action) := by
  by_cases hbody : ∃ fields, body = .object fields
  · obtain ⟨fields, rfl⟩ := hbody
    cases location with
    | nil => cases htext
    | cons token tokens =>
        obtain ⟨v, hv, hrest⟩ := Option.bind_eq_some_iff.mp htext
        cases action with
        | maskField field visibleChars => exact meets_maskField htext hend field visibleChars
        | removeField field => exact meets_removeField hsorted hv hrest field
        | addField field value => exact meets_addField hsorted hv hrest field value
        | renameField old new => exact meets_renameField hsorted hv hrest old new
        | transformValue field transform => exact meets_transformValue htext field transform
  · rw [not_exists] at hbody
    cases action with
    | maskField field visibleChars => exact meets_maskField htext hend field visibleChars
    | transformValue field transform => exact meets_transformValue htext field transform
    | removeField field => exact meets_of_ne_object htext trivial hbody
    | addField field value => exact meets_of_ne_object htext trivial hbody
    | renameField old new => exact meets_of_ne_object htext trivial hbody

/-- An action keeps the fields of the body sorted. -/
theorem fieldsSorted_applyAction (hsorted : FieldsSorted body) (action : TransformAction) :
    FieldsSorted (applyAction lib body action) := by
  have hchange : ∀ f tokens, FieldsSorted (body.changeText f tokens) := by
    intro f tokens
    cases tokens with
    | nil => cases body <;> exact hsorted
    | cons token tokens =>
        cases body with
        | object fields => exact SortedMap.Sorted.modify hsorted _ _
        | array items =>
            rw [Json.changeText]
            split <;> exact trivial
        | null | bool _ | number _ | string _ => exact trivial
  cases action with
  | maskField field visibleChars => exact hchange _ _
  | transformValue field transform => exact hchange _ _
  | removeField field =>
      cases body with
      | object fields => exact SortedMap.Sorted.erase hsorted _
      | null | bool _ | number _ | string _ | array _ => exact trivial
  | addField field value =>
      cases body with
      | object fields => exact SortedMap.Sorted.insert hsorted _ _
      | null | bool _ | number _ | string _ | array _ => exact trivial
  | renameField old new =>
      cases body with
      | object fields =>
          rw [applyAction]
          split
          next => exact (SortedMap.Sorted.erase hsorted _).insert _ _
          next => exact hsorted
      | null | bool _ | number _ | string _ | array _ => exact trivial

/-- What a text is masked to by the rules before has the length and the end of the text. -/
theorem SameEnd.left_of_left {s' t' : String} (hend : SameEnd shown s t)
    (hs : SameEnd (shown + 1) s s') (ht : SameEnd (shown + 1) t t') : SameEnd shown s' t' :=
  ((hs.mono (Nat.le_succ _)).symm.trans hend).trans (ht.mono (Nat.le_succ _))

/-- Texts with the same end cannot be told apart behind actions of which one conceals them. -/
theorem foldl_eq_of_conceals (hsorted : FieldsSorted body)
    (htext : body.pointer location = some (.string s)) (hend : SameEnd shown s t)
    (h : conceals lib shown s.toList.length actions body location = true) :
    actions.foldl (applyAction lib) (withText body location t) =
      actions.foldl (applyAction lib) body := by
  induction actions generalizing body location s t with
  | nil => cases h
  | cons action actions ih =>
      have hmeets := meets_fate lib hsorted htext hend action
      rw [conceals] at h
      rw [List.foldl_cons, List.foldl_cons]
      cases hfate : fate shown s.toList.length body location action with
      | concealed =>
          rw [hfate] at hmeets
          cases hmeets with
          | concealed heq => rw [heq]
      | left location' =>
          rw [hfate] at hmeets h
          cases hmeets with
          | left htext' hother hs ht =>
              rw [hother]
              exact ih (fieldsSorted_applyAction hsorted action) htext' (hend.left_of_left hs ht)
                (hs.length ▸ h)
      | rewritten =>
          rw [hfate] at h
          cases h

/-- Texts that differ right before the same end can be told apart behind actions of which none
conceals or rewrites them. -/
theorem foldl_ne_of_not_conceals (hsorted : FieldsSorted body)
    (htext : body.pointer location = some (.string s)) (hend : SameEnd shown s t)
    (hdiffer : ¬ SameEnd (shown + 1) s t)
    (hunrewritten : unrewritten lib shown s.toList.length actions body location = true)
    (h : conceals lib shown s.toList.length actions body location = false) :
    actions.foldl (applyAction lib) (withText body location t) ≠
      actions.foldl (applyAction lib) body := by
  induction actions generalizing body location s t with
  | nil =>
      intro heq
      rw [List.foldl_nil, List.foldl_nil] at heq
      have htext' : body.pointer location = some (.string t) :=
        heq ▸ Json.pointer_changeText_self htext
      obtain rfl : s = t := Json.string.inj (Option.some.inj (htext.symm.trans htext'))
      exact hdiffer (.refl _ s)
  | cons action actions ih =>
      have hmeets := meets_fate lib hsorted htext hend action
      rw [conceals] at h
      rw [unrewritten] at hunrewritten
      rw [List.foldl_cons, List.foldl_cons]
      cases hfate : fate shown s.toList.length body location action with
      | concealed =>
          rw [hfate] at h
          cases h
      | left location' =>
          rw [hfate] at hmeets h hunrewritten
          cases hmeets with
          | left htext' hother hs ht =>
              rw [hother]
              exact ih (fieldsSorted_applyAction hsorted action) htext' (hend.left_of_left hs ht)
                (fun hsame => hdiffer ((hs.trans hsame).trans ht.symm))
                (hs.length ▸ hunrewritten) (hs.length ▸ h)
      | rewritten =>
          rw [hfate] at hunrewritten
          cases hunrewritten

/-- A text that is longer than an end has another one with that end, but no longer one. -/
theorem exists_sameEnd (hlong : shown < s.toList.length) :
    ∃ t, SameEnd shown s t ∧ ¬ SameEnd (shown + 1) s t := by
  have hlast : s.toList.length - (shown + 1) < s.toList.length := by omega
  obtain ⟨c, hc⟩ : ∃ c, c ≠ s.toList[s.toList.length - (shown + 1)] := by
    by_cases hx : s.toList[s.toList.length - (shown + 1)] = 'x'
    · exact ⟨'*', hx ▸ by decide⟩
    · exact ⟨'x', Ne.symm hx⟩
  have ht : (String.ofList (List.replicate (s.toList.length - shown) c ++
      s.toList.drop (s.toList.length - shown))).toList =
        List.replicate (s.toList.length - shown) c ++ s.toList.drop (s.toList.length - shown) :=
    String.toList_ofList
  have hlength : s.toList.length = (List.replicate (s.toList.length - shown) c ++
      s.toList.drop (s.toList.length - shown)).length := by
    rw [List.length_append, List.length_replicate, List.length_drop]
    omega
  refine ⟨_, ⟨by rw [ht, ← hlength], ?_⟩, fun hsame => hc ?_⟩
  · rw [ht, ← hlength, List.drop_left' List.length_replicate]
  · have hends := hsame.last
    rw [ht, ← hlength] at hends
    -- The first characters of the longer ends are compared.
    have hfirst := congrArg List.head? hends
    rw [List.head?_drop, List.head?_drop, List.getElem?_append_left
      (by rw [List.length_replicate]; omega), List.getElem?_replicate_of_lt (by omega),
      List.getElem?_eq_getElem hlast] at hfirst
    exact (Option.some.inj hfirst).symm

/-- The rules for a path are carried out one after the other. -/
theorem apply_eq (rules : List TransformRule) (path : String) (body : Json) :
    apply lib rules path body = (actionsFor rules path).foldl (applyAction lib) body := by
  rw [apply, actionsFor, List.foldl_map, List.foldl_filter]

/-- For every list of rules that do not rewrite a text: the result tells nothing of the text but its
length and its last characters, of which `shown` may be told, exactly if one of the rules conceals
it where the rules before have left it. -/
theorem concealed_iff {rules : List TransformRule} {path : String} (hsorted : FieldsSorted body)
    (htext : body.pointer location = some (.string s)) (hlong : shown < s.toList.length)
    (hunrewritten : unrewritten lib shown s.toList.length (actionsFor rules path) body location) :
    (∀ t, SameEnd shown s t →
      apply lib rules path (withText body location t) = apply lib rules path body) ↔
      conceals lib shown s.toList.length (actionsFor rules path) body location = true := by
  simp only [apply_eq]
  constructor
  · intro hsame
    by_contra h
    obtain ⟨t, hend, hdiffer⟩ := exists_sameEnd hlong
    exact foldl_ne_of_not_conceals hsorted htext hend hdiffer hunrewritten
      (Bool.eq_false_of_not_eq_true h) (hsame t hend)
  · intro h t hend
    exact foldl_eq_of_conceals hsorted htext hend h

/-- Case and digest functions that nothing below calls. -/
def plainLib : TransformLib := ⟨id, id, id⟩

/-- A number moves to another field and is masked there. -/
def cardRules : List TransformRule :=
  [⟨"trim", "/users", .transformValue "card.number" .trim⟩,
    ⟨"rename", "/pay", .renameField "card" "source"⟩,
    ⟨"mask", "/pay", .maskField "source.number" 4⟩]

/-- A payment with the number of a card. -/
def payment : Json :=
  .object [("amount", .string "10"), ("card", .object [("number", .string "4111111111111234")])]

/-- Only the last four digits of the number can be told. -/
theorem concealed_payment :
    (∀ t, SameEnd 4 "4111111111111234" t →
      apply plainLib cardRules "/pay/7" (withText payment ["card", "number"] t) =
        apply plainLib cardRules "/pay/7" payment) ∧
    apply plainLib cardRules "/pay/7" payment =
      .object [("amount", .string "10"),
        ("source", .object [("number", .string "************1234")])] := by
  have hsorted : FieldsSorted payment := List.pairwise_pair.mpr (by decide)
  have hiff := @concealed_iff plainLib 4 "4111111111111234" payment ["card", "number"] cardRules
    "/pay/7" hsorted rfl (by decide) (by decide)
  exact ⟨hiff.mpr (by decide), rfl⟩

end TransformEngine

end XiraNet

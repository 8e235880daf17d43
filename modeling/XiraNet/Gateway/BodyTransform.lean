import XiraNet.Http
import XiraNet.Lib.KeyMoves
import XiraNet.Lib.SortedMap
import Mathlib.Data.String.Basic

/-!
# Body transformation

`gateway/body_transform.rs`: the fields of a JSON body are removed, added, renamed and redacted. The
maps of `serde_json` are sorted; those of the configuration are hash maps, and the order of their
lists is the one in which this process iterates them.

* `BodyTransformConfig.transformResponseBody_redacts`: a response is redacted at every depth.
* `BodyTransformConfig.orderFree_iff`: when the order of the hash maps does not matter.
* `BodyTransformConfig.orderFree_fails`: a chain of two renamings.
-/

namespace XiraNet

/-- The JSON library. -/
structure SerdeJson where
  /-- `from_slice`. -/
  fromSlice : List UInt8 → Option Json
  /-- `to_vec`. -/
  toVec : Json → Option (List UInt8)

/-- `default_redact_value`. -/
def defaultRedactValue : String := "***REDACTED***"

/-- A hash map, in the order in which its entries are iterated. -/
structure HashMap (V : Type) where
  entries : List (String × V)
  nodup : (entries.map Prod.fst).Nodup

/-- `BodyTransformConfig`. -/
structure BodyTransformConfig where
  removeFields : List String := []
  addFields : HashMap Json := ⟨[], List.nodup_nil⟩
  renameFields : HashMap String := ⟨[], List.nodup_nil⟩
  redactFields : List String := []
  removeResponseFields : List String := []
  redactValue : String := defaultRedactValue

namespace Json

mutual

/-- How deep arrays and objects are nested. -/
def height : Json → ℕ
  | .array items => heightItems items + 1
  | .object fields => heightFields fields + 1
  | .null | .bool _ | .number _ | .string _ => 0

/-- The height of the items of an array. -/
def heightItems : List Json → ℕ
  | [] => 0
  | v :: items => max v.height (heightItems items)

/-- The height of the values of an object. -/
def heightFields : List (String × Json) → ℕ
  | [] => 0
  | (_, v) :: fields => max v.height (heightFields fields)

end

/-- Every object in the value is sorted. -/
inductive Sorted : Json → Prop
  | null : Sorted .null
  | bool (b : Bool) : Sorted (.bool b)
  | number (literal : String) : Sorted (.number literal)
  | string (s : String) : Sorted (.string s)
  | array {items : List Json} (hitems : ∀ v ∈ items, Sorted v) : Sorted (.array items)
  | object {fields : List (String × Json)} (hsorted : SortedMap.Sorted fields)
      (hfields : ∀ e ∈ fields, Sorted e.2) : Sorted (.object fields)

mutual

/-- The text of a value, without white space. -/
def text : Json → List Char
  | .null => ['n', 'u', 'l', 'l']
  | .bool true => ['t', 'r', 'u', 'e']
  | .bool false => ['f', 'a', 'l', 's', 'e']
  | .number literal => literal.toList
  | .string s => quote s
  | .array items => '[' :: textItems items
  | .object fields => '\x7b' :: textFields fields

/-- The text of the items of an array and its end. -/
def textItems : List Json → List Char
  | [] => [']']
  | [v] => v.text ++ [']']
  | v :: items => v.text ++ ',' :: textItems items

/-- The text of the fields of an object and its end. -/
def textFields : List (String × Json) → List Char
  | [] => ['\x7d']
  | [(name, v)] => quote name ++ ':' :: v.text ++ ['\x7d']
  | (name, v) :: fields => quote name ++ ':' :: v.text ++ ',' :: textFields fields

end

/-- An item is less high than the array. -/
theorem height_le_heightItems {v : Json} {items : List Json} (h : v ∈ items) :
    v.height ≤ heightItems items := by
  induction items with
  | nil => cases h
  | cons w items ih =>
      rw [heightItems]
      rcases List.mem_cons.mp h with rfl | h
      · exact le_max_left _ _
      · exact (ih h).trans (le_max_right _ _)

/-- A value is less high than the object. -/
theorem height_le_heightFields {e : String × Json} {fields : List (String × Json)}
    (h : e ∈ fields) : e.2.height ≤ heightFields fields := by
  induction fields with
  | nil => cases h
  | cons e' fields ih =>
      rw [heightFields]
      rcases List.mem_cons.mp h with rfl | h
      · exact le_max_left _ _
      · exact (ih h).trans (le_max_right _ _)

end Json

/-- At every depth the fields in `remove` are gone, those in `redact` have the replacement as their
value, and everything else is as it was. -/
inductive Json.Redacted (redact remove : List String) (redactValue : String) : Json → Json → Prop
  | null : Redacted redact remove redactValue .null .null
  | bool (b : Bool) : Redacted redact remove redactValue (.bool b) (.bool b)
  | number (literal : String) :
      Redacted redact remove redactValue (.number literal) (.number literal)
  | string (s : String) : Redacted redact remove redactValue (.string s) (.string s)
  | array {items items' : List Json} (hlength : items'.length = items.length)
      (hitems : ∀ (k : ℕ) (v v' : Json), items[k]? = some v → items'[k]? = some v' →
        Redacted redact remove redactValue v v') :
      Redacted redact remove redactValue (.array items) (.array items')
  | object {fields fields' : List (String × Json)}
      (hremoved : ∀ name ∈ remove, fields'.lookup name = none)
      (hredacted : ∀ name ∈ redact, name ∉ remove →
        fields'.lookup name = (fields.lookup name).map fun _ => .string redactValue)
      (hkept : ∀ name, name ∉ remove → name ∉ redact →
        (fields'.lookup name).isSome = (fields.lookup name).isSome)
      (hvalues : ∀ name, name ∉ remove → name ∉ redact → ∀ v v', fields.lookup name = some v →
        fields'.lookup name = some v' → Redacted redact remove redactValue v v') :
      Redacted redact remove redactValue (.object fields) (.object fields')

/-- The library prints a value and reads it back. -/
def SerdeJson.RoundTrips (lib : SerdeJson) (v : Json) : Prop :=
  ∃ out, lib.toVec v = some out ∧ lib.fromSlice out = some v

namespace BodyTransformConfig

/-- Remove fields from an object. -/
def removed (remove : List String) (map : List (String × Json)) : List (String × Json) :=
  remove.foldl (fun map field => SortedMap.erase map field) map

/-- Replace the values of fields that an object has. -/
def redacted (redact : List String) (redactValue : String) (map : List (String × Json)) :
    List (String × Json) :=
  redact.foldl (fun map field =>
    if (map.lookup field).isSome then SortedMap.insert map field (.string redactValue)
    else map) map

/-- What is left after a removal was there before. -/
theorem mem_removed {remove : List String} {map : List (String × Json)} {e : String × Json}
    (h : e ∈ removed remove map) : e ∈ map := by
  induction remove generalizing map with
  | nil => exact h
  | cons field remove ih => exact List.mem_of_mem_filter (ih h)

/-- A value of a redacted object was there before or is the replacement. -/
theorem mem_redacted {redact : List String} {redactValue : String} {map : List (String × Json)}
    {e : String × Json} (h : e ∈ redacted redact redactValue map) :
    e ∈ map ∨ e.2 = .string redactValue := by
  induction redact generalizing map with
  | nil => exact .inl h
  | cons field redact ih =>
      rcases ih h with h | h
      · dsimp only at h
        split at h
        · exact (SortedMap.mem_insert h).symm.imp_right (congrArg Prod.snd)
        · exact .inl h
      · exact .inr h

/-- `transform_value`, whose replacement is always a string. -/
def transformValue (redact remove : List String) (redactValue : String) : Json → Json
  | .object map =>
      let map := removed remove map
      let map := redacted redact redactValue map
      .object (map.attach.map fun ⟨(name, v), _⟩ =>
        (name, transformValue redact remove redactValue v))
  | .array arr =>
      .array (arr.attach.map fun ⟨item, _⟩ => transformValue redact remove redactValue item)
  | v => v
termination_by v => v.height
decreasing_by
  · rename_i h
    rw [Json.height]
    rcases mem_redacted h with h | h
    · exact Nat.lt_succ_of_le (Json.height_le_heightFields (mem_removed h))
    · rw [show v = _ from h, Json.height]
      exact Nat.succ_pos _
  · rename_i h
    rw [Json.height]
    exact Nat.lt_succ_of_le (Json.height_le_heightItems h)

/-- What is found after a removal. -/
theorem lookup_removed (remove : List String) (map : List (String × Json)) (name : String) :
    (removed remove map).lookup name = if name ∈ remove then none else map.lookup name := by
  induction remove generalizing map with
  | nil => rfl
  | cons field remove ih =>
      rw [show removed (field :: remove) map = removed remove (SortedMap.erase map field) from rfl,
        ih, SortedMap.lookup_erase]
      by_cases hname : name = field
      · simp [hname]
      · simp [hname]

/-- What is found after a redaction. -/
theorem lookup_redacted (redact : List String) (redactValue : String) (map : List (String × Json))
    (name : String) : (redacted redact redactValue map).lookup name =
      if name ∈ redact then (map.lookup name).map fun _ => .string redactValue
      else map.lookup name := by
  induction redact generalizing map with
  | nil => rfl
  | cons field redact ih =>
      rw [redacted, List.foldl_cons]
      refine (ih _).trans ?_
      have hfirst : (if (map.lookup field).isSome then
          SortedMap.insert map field (.string redactValue) else map).lookup name =
          if name = field then (map.lookup name).map fun _ => .string redactValue
          else map.lookup name := by
        split
        next hsome =>
          rw [SortedMap.lookup_insert]
          split
          next heq =>
            obtain ⟨v, hv⟩ := Option.isSome_iff_exists.mp hsome
            rw [heq, hv, Option.map_some]
          next => rfl
        next hnone =>
          split
          next heq => rw [heq, Option.not_isSome_iff_eq_none.mp hnone, Option.map_none]
          next => rfl
      rw [hfirst]
      by_cases hname : name = field
      · by_cases hmem : name ∈ redact <;> simp [hname, hname ▸ hmem, Function.comp_def]
      · simp [hname]

/-- An object that is transformed. -/
theorem transformValue_object (redact remove : List String) (redactValue : String)
    (map : List (String × Json)) : transformValue redact remove redactValue (.object map) =
      .object ((redacted redact redactValue (removed remove map)).map fun e =>
        (e.1, transformValue redact remove redactValue e.2)) := by
  rw [transformValue]
  exact congrArg Json.object (List.attach_map_val (f := fun e : String × Json =>
    (e.1, transformValue redact remove redactValue e.2)))

/-- An array that is transformed. -/
theorem transformValue_array (redact remove : List String) (redactValue : String)
    (arr : List Json) : transformValue redact remove redactValue (.array arr) =
      .array (arr.map (transformValue redact remove redactValue)) := by
  rw [transformValue]
  exact congrArg Json.array (List.attach_map_val (f := transformValue redact remove redactValue))

/-- What is found in an object that is transformed. -/
theorem lookup_transformed (redact remove : List String) (redactValue : String)
    (map : List (String × Json)) (name : String) :
    ((redacted redact redactValue (removed remove map)).map fun e =>
        (e.1, transformValue redact remove redactValue e.2)).lookup name =
      if name ∈ remove then none
      else if name ∈ redact then (map.lookup name).map fun _ => .string redactValue
      else (map.lookup name).map (transformValue redact remove redactValue) := by
  rw [SortedMap.lookup_map, lookup_redacted, lookup_removed]
  by_cases hremove : name ∈ remove
  · simp [hremove]
  · by_cases hredact : name ∈ redact
    · simp [hremove, hredact, Function.comp_def, transformValue]
    · simp [hremove, hredact]

/-- The transformation redacts at every depth. -/
theorem redacted_transformValue (redact remove : List String) (redactValue : String) {v : Json}
    (hv : v.Sorted) :
    v.Redacted redact remove redactValue (transformValue redact remove redactValue v) := by
  induction hv with
  | null => simpa only [transformValue] using Json.Redacted.null
  | bool b => simpa only [transformValue] using Json.Redacted.bool b
  | number literal => simpa only [transformValue] using Json.Redacted.number literal
  | string s => simpa only [transformValue] using Json.Redacted.string s
  | @array items _ ih =>
      rw [transformValue_array]
      refine .array (List.length_map _) fun k v v' hv hv' => ?_
      rw [List.getElem?_map, hv, Option.map_some] at hv'
      exact Option.some.inj hv' ▸ ih v (List.mem_of_getElem? hv)
  | @object fields _ _ ih =>
      rw [transformValue_object]
      have hlookup := lookup_transformed redact remove redactValue fields
      refine .object (fun name h => ?_) (fun name hredact hremove => ?_)
        (fun name hremove hredact => ?_) fun name hremove hredact v v' hv hv' => ?_
      · rw [hlookup, if_pos h]
      · rw [hlookup, if_neg hremove, if_pos hredact]
      · rw [hlookup, if_neg hremove, if_neg hredact, Option.isSome_map]
      · rw [hlookup, if_neg hremove, if_neg hredact, hv, Option.map_some] at hv'
        exact Option.some.inj hv' ▸ ih _ (SortedMap.mem_of_lookup hv)

/-- A removal keeps an object sorted. -/
theorem sorted_removed {remove : List String} {map : List (String × Json)}
    (hmap : SortedMap.Sorted map) : SortedMap.Sorted (removed remove map) := by
  induction remove generalizing map with
  | nil => exact hmap
  | cons field remove ih => exact ih (hmap.erase field)

/-- A redaction keeps an object sorted. -/
theorem sorted_redacted {redact : List String} {redactValue : String} {map : List (String × Json)}
    (hmap : SortedMap.Sorted map) : SortedMap.Sorted (redacted redact redactValue map) := by
  induction redact generalizing map with
  | nil => exact hmap
  | cons field redact ih =>
      refine ih ?_
      dsimp only
      split
      · exact hmap.insert _ _
      · exact hmap

/-- The transformation of its own result changes nothing. -/
theorem transformValue_transformValue (redact remove : List String) (redactValue : String)
    {v : Json} (hv : v.Sorted) :
    transformValue redact remove redactValue (transformValue redact remove redactValue v) =
      transformValue redact remove redactValue v := by
  induction hv with
  | null | bool | number | string => simp only [transformValue]
  | @array items _ ih =>
      rw [transformValue_array, transformValue_array, List.map_map]
      exact congrArg Json.array (List.map_congr_left fun v hv => ih v hv)
  | @object fields hsorted _ ih =>
      have hsorted' : SortedMap.Sorted ((redacted redact redactValue (removed remove fields)).map
          fun e => (e.1, transformValue redact remove redactValue e.2)) :=
        (sorted_redacted (sorted_removed hsorted)).map _
      rw [transformValue_object, transformValue_object]
      refine congrArg Json.object (SortedMap.Sorted.ext
        ((sorted_redacted (sorted_removed hsorted')).map _) hsorted' fun name => ?_)
      simp only [lookup_transformed]
      split
      · rfl
      · split
        · rw [Option.map_map]
          rfl
        · rw [Option.map_map]
          cases hname : fields.lookup name with
          | none => rfl
          | some v => exact congrArg some (ih _ (SortedMap.mem_of_lookup hname))

/-- `transform_response_body`. -/
def transformResponseBody (config : BodyTransformConfig) (lib : SerdeJson) (body : List UInt8) :
    Option (List UInt8) :=
  if config.redactFields.isEmpty && config.removeResponseFields.isEmpty then none
  else
    match lib.fromSlice body with
    | some json =>
        lib.toVec (transformValue config.redactFields config.removeResponseFields
          config.redactValue json)
    | none => none

/-- A response is redacted at every depth, and once is enough. -/
theorem transformResponseBody_redacts {config : BodyTransformConfig} {lib : SerdeJson}
    {body : List UInt8} {v : Json}
    (hsorted : ∀ body v, lib.fromSlice body = some v → v.Sorted)
    (hround : lib.RoundTrips (transformValue config.redactFields config.removeResponseFields
      config.redactValue v))
    (hlists : config.redactFields ≠ [] ∨ config.removeResponseFields ≠ [])
    (hbody : lib.fromSlice body = some v) :
    ∃ v' out, config.transformResponseBody lib body = some out ∧ lib.toVec v' = some out ∧
      lib.fromSlice out = some v' ∧
      v.Redacted config.redactFields config.removeResponseFields config.redactValue v' ∧
      config.transformResponseBody lib out = some out := by
  have hv := hsorted body v hbody
  obtain ⟨out, hprint, hparse⟩ := hround
  have hlists' : (config.redactFields.isEmpty && config.removeResponseFields.isEmpty) = false := by
    rw [Bool.and_eq_false_iff]
    exact hlists.imp (by simp) (by simp)
  refine ⟨_, out, ?_, hprint, hparse, redacted_transformValue _ _ _ hv, ?_⟩
  · rw [transformResponseBody, hlists', hbody]
    exact hprint
  · rw [transformResponseBody, hlists', hparse]
    simp only [transformValue_transformValue _ _ _ hv]
    exact hprint

/-- A list of users with secrets. -/
def userList (secret : String) : Json :=
  .array [.object [("name", .string "Ann"), ("ssn", .string secret)]]

/-- A response with a list of users. -/
def userResponse : Json := .object [("token", .string "t"), ("users", userList "078-05-1120")]

/-- The response without its secrets. -/
def safeResponse : Json := .object [("users", userList defaultRedactValue)]

/-- A library that reads some values. -/
def SerdeJson.ofValues (values : List Json) : SerdeJson where
  fromSlice body := values.find? fun v => Utf8.encode (String.ofList v.text) = body
  toVec v := some (Utf8.encode (String.ofList v.text))

/-- What the library reads. -/
theorem SerdeJson.mem_of_fromSlice_ofValues {values : List Json} {body : List UInt8} {v : Json}
    (h : (SerdeJson.ofValues values).fromSlice body = some v) : v ∈ values :=
  List.mem_of_find?_eq_some h

/-- The secrets of the users are redacted. -/
theorem transformValue_userResponse :
    transformValue ["ssn"] ["token"] defaultRedactValue userResponse = safeResponse := by
  have houter : redacted ["ssn"] defaultRedactValue (removed ["token"]
      [("token", .string "t"), ("users", userList "078-05-1120")]) =
      [("users", userList "078-05-1120")] := rfl
  have hinner : redacted ["ssn"] defaultRedactValue (removed ["token"]
      [("name", .string "Ann"), ("ssn", .string "078-05-1120")]) =
      [("name", .string "Ann"), ("ssn", .string defaultRedactValue)] := rfl
  simp only [userResponse, safeResponse, transformValue_object, houter, List.map_cons, List.map_nil]
  simp only [userList, transformValue_array, transformValue_object, hinner, List.map_cons,
    List.map_nil, transformValue]

/-- The response is redacted. -/
theorem transformResponseBody_redacts_userResponse :
    let lib := SerdeJson.ofValues [userResponse, safeResponse]
    let config : BodyTransformConfig :=
      { redactFields := ["ssn"], removeResponseFields := ["token"] }
    ∃ v' out, config.transformResponseBody lib (Utf8.encode (String.ofList userResponse.text)) =
        some out ∧ lib.toVec v' = some out ∧ lib.fromSlice out = some v' ∧
      userResponse.Redacted ["ssn"] ["token"] defaultRedactValue v' ∧
      config.transformResponseBody lib out = some out := by
  refine transformResponseBody_redacts (fun body v hv => ?_) ?_ (.inl (by simp)) ?_
  · have husers (secret : String) : (userList secret).Sorted := by
      refine .array (List.forall_mem_singleton.mpr (.object ?_ (by simp [Json.Sorted.string])))
      simp [SortedMap.Sorted, show ("name" : String) < "ssn" by decide, -String.lt_iff_ltb]
    have hmem := SerdeJson.mem_of_fromSlice_ofValues hv
    simp only [List.mem_cons, List.not_mem_nil, or_false] at hmem
    obtain rfl | rfl := hmem
    · refine .object ?_ (by simp [husers, Json.Sorted.string])
      simp [SortedMap.Sorted, show ("token" : String) < "users" by decide, -String.lt_iff_ltb]
    · exact .object (List.pairwise_singleton _ _) (by simp [husers])
  · rw [transformValue_userResponse]
    exact ⟨_, rfl, rfl⟩
  · rfl

/-- Add fields to an object. -/
def added (add : List (String × Json)) (map : List (String × Json)) : List (String × Json) :=
  add.foldl (fun map e => SortedMap.insert map e.1 e.2) map

/-- Rename a field that an object has. -/
def renameField (map : List (String × Json)) (e : String × String) : List (String × Json) :=
  match map.lookup e.1 with
  | some v => SortedMap.insert (SortedMap.erase map e.1) e.2 v
  | none => map

/-- Rename fields of an object. -/
def renamed (rename : List (String × String)) (map : List (String × Json)) :
    List (String × Json) :=
  rename.foldl renameField map

/-- The fields of a request that are renamed. -/
def present (config : BodyTransformConfig) (map : List (String × Json)) : List (String × Json) :=
  added config.addFields.entries (removed config.removeFields map)

/-- There is nothing to do for requests. -/
def leavesRequests (config : BodyTransformConfig) : Bool :=
  config.removeFields.isEmpty && config.addFields.entries.isEmpty &&
    config.renameFields.entries.isEmpty

/-- The value that `transform_request_body` prints. -/
def requestValue (config : BodyTransformConfig) (lib : SerdeJson) (body : List UInt8) :
    Option Json :=
  if config.leavesRequests then none
  else
    match lib.fromSlice body with
    | some (.object map) =>
        some (.object (renamed config.renameFields.entries (config.present map)))
    | some json => some json
    | none => none

/-- `transform_request_body`. -/
def transformRequestBody (config : BodyTransformConfig) (lib : SerdeJson) (body : List UInt8) :
    Option (List UInt8) :=
  (config.requestValue lib body).bind lib.toVec

/-- The same configuration in a process that iterates its hash maps in another order. -/
structure SameMaps (config config' : BodyTransformConfig) : Prop where
  removeFields : config'.removeFields = config.removeFields
  addFields : config'.addFields.entries.Perm config.addFields.entries
  renameFields : config'.renameFields.entries.Perm config.renameFields.entries

/-- Every process makes the same object of a request with an object as its body; its fields are
those that are present after removal and addition, which are renamed all at once. -/
structure OrderFree (config : BodyTransformConfig) (lib : SerdeJson) (body : List UInt8)
    (map : List (String × Json)) : Prop where
  same : ∀ config', config.SameMaps config' →
    config'.requestValue lib body = config.requestValue lib body
  substituted : config.leavesRequests = false →
    ∃ map', config.requestValue lib body = some (.object map') ∧
      KeyMoves.Substituted config.renameFields.entries
        (fun name => (config.present map).lookup name) fun name => map'.lookup name

/-- No field that is present is renamed to one that is renamed itself, and the values of present
fields that are renamed to the same name are equal. -/
def RenamesApart (config : BodyTransformConfig) (map : List (String × Json)) : Prop :=
  KeyMoves.NoChain config.renameFields.entries (fun name => (config.present map).lookup name) ∧
    KeyMoves.Agree config.renameFields.entries fun name => (config.present map).lookup name

/-- What is found after fields were added. -/
theorem lookup_added {add : List (String × Json)} (hnodup : (add.map Prod.fst).Nodup)
    (map : List (String × Json)) (name : String) :
    (added add map).lookup name = (add.lookup name).or (map.lookup name) := by
  induction add generalizing map with
  | nil => rfl
  | cons e add ih =>
      obtain ⟨name', v⟩ := e
      obtain ⟨hfirst, hrest⟩ := List.nodup_cons.mp hnodup
      refine (ih hrest _).trans ?_
      rw [SortedMap.lookup_insert, SortedMap.lookup_cons]
      by_cases hname : name = name'
      · have hnone : add.lookup name' = none := List.lookup_eq_none_iff.mpr fun e he =>
          bne_iff_ne.mpr fun heq => hfirst (List.mem_map.mpr ⟨e, he, heq.symm⟩)
        rw [if_pos hname, if_pos hname, hname, hnone, Option.none_or, Option.some_or]
      · rw [if_neg hname, if_neg hname]

/-- What is found after a field was renamed. -/
theorem lookup_renameField (map : List (String × Json)) (e : String × String) :
    (fun name => (renameField map e).lookup name) =
      KeyMoves.move (fun name => map.lookup name) e := by
  obtain ⟨old, new⟩ := e
  funext name
  unfold renameField
  cases hold : map.lookup old with
  | none => rw [KeyMoves.move_eq_self (f := fun name => map.lookup name) hold]
  | some v =>
      rw [KeyMoves.move_apply (f := fun name => map.lookup name) hold, SortedMap.lookup_insert,
        SortedMap.lookup_erase]

/-- What is found after fields were renamed. -/
theorem lookup_renamed (rename : List (String × String)) (map : List (String × Json)) :
    (fun name => (renamed rename map).lookup name) =
      KeyMoves.moves rename fun name => map.lookup name := by
  induction rename generalizing map with
  | nil => rfl
  | cons e rename ih =>
      exact (ih _).trans (congrArg (KeyMoves.moves rename) (lookup_renameField map e))

/-- An addition keeps an object sorted. -/
theorem sorted_added {add : List (String × Json)} {map : List (String × Json)}
    (hmap : SortedMap.Sorted map) : SortedMap.Sorted (added add map) := by
  induction add generalizing map with
  | nil => exact hmap
  | cons e add ih => exact ih (hmap.insert _ _)

/-- A renaming keeps an object sorted. -/
theorem sorted_renamed {rename : List (String × String)} {map : List (String × Json)}
    (hmap : SortedMap.Sorted map) : SortedMap.Sorted (renamed rename map) := by
  induction rename generalizing map with
  | nil => exact hmap
  | cons e rename ih =>
      refine ih ?_
      unfold renameField
      split
      · exact (hmap.erase _).insert _ _
      · exact hmap

/-- Fields can be added in any order. -/
theorem present_eq {config config' : BodyTransformConfig} {map : List (String × Json)}
    (hmap : SortedMap.Sorted map) (hsame : config.SameMaps config') :
    config'.present map = config.present map := by
  refine (sorted_added (sorted_removed hmap)).ext (sorted_added (sorted_removed hmap))
    fun name => ?_
  simp only [present]
  rw [lookup_added config.addFields.nodup, lookup_added config'.addFields.nodup,
    SortedMap.lookup_perm config.addFields.nodup hsame.addFields, hsame.removeFields]

/-- Whether there is something to do does not depend on an order. -/
theorem leavesRequests_eq {config config' : BodyTransformConfig} (hsame : config.SameMaps config') :
    config'.leavesRequests = config.leavesRequests := by
  rw [leavesRequests, leavesRequests, hsame.removeFields, Bool.eq_iff_iff]
  simp only [Bool.and_eq_true, List.isEmpty_iff, ← List.length_eq_zero_iff,
    hsame.addFields.length_eq, hsame.renameFields.length_eq]

/-- Renamings make the same object exactly if they move the same values. -/
theorem renamed_eq_iff {rename rename' : List (String × String)} {map : List (String × Json)}
    (hmap : SortedMap.Sorted map) : renamed rename' map = renamed rename map ↔
      KeyMoves.moves rename' (fun name => map.lookup name) =
        KeyMoves.moves rename fun name => map.lookup name := by
  rw [← lookup_renamed, ← lookup_renamed]
  exact ⟨fun h => by rw [h], fun h =>
    (sorted_renamed hmap).ext (sorted_renamed hmap) fun name => congrFun h name⟩

/-- The object of a request does not depend on the order of the hash maps, and is what the renaming
of all fields at once gives, exactly if the renamings are apart. -/
theorem orderFree_iff {config : BodyTransformConfig} {lib : SerdeJson} {body : List UInt8}
    {map : List (String × Json)} (hsorted : ∀ body v, lib.fromSlice body = some v → v.Sorted)
    (hbody : lib.fromSlice body = some (.object map)) :
    config.OrderFree lib body map ↔ config.RenamesApart map := by
  have hmap : SortedMap.Sorted map := by
    cases hsorted body _ hbody with
    | object hmap _ => exact hmap
  have hpresent : SortedMap.Sorted (config.present map) := sorted_added (sorted_removed hmap)
  have hvalue : ∀ config' : BodyTransformConfig, config'.leavesRequests = false →
      config'.requestValue lib body =
        some (.object (renamed config'.renameFields.entries (config'.present map))) :=
    fun config' h => by simp only [requestValue, h, hbody, Bool.false_eq_true, if_false]
  have hperm_iff := KeyMoves.moves_perm_iff (f := fun name => (config.present map).lookup name)
    config.renameFields.nodup
  rw [RenamesApart, ← hperm_iff]
  constructor
  · intro h rename hperm
    cases hleaves : config.leavesRequests with
    | true =>
        simp only [leavesRequests, Bool.and_eq_true, List.isEmpty_iff] at hleaves
        rw [hleaves.2] at hperm ⊢
        rw [hperm.eq_nil]
    | false =>
        let config' : BodyTransformConfig :=
          { config with
            renameFields := ⟨rename, (hperm.map _).nodup_iff.mpr config.renameFields.nodup⟩ }
        have hsame : config.SameMaps config' := ⟨rfl, .refl _, hperm⟩
        have heq := h.same config' hsame
        rw [hvalue config hleaves, hvalue config' ((leavesRequests_eq hsame).trans hleaves)] at heq
        exact (renamed_eq_iff hpresent).mp (Json.object.inj (Option.some.inj heq))
  · intro h
    refine ⟨fun config' hsame => ?_, fun hleaves => ⟨_, hvalue config hleaves, ?_⟩⟩
    · cases hleaves : config.leavesRequests with
      | true => simp only [requestValue, leavesRequests_eq hsame, hleaves, if_true]
      | false =>
          rw [hvalue config hleaves, hvalue config' ((leavesRequests_eq hsame).trans hleaves),
            present_eq hmap hsame, (renamed_eq_iff hpresent).mpr (h _ hsame.renameFields)]
    · obtain ⟨hchain, hagree⟩ := hperm_iff.mp h
      rw [lookup_renamed]
      exact KeyMoves.substituted config.renameFields.nodup hchain hagree

/-- A request in which a field is renamed. -/
def loginRequest : Json := .object [("user", .string "ann")]

/-- The names of users are renamed, and the old ones to others. -/
def chainConfig : BodyTransformConfig where
  renameFields := ⟨[("user", "name"), ("name", "alias")], by decide⟩

/-- The names of users are renamed. -/
def renameConfig : BodyTransformConfig where
  renameFields := ⟨[("user", "name"), ("mail", "email")], by decide⟩

/-- The library that reads the request reads sorted objects. -/
theorem sorted_ofValues_loginRequest (body : List UInt8) (v : Json)
    (hv : (SerdeJson.ofValues [loginRequest]).fromSlice body = some v) : v.Sorted := by
  obtain rfl := List.mem_singleton.mp (SerdeJson.mem_of_fromSlice_ofValues hv)
  exact .object (List.pairwise_singleton _ _) (by simp [Json.Sorted.string])

/-- Two fields are renamed in every order. -/
theorem orderFree_renameConfig :
    renameConfig.OrderFree (SerdeJson.ofValues [loginRequest])
      (Utf8.encode (String.ofList loginRequest.text)) [("user", .string "ann")] := by
  refine (orderFree_iff sorted_ofValues_loginRequest rfl).mpr
    ⟨fun a b c hab hbc => ?_, fun a b c hac hbc _ _ x y hx hy => ?_⟩
  · simp only [renameConfig, List.mem_cons, Prod.mk.injEq, List.not_mem_nil, or_false] at hab hbc
    obtain ⟨rfl, rfl⟩ | ⟨rfl, rfl⟩ := hab <;> simp at hbc
  · simp only [renameConfig, List.mem_cons, Prod.mk.injEq, List.not_mem_nil, or_false] at hac hbc
    obtain ⟨rfl, rfl⟩ | ⟨rfl, rfl⟩ := hac <;> simp at hbc <;> subst hbc <;>
      exact Option.some.inj (hx.symm.trans hy)

/-- The order matters where a field is renamed to one that is renamed. -/
theorem orderFree_fails :
    ¬ ∀ (config : BodyTransformConfig) (lib : SerdeJson) body map,
      (∀ body v, lib.fromSlice body = some v → v.Sorted) →
      lib.fromSlice body = some (.object map) → config.OrderFree lib body map := by
  intro h
  let lib := SerdeJson.ofValues [loginRequest]
  let body := Utf8.encode (String.ofList loginRequest.text)
  let swapped : BodyTransformConfig :=
    { renameFields := ⟨[("name", "alias"), ("user", "name")], by decide⟩ }
  have hfree := h chainConfig lib body [("user", .string "ann")] sorted_ofValues_loginRequest rfl
  have hsame : swapped.requestValue lib body = chainConfig.requestValue lib body :=
    hfree.same swapped ⟨rfl, .refl _, .swap _ _ _⟩
  have halias : chainConfig.requestValue lib body = some (.object [("alias", .string "ann")]) := rfl
  have hname : swapped.requestValue lib body = some (.object [("name", .string "ann")]) := rfl
  rw [halias, hname] at hsame
  simp at hsame

end BodyTransformConfig

end XiraNet

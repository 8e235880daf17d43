import XiraNet.Http
import XiraNet.Registry.Registry

/-!
# Request validation

`middleware/validation.rs`: the body of a POST, PUT or PATCH request against the JSON schema of
the service. Parsing and schema checking come from the crates `serde_json` and `jsonschema`.

`validateRequestBody_eq_none`: a request that passes satisfies the schema.
-/

namespace XiraNet

/-- What validation takes from elsewhere. -/
structure SchemaLib where
  /-- `serde_json::from_slice`, with the text of the error. -/
  fromSlice : List UInt8 → Except String Json
  /-- `serde_json::from_str`. -/
  fromStr : String → Except String Json
  /-- `jsonschema::validator_for`: the errors of a value, each with the path of the instance. -/
  validatorFor : Json → Except String (Json → List (String × String))
  /-- The empty text is not JSON. -/
  fromStr_empty : ∃ e, fromStr "" = .error e

/-- The validator of a schema, if the schema is well formed. -/
def SchemaLib.compile (lib : SchemaLib) (schema : String) :
    Except String (Json → List (String × String)) :=
  (lib.fromStr schema).bind lib.validatorFor

/-- The methods whose body is validated. -/
def validatedMethods : List String := ["POST", "PUT", "PATCH"]

/-- The response to a body that does not parse. -/
def invalidJsonResponse (detail : String) : HttpResponse :=
  .json 400 [("error", .string "Invalid JSON body"), ("detail", .string detail)]

/-- The response to a body with errors. -/
def validationFailedResponse (errors : List (String × String)) : HttpResponse :=
  .json 400 [("error", .string "Request validation failed"),
    ("validation_errors", .array (errors.map fun e => .string (e.1 ++ ": " ++ e.2)))]

/-- The schema of the service that serves the request. -/
def requestSchema (registry : ServiceRegistry) (req : HttpRequest) : Option String :=
  match registry.lookup req.path with
  | none => none
  | some service => service.validationSchema.filter fun s => s ≠ ""

/-- `validate_request_body`. -/
def validateRequestBody (lib : SchemaLib) (registry : ServiceRegistry) (req : HttpRequest) :
    Option HttpResponse :=
  match requestSchema registry req with
  | none => none
  | some schema =>
      if req.method ∉ validatedMethods then none
      else if req.body = [] then none
      else
        match lib.fromSlice req.body with
        | .error e => some (invalidJsonResponse e)
        | .ok body =>
            -- A schema that does not parse or compile is logged and the body let through.
            match lib.compile schema with
            | .error _ => none
            | .ok validator =>
                if validator body = [] then none
                else some (validationFailedResponse (validator body))

/-- A body that has to be validated satisfies the schema of a service, if it has a well-formed
one. -/
def SatisfiesSchema (lib : SchemaLib) (service : ServiceEntry) (req : HttpRequest) : Prop :=
  req.method ∈ validatedMethods → req.body ≠ [] →
    ∀ schema ∈ service.validationSchema, ∀ validator, lib.compile schema = .ok validator →
      ∃ body, lib.fromSlice req.body = .ok body ∧ validator body = []

/-- The empty schema is not well formed. -/
theorem SchemaLib.compile_empty (lib : SchemaLib) (validator : Json → List (String × String)) :
    lib.compile "" ≠ .ok validator := by
  obtain ⟨e, he⟩ := lib.fromStr_empty
  rw [SchemaLib.compile, he]
  exact fun h => by cases h

/-- What passes the validation satisfies the schema of the service it is for. -/
theorem validateRequestBody_eq_none {lib : SchemaLib} {registry : ServiceRegistry}
    {req : HttpRequest} {service : ServiceEntry}
    (hservice : registry.lookup req.path = some service)
    (h : validateRequestBody lib registry req = none) : SatisfiesSchema lib service req := by
  intro hmethod hbody schema hschema validator hvalidator
  -- The validator skips an empty schema, which is no well-formed one either.
  have hne : schema ≠ "" := by
    rintro rfl
    exact lib.compile_empty validator hvalidator
  have hrequest : requestSchema registry req = some schema := by
    rw [requestSchema, hservice]
    exact Option.filter_eq_some_iff.mpr ⟨hschema, decide_eq_true hne⟩
  rw [validateRequestBody, hrequest] at h
  dsimp only at h
  rw [if_neg (not_not.mpr hmethod), if_neg hbody] at h
  split at h
  next => cases h
  next body hparse =>
    rw [hvalidator] at h
    dsimp only at h
    split at h
    next hvalid => exact ⟨body, hparse, hvalid⟩
    next => cases h

end XiraNet

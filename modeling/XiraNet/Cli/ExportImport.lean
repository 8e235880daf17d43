import XiraNet.Alerting.UrlGuard
import XiraNet.Config.Runtime
import XiraNet.Lib.DashCount
import XiraNet.Registry.Lookup

/-!
# Export and import of services

`xira export` and `xira import` of `cli/mod.rs` with the handlers of `admin/handlers.rs` that they
call: the services of one gateway are listed into a file, and the file is replayed on another
gateway. The text of the file is left out, the value that is written is the value that is read.

* `ServiceRegistry.transfer_iff`: the second gateway routes like the first one exactly if it accepts
  every service, and serves like it exactly if no service has settings that the import drops.
-/

namespace XiraNet

/-- How ids and times are written. -/
structure JsonTexts where
  uuid : Uuid → String
  dateTime : DateTime → String

namespace Json

/-- A list of texts. -/
def texts (items : List String) : Json := .array (items.map .string)

/-- A text that may be absent. -/
def optional (text : Option String) : Json := (text.map .string).getD .null

/-- A number. -/
def natural (n : ℕ) : Json := .number (String.ofList (Nat.toDigits 10 n))

/-- `Value::as_array`. -/
def asArray : Json → Option (List Json)
  | .array items => some items
  | _ => none

end Json

/-- The JSON value of header rules. -/
def TransformConfig.toJson (t : TransformConfig) : Json :=
  let headers (fields : List (String × String)) : Json :=
    .object (fields.map fun f => (f.1, .string f.2))
  .object [("add_request_headers", headers t.addRequestHeaders),
    ("remove_request_headers", .texts t.removeRequestHeaders),
    ("add_response_headers", headers t.addResponseHeaders),
    ("remove_response_headers", .texts t.removeResponseHeaders)]

/-- The JSON value of a status. -/
def ServiceStatus.toJson : ServiceStatus → Json
  | .up => .string "Up"
  | .down => .string "Down"
  | .unknown => .string "Unknown"

/-- The JSON value of a service. -/
def ServiceEntry.toJson (texts : JsonTexts) (s : ServiceEntry) : Json :=
  .object [("id", .string (texts.uuid s.id)), ("name", .string s.name),
    ("prefix", .string s.pathPrefix), ("upstream", .string s.upstream),
    ("health_endpoint", .string s.healthEndpoint), ("status", s.status.toJson),
    ("registered_at", .string (texts.dateTime s.registeredAt)),
    ("last_health_check", .optional (s.lastHealthCheck.map texts.dateTime)),
    ("request_count", .natural s.requestCount), ("upstreams", .texts s.upstreams),
    ("load_balance", .optional s.loadBalance), ("version", .optional s.version),
    ("validation_schema", .optional s.validationSchema), ("ip_whitelist", .texts s.ipWhitelist),
    ("ip_blacklist", .texts s.ipBlacklist),
    ("transform", (s.transform.map TransformConfig.toJson).getD .null)]

/-- `list_services`, with the services in the order of the map. -/
def listServices (texts : JsonTexts) (services : List ServiceEntry) : Json :=
  let count := String.ofList (Nat.toDigits 10 services.length)
  .object [("success", .bool true), ("message", .string (count ++ " service(s) registered")),
    ("data", .object [("total", .natural services.length),
      ("services", .array (services.map (·.toJson texts)))])]

/-- What `export` writes, with the answers that it got. -/
def exportValue (version exportedAt : String) (services config : Option Json) : Json :=
  .object ((config.map fun v => ("config", v)).toList ++ ("exported_at", .string exportedAt) ::
    (services.map fun v => ("services", v)).toList ++ [("version", .string version)])

/-- What `import` reads of a service. -/
structure ImportedService where
  name : String
  pathPrefix : String
  upstream : String
  deriving DecidableEq, Repr

/-- What `import` reads of the value of a service. -/
def ImportedService.ofJson (svc : Json) : ImportedService :=
  let text (field : String) : Option String := (svc.get field).bind Json.asStr
  { name := (text "name").getD "unknown"
    pathPrefix := (text "prefix").getD "/"
    upstream := (text "upstream").getD "" }

/-- The services that `import` finds in a file. -/
def importedServices (data : Json) : Option (List ImportedService) :=
  ((((data.get "services").bind (·.get "data")).bind (·.get "services")).bind Json.asArray).map
    (·.map .ofJson)

/-- The request that `import` sends, as the handler reads it. -/
def ImportedService.request (svc : ImportedService) : RegisterServiceRequest where
  name := svc.name
  pathPrefix := svc.pathPrefix
  upstream := svc.upstream
  healthEndpoint := "/health"
  upstreams := []
  loadBalance := none
  version := none
  validationSchema := none
  ipWhitelist := []
  ipBlacklist := []
  transform := none

/-- Why `register_service` answers with an error. -/
inductive RegisterError
  | required
  | rejected (e : UrlGuardError)
  deriving DecidableEq, Repr

/-- The error that is sent. -/
def RegisterError.text : RegisterError → String
  | .required => "name, prefix, and upstream are required"
  | .rejected e => "upstream rejected: " ++
      match e with
      | .invalid e => "invalid URL: " ++ e
      | .badScheme scheme => "scheme not allowed: " ++ scheme ++ " (use http or https)"
      | .missingHost => "missing host"
      | .dnsError e => "DNS resolution failed: " ++ e
      | .forbidden what =>
          "destination address is forbidden (private/loopback/metadata): " ++ what

/-- What a request that reaches `register_service` finds: the id and the time it draws, and the
resolver. -/
structure RegisterEnv where
  id : Uuid
  now : DateTime
  resolve : Resolver

/-- What becomes of a request of `import`. -/
structure ImportSend where
  /-- What it finds if it reaches the handler. -/
  handled : Option RegisterEnv
  /-- Whether it is answered, by the handler or another part of the gateway. -/
  answered : Bool

/-- The handler answers. -/
def ImportSend.answer (env : RegisterEnv) : ImportSend := ⟨some env, true⟩

namespace ServiceRegistry

/-- `register_service`. -/
def registerService (lib : UrlLib) (r : ServiceRegistry) (env : RegisterEnv)
    (req : RegisterServiceRequest) : Except RegisterError ServiceEntry × ServiceRegistry :=
  if req.name = "" ∨ req.pathPrefix = "" ∨ req.upstream = "" then (.error .required, r)
  else
    match validateUpstreamUrl lib env.resolve req.upstream with
    | .error e => (.error (.rejected e), r)
    | .ok () =>
        let (entry, r) := r.registerAdvanced env.id env.now req
        (.ok entry, r)

/-- `import`: the requests one after the other. The count is the one that is printed; whatever is
answered counts. -/
def importServices (lib : UrlLib) (r : ServiceRegistry) :
    List (ImportedService × ImportSend) → ℕ × ServiceRegistry
  | [] => (0, r)
  | (svc, send) :: rest =>
      if svc.upstream = "" then importServices lib r rest
      else
        let r := (send.handled.map fun env => (r.registerService lib env svc.request).2).getD r
        let (imported, r) := importServices lib r rest
        (if send.answered then imported + 1 else imported, r)

/-- `export` on one gateway and `import` on another, with what becomes of the requests. -/
def transfer (lib : UrlLib) (texts : JsonTexts) (version exportedAt : String) (config : Option Json)
    (services : List ServiceEntry) (sends : List ImportSend) (r : ServiceRegistry) :
    ℕ × ServiceRegistry :=
  match importedServices
      (exportValue version exportedAt (some (listServices texts services)) config) with
  | some found => importServices lib r (found.zip sends)
  -- `No services found in import file`.
  | none => (0, r)

end ServiceRegistry

/-- Whether the handler registers a service of another gateway. -/
def RegisterEnv.accepts (lib : UrlLib) (env : RegisterEnv) (s : ServiceEntry) : Bool :=
  s.name ≠ "" && s.pathPrefix ≠ "" && s.upstream ≠ "" &&
    (validateUpstreamUrl lib env.resolve s.upstream).isOk

/-- What the routing of a service depends on. -/
def ServiceEntry.route (s : ServiceEntry) : String × String × String :=
  (s.name, s.pathPrefix, s.upstream)

/-- All settings of a service. -/
def ServiceEntry.settings (s : ServiceEntry) : RegisterServiceRequest where
  name := s.name
  pathPrefix := s.pathPrefix
  upstream := s.upstream
  healthEndpoint := s.healthEndpoint
  upstreams := s.upstreams
  loadBalance := s.loadBalance
  version := s.version
  validationSchema := s.validationSchema
  ipWhitelist := s.ipWhitelist
  ipBlacklist := s.ipBlacklist
  transform := s.transform

/-- What is read of a service. -/
def ServiceEntry.exported (s : ServiceEntry) : ImportedService := ⟨s.name, s.pathPrefix, s.upstream⟩

/-- A service without settings that the import drops. -/
def ServiceEntry.Plain (s : ServiceEntry) : Prop := s.exported.request = s.settings

/-- The copy of a service. -/
def RegisterEnv.copy (env : RegisterEnv) (s : ServiceEntry) : ServiceEntry :=
  ServiceRegistry.entryOfRequest env.id env.now s.exported.request

instance (s : ServiceEntry) : Decidable s.Plain := decEq s.exported.request s.settings

/-- What is read of a value that was written. -/
theorem ImportedService.ofJson_toJson (texts : JsonTexts) (s : ServiceEntry) :
    ofJson (s.toJson texts) = s.exported := rfl

/-- The services of an export are found in it. -/
theorem importedServices_exportValue (texts : JsonTexts) (version exportedAt : String)
    (config : Option Json) (services : List ServiceEntry) :
    importedServices (exportValue version exportedAt (some (listServices texts services)) config) =
      some (services.map ServiceEntry.exported) := by
  have hread : (services.map (·.toJson texts)).map ImportedService.ofJson =
      services.map ServiceEntry.exported := by
    rw [List.map_map]
    rfl
  rw [← hread]
  cases config <;> rfl

namespace ServiceEntry

/-- A prefix in its stored form is stored as it is. -/
theorem IsNormal.normalizePrefix_eq {pathPrefix : String} (h : IsNormal pathPrefix) :
    normalizePrefix pathPrefix = pathPrefix := by
  unfold normalizePrefix
  obtain ⟨rfl | hstart, hend⟩ := h
  · rfl
  · rw [if_pos hstart]
    have hlast : pathPrefix.toList.rdropWhile (fun c => decide (c = '/')) = pathPrefix.toList := by
      refine List.rdropWhile_eq_self_iff.mpr fun hne hslash => ?_
      rw [Bool.eq_false_iff, Ne, Text.endsWith_iff] at hend
      refine hend ⟨pathPrefix.toList.dropLast, ?_⟩
      have hsplit := List.dropLast_append_getLast hne
      rw [of_decide_eq_true hslash] at hsplit
      exact hsplit
    unfold Text.trimEndMatches
    rw [hlast, String.ofList_toList]

end ServiceEntry

namespace ServiceRegistry

/-- A copy has the prefix of the service. -/
theorem copy_pathPrefix {env : RegisterEnv} {s : ServiceEntry}
    (hnormal : ServiceEntry.IsNormal s.pathPrefix) : (env.copy s).pathPrefix = s.pathPrefix :=
  hnormal.normalizePrefix_eq

/-- A copy is routed like the service. -/
theorem route_copy {env : RegisterEnv} {s : ServiceEntry}
    (hnormal : ServiceEntry.IsNormal s.pathPrefix)
    (htrimmed : Text.trimEndMatches s.upstream '/' = s.upstream) : (env.copy s).route = s.route :=
  Prod.ext rfl (Prod.ext (copy_pathPrefix hnormal) htrimmed)

/-- The settings of a copy are those that the import keeps. -/
theorem settings_copy {env : RegisterEnv} {s : ServiceEntry}
    (hnormal : ServiceEntry.IsNormal s.pathPrefix)
    (htrimmed : Text.trimEndMatches s.upstream '/' = s.upstream) :
    (env.copy s).settings = s.exported.request := by
  have hpath : (env.copy s).pathPrefix = s.pathPrefix := copy_pathPrefix hnormal
  have hupstream : (env.copy s).upstream = s.upstream := htrimmed
  unfold ServiceEntry.settings
  rw [hpath, hupstream]
  rfl

/-- A service that is accepted has an upstream. -/
theorem upstream_ne_of_accepts {lib : UrlLib} {env : RegisterEnv} {s : ServiceEntry}
    (h : env.accepts lib s = true) : s.upstream ≠ "" := by
  unfold RegisterEnv.accepts at h
  simp only [Bool.and_eq_true, decide_eq_true_eq] at h
  exact h.1.2

/-- Every upstream is stored without slashes at its end. -/
def Trimmed (r : ServiceRegistry) : Prop :=
  ∀ entry ∈ r.services.values, Text.trimEndMatches entry.upstream '/' = entry.upstream

variable {lib : UrlLib} {r r' : ServiceRegistry}

/-- What is trimmed is trimmed. -/
theorem trimEndMatches_trimEndMatches (s : String) (c : Char) :
    Text.trimEndMatches (Text.trimEndMatches s c) c = Text.trimEndMatches s c := by
  unfold Text.trimEndMatches
  rw [String.toList_ofList, List.rdropWhile_idempotent]

/-- A new service is trimmed. -/
theorem Trimmed.registered (h : r.Trimmed) (given : String) {entry : ServiceEntry}
    (hentry : Text.trimEndMatches entry.upstream '/' = entry.upstream) :
    ((r.replaceExisting given).insertEntry entry).Trimmed := by
  intro found hfound
  obtain ⟨id, hid⟩ := (DashMap.mem_values_iff _ _).mp hfound
  obtain ⟨-, rfl⟩ | ⟨-, hold, -⟩ := lookup_registered hid
  · exact hentry
  · exact h found ((DashMap.mem_values_iff _ _).mpr ⟨id, hold⟩)

/-- A call keeps the upstreams trimmed. -/
theorem trimmed_step {call : RegistryCall} (hs : r.Trimmed) (h : r.step call = some r') :
    r'.Trimmed := by
  cases call with
  | register | registerAdvanced =>
      simp only [step] at h
      split at h <;> cases h
      exact hs.registered _ (trimEndMatches_trimEndMatches _ _)
  | loadEntry id now svc =>
      simp only [step] at h
      split at h <;> cases h
      unfold loadEntry
      split
      next => exact hs
      next =>
        intro found hfound
        obtain ⟨id', hid'⟩ := (DashMap.mem_values_iff _ _).mp hfound
        obtain ⟨-, rfl⟩ | ⟨-, hold⟩ := DashMap.lookup_insert_cases hid'
        · exact trimEndMatches_trimEndMatches _ _
        · exact hs found ((DashMap.mem_values_iff _ _).mpr ⟨id', hold⟩)
  | unregister id =>
      cases h
      unfold unregister
      split
      next entry hentry =>
        intro found hfound
        obtain ⟨id', hid'⟩ := (DashMap.mem_values_iff _ _).mp hfound
        rw [services_persist] at hid'
        exact hs found ((DashMap.mem_values_iff _ _).mpr ⟨id', (DashMap.lookup_erase_cases hid').2⟩)
      next => exact hs

/-- A prefix that matches a path is no longer than the path. -/
theorem utf8ByteSize_le_of_matchesPath {pathPrefix path : String}
    (h : matchesPath pathPrefix path = true) : pathPrefix.utf8ByteSize ≤ path.utf8ByteSize := by
  obtain ⟨rest, hrest⟩ := Text.startsWith_iff.mp (startsWith_of_matchesPath h)
  have hpath : path = pathPrefix ++ String.ofList rest := by
    rw [← String.toList_inj, String.toList_append, String.toList_ofList, hrest]
  rw [hpath, String.utf8ByteSize_append]
  exact Nat.le_add_right _ _

/-- The service that `lookup` finds among services with distinct prefixes. -/
theorem lookup_eq_some_iff (hdistinct : ∀ e ∈ r.services.values, ∀ e' ∈ r.services.values,
      e.pathPrefix = e'.pathPrefix → e = e') {path : String} {entry : ServiceEntry} :
    r.lookup path = some entry ↔ entry ∈ r.services.values ∧ entry.pathPrefix ≠ "" ∧
      matchesPath entry.pathPrefix path = true ∧ ∀ other ∈ r.services.values,
        matchesPath other.pathPrefix path = true →
          other.pathPrefix.utf8ByteSize ≤ entry.pathPrefix.utf8ByteSize := by
  constructor
  · intro h
    obtain ⟨hmem, hmatch, hne⟩ := lookup_eq_some h
    refine ⟨hmem, hne, hmatch, fun other hother hmatch' => ?_⟩
    have hle := le_of_lookup hother hmatch'
    rwa [h] at hle
  · rintro ⟨hmem, hne, hmatch, hlongest⟩
    obtain ⟨found, hfound⟩ := Option.isSome_iff_exists.mp
      ((lookup_isSome_iff r path).mpr ⟨entry, hmem, hne, hmatch⟩)
    obtain ⟨hmem', hmatch', -⟩ := lookup_eq_some hfound
    have hle := le_of_lookup hmem hmatch
    rw [hfound] at hle
    -- Two prefixes of one path with the same size are the same prefix.
    have hpath : found.pathPrefix = entry.pathPrefix :=
      Text.eq_of_startsWith (startsWith_of_matchesPath hmatch')
        (startsWith_of_matchesPath hmatch) (Nat.le_antisymm (hlongest found hmem' hmatch') hle)
    rw [hfound, hdistinct found hmem' entry hmem hpath]

/-- A service that is accepted under a free prefix is one more. -/
theorem registerService_of_accepts {env : RegisterEnv} {s : ServiceEntry}
    (haccepts : env.accepts lib s = true) (hnormal : ServiceEntry.IsNormal s.pathPrefix)
    (hfree : ∀ e ∈ r.services.values, e.pathPrefix ≠ s.pathPrefix) :
    (r.registerService lib env s.exported.request).2 = r.insertEntry (env.copy s) := by
  unfold RegisterEnv.accepts at haccepts
  simp only [Bool.and_eq_true, decide_eq_true_eq] at haccepts
  obtain ⟨⟨⟨hname, hsamePrefix⟩, hupstream⟩, hguard⟩ := haccepts
  have hnone : r.findByPrefix s.exported.request.pathPrefix = none := by
    show r.findByPrefix s.pathPrefix = none
    rw [findByPrefix_eq hsamePrefix, hnormal.normalizePrefix_eq]
    exact List.find?_eq_none.mpr fun e he heq => hfree e he (of_decide_eq_true heq)
  have hrequired : ¬ (s.exported.request.name = "" ∨ s.exported.request.pathPrefix = "" ∨
      s.exported.request.upstream = "") :=
    not_or.mpr ⟨hname, not_or.mpr ⟨hsamePrefix, hupstream⟩⟩
  have hvalid : validateUpstreamUrl lib env.resolve s.exported.request.upstream = .ok () := by
    show validateUpstreamUrl lib env.resolve s.upstream = .ok ()
    cases hvalid : validateUpstreamUrl lib env.resolve s.upstream with
    | ok u => rfl
    | error e =>
        rw [hvalid] at hguard
        cases hguard
  unfold registerService registerAdvanced replaceExisting
  rw [if_neg hrequired, hvalid, hnone]
  rfl

/-- A service that is not accepted leaves the registry. -/
theorem registerService_of_not_accepts {env : RegisterEnv} {s : ServiceEntry}
    (haccepts : env.accepts lib s = false) :
    (r.registerService lib env s.exported.request).2 = r := by
  unfold registerService
  split
  next => rfl
  next hrequired =>
    have hall : s.name ≠ "" ∧ s.pathPrefix ≠ "" ∧ s.upstream ≠ "" := by
      refine ⟨fun h => hrequired (.inl h), fun h => hrequired (.inr (.inl h)),
        fun h => hrequired (.inr (.inr h))⟩
    have hupstream : s.exported.request.upstream = s.upstream := rfl
    rw [hupstream]
    cases hvalid : validateUpstreamUrl lib env.resolve s.upstream with
    | error e => rfl
    | ok u =>
        unfold RegisterEnv.accepts at haccepts
        simp [hall, hvalid, Except.isOk, Except.toBool] at haccepts

/-- A request that is handled and answered. -/
theorem importServices_answer (lib : UrlLib) (r : ServiceRegistry) (svc : ImportedService)
    (env : RegisterEnv) (rest : List (ImportedService × ImportSend)) :
    importServices lib r ((svc, .answer env) :: rest) =
      if svc.upstream = "" then importServices lib r rest
      else
        let result := importServices lib (r.registerService lib env svc.request).2 rest
        (result.1 + 1, result.2) := rfl

/-- An import that is handled and answered as a whole. Every service with an upstream counts, and
those that are accepted are registered. -/
theorem importServices_spec (lib : UrlLib) (pairs : List (ServiceEntry × RegisterEnv))
    (r : ServiceRegistry) (hids : (pairs.map fun p => p.2.id).Nodup)
    (hnew : ∀ p ∈ pairs, r.services.lookup p.2.id = none)
    (hprefixes : (pairs.map fun p => p.1.pathPrefix).Nodup)
    (hfree : ∀ p ∈ pairs, ∀ e ∈ r.services.values, e.pathPrefix ≠ p.1.pathPrefix)
    (hnormal : ∀ p ∈ pairs, ServiceEntry.IsNormal p.1.pathPrefix) :
    (importServices lib r (pairs.map fun p => (p.1.exported, .answer p.2))).1 =
        pairs.countP (fun p => p.1.upstream ≠ "") ∧
      (importServices lib r
        (pairs.map fun p => (p.1.exported, .answer p.2))).2.services.values.Perm
          (((pairs.filter fun p => p.2.accepts lib p.1).map fun p => p.2.copy p.1) ++
            r.services.values) := by
  induction pairs generalizing r with
  | nil => exact ⟨rfl, List.Perm.refl _⟩
  | cons p pairs ih =>
      obtain ⟨s, env⟩ := p
      simp only [List.map_cons, List.nodup_cons] at hids hprefixes
      obtain ⟨hnewHead, hnew⟩ := List.forall_mem_cons.mp hnew
      obtain ⟨hfreeHead, hfree⟩ := List.forall_mem_cons.mp hfree
      obtain ⟨hnormalHead, hnormal⟩ := List.forall_mem_cons.mp hnormal
      rw [List.map_cons, importServices_answer, List.countP_cons]
      by_cases hupstream : s.upstream = ""
      -- The service is passed over.
      · have haccepts : env.accepts lib s = false := by simp [RegisterEnv.accepts, hupstream]
        obtain ⟨hcount, hperm⟩ := ih r hids.2 hnew hprefixes.2 hfree hnormal
        rw [if_pos (show s.exported.upstream = "" from hupstream), List.filter_cons_of_neg]
        · exact ⟨hcount.trans (by simp [hupstream]), hperm⟩
        · rw [haccepts]
          exact Bool.false_ne_true
      · rw [if_neg (show s.exported.upstream ≠ "" from hupstream)]
        cases haccepts : env.accepts lib s with
        | false =>
            -- A refused service counts all the same.
            obtain ⟨hcount, hperm⟩ := ih r hids.2 hnew hprefixes.2 hfree hnormal
            rw [registerService_of_not_accepts haccepts, List.filter_cons_of_neg]
            · exact ⟨(congrArg (· + 1) hcount).trans (by simp [hupstream]), hperm⟩
            · rw [haccepts]
              exact Bool.false_ne_true
        | true =>
            have hregister := registerService_of_accepts haccepts hnormalHead hfreeHead
            have hvalues : (r.insertEntry (env.copy s)).services.values =
                env.copy s :: r.services.values := by
              show DashMap.values (r.services.insert env.id (env.copy s)) = _
              rw [DashMap.values_insert, DashMap.values_erase_of_none hnewHead]
            -- The rest meets a registry with the copy, whose id and prefix are none of theirs.
            obtain ⟨hcount, hperm⟩ := ih (r.insertEntry (env.copy s)) hids.2
              (fun p hp => by
                have hne : p.2.id ≠ (env.copy s).id := fun heq =>
                  hids.1 (List.mem_map.mpr ⟨p, hp, heq⟩)
                rw [insertEntry, DashMap.lookup_insert, if_neg hne]
                exact hnew p hp)
              hprefixes.2
              (fun p hp e he => by
                rw [hvalues, List.mem_cons] at he
                obtain rfl | hold := he
                · rw [copy_pathPrefix hnormalHead]
                  exact fun heq => hprefixes.1 (List.mem_map.mpr ⟨p, hp, heq.symm⟩)
                · exact hfree p hp e hold)
              hnormal
            rw [hregister, List.filter_cons_of_pos, List.map_cons, List.cons_append]
            · rw [hvalues] at hperm
              exact ⟨(congrArg (· + 1) hcount).trans (by simp [hupstream]),
                hperm.trans List.perm_middle⟩
            · exact haccepts

/-- As many have a weaker property exactly if they all have the stronger one. -/
theorem countP_eq_iff {α : Type} {l : List α} {weak strong : α → Bool}
    (h : ∀ x, strong x = true → weak x = true) :
    l.countP weak = l.countP strong ↔ ∀ x ∈ l, weak x = true → strong x = true := by
  constructor
  · intro heq x hx hweak
    have hsub : (l.filter strong).Sublist (l.filter weak) :=
      List.monotone_filter_right l h
    rw [List.countP_eq_length_filter, List.countP_eq_length_filter] at heq
    have hmem : x ∈ l.filter weak := List.mem_filter.mpr ⟨hx, hweak⟩
    rw [← hsub.eq_of_length heq.symm] at hmem
    exact (List.mem_filter.mp hmem).2
  · intro hall
    exact List.countP_congr fun x hx => ⟨hall x hx, h x⟩

/-- A registry with the copies of the services that were accepted routes as the first one, as far as
a reading of services tells, exactly if every service with a prefix is accepted and its copy reads
like it. -/
theorem lookup_copies_iff {α : Type} {read : ServiceEntry → α}
    (hread : ∀ e e', read e = read e' → e.pathPrefix = e'.pathPrefix) {a b : ServiceRegistry}
    {pairs : List (ServiceEntry × RegisterEnv)}
    (hpairs : (pairs.map Prod.fst).Perm a.services.values)
    (hnodup : (pairs.map fun p => p.1.pathPrefix).Nodup)
    (hnormal : ∀ p ∈ pairs, ServiceEntry.IsNormal p.1.pathPrefix)
    (hcopies : b.services.values.Perm
      ((pairs.filter fun p => p.2.accepts lib p.1).map fun p => p.2.copy p.1)) :
    (∀ path, (b.lookup path).map read = (a.lookup path).map read) ↔
      ∀ p ∈ pairs, p.1.pathPrefix ≠ "" →
        p.2.accepts lib p.1 = true ∧ read (p.2.copy p.1) = read p.1 := by
  have hmemA : ∀ e, e ∈ a.services.values ↔ ∃ p ∈ pairs, p.1 = e := fun e => by
    rw [← hpairs.mem_iff, List.mem_map]
  have hmemB : ∀ e, e ∈ b.services.values ↔
      ∃ p ∈ pairs, p.2.accepts lib p.1 = true ∧ p.2.copy p.1 = e := fun e => by
    rw [hcopies.mem_iff, List.mem_map]
    simp only [List.mem_filter, and_assoc]
  have hsame : ∀ p ∈ pairs, ∀ p' ∈ pairs, p.1.pathPrefix = p'.1.pathPrefix → p = p' :=
    fun p hp p' hp' heq => List.inj_on_of_nodup_map hnodup hp hp' heq
  have hdistinctA : ∀ e ∈ a.services.values, ∀ e' ∈ a.services.values,
      e.pathPrefix = e'.pathPrefix → e = e' := by
    intro e he e' he' heq
    obtain ⟨p, hp, rfl⟩ := (hmemA e).mp he
    obtain ⟨p', hp', rfl⟩ := (hmemA e').mp he'
    rw [hsame p hp p' hp' heq]
  have hdistinctB : ∀ e ∈ b.services.values, ∀ e' ∈ b.services.values,
      e.pathPrefix = e'.pathPrefix → e = e' := by
    intro e he e' he' heq
    obtain ⟨p, hp, -, rfl⟩ := (hmemB e).mp he
    obtain ⟨p', hp', -, rfl⟩ := (hmemB e').mp he'
    rw [copy_pathPrefix (hnormal p hp), copy_pathPrefix (hnormal p' hp')] at heq
    rw [hsame p hp p' hp' heq]
  constructor
  · intro hall p hp hne
    -- The service is the longest match of its own prefix.
    have hself : matchesPath p.1.pathPrefix p.1.pathPrefix = true := by simp [matchesPath]
    have hfound : a.lookup p.1.pathPrefix = some p.1 := by
      refine (lookup_eq_some_iff hdistinctA).mpr ⟨(hmemA p.1).mpr ⟨p, hp, rfl⟩, hne, hself,
        fun other _ hmatch => utf8ByteSize_le_of_matchesPath hmatch⟩
    have hlookup := hall p.1.pathPrefix
    rw [hfound, Option.map_some] at hlookup
    obtain ⟨copy, hcopy, heq⟩ := Option.map_eq_some_iff.mp hlookup
    -- The reading tells the prefix, so what is found is the copy of the service itself.
    obtain ⟨p', hp', haccepts, rfl⟩ := (hmemB copy).mp (lookup_eq_some hcopy).1
    have hpath := hread _ _ heq
    rw [copy_pathPrefix (hnormal p' hp')] at hpath
    obtain rfl := hsame p' hp' p hp hpath
    exact ⟨haccepts, heq⟩
  · intro hall path
    -- What one of them finds has a counterpart in the other.
    cases hfound : a.lookup path with
    | some e =>
        obtain ⟨hmem, hne, hmatch, hlongest⟩ := (lookup_eq_some_iff hdistinctA).mp hfound
        obtain ⟨p, hp, rfl⟩ := (hmemA e).mp hmem
        obtain ⟨haccepts, heq⟩ := hall p hp hne
        have hsamePrefix : (p.2.copy p.1).pathPrefix = p.1.pathPrefix :=
          copy_pathPrefix (hnormal p hp)
        have hcopy : b.lookup path = some (p.2.copy p.1) := by
          refine (lookup_eq_some_iff hdistinctB).mpr
            ⟨(hmemB _).mpr ⟨p, hp, haccepts, rfl⟩, ?_, ?_, fun other hother hmatch' => ?_⟩
          · rwa [hsamePrefix]
          · rwa [hsamePrefix]
          · obtain ⟨p', hp', -, rfl⟩ := (hmemB other).mp hother
            rw [copy_pathPrefix (hnormal p' hp')] at hmatch' ⊢
            rw [hsamePrefix]
            exact hlongest p'.1 ((hmemA _).mpr ⟨p', hp', rfl⟩) hmatch'
        rw [hcopy, Option.map_some, Option.map_some, heq]
    | none =>
        cases hcopy : b.lookup path with
        | none => rfl
        | some copy =>
            obtain ⟨hmem, hmatch, hne⟩ := lookup_eq_some hcopy
            obtain ⟨p, hp, -, rfl⟩ := (hmemB copy).mp hmem
            rw [copy_pathPrefix (hnormal p hp)] at hmatch hne
            have hsome := (lookup_isSome_iff a path).mpr
              ⟨p.1, (hmemA _).mpr ⟨p, hp, rfl⟩, hne, hmatch⟩
            rw [hfound] at hsome
            cases hsome

/-- The services of a registry, next to what the requests that import them find. -/
theorem pairs_of_reachable {storage : Option SqliteStorage} {calls : List RegistryCall}
    {a : ServiceRegistry} (hrun : machine.Runs KeepsDistinct (initial storage) calls a)
    {services : List ServiceEntry} (hservices : services.Perm a.services.values)
    {envs : List RegisterEnv} (hlength : services.length = envs.length) :
    ((services.zip envs).map Prod.fst).Perm a.services.values ∧
      ((services.zip envs).map fun p => p.1.pathPrefix).Nodup ∧
      ∀ p ∈ services.zip envs, ServiceEntry.IsNormal p.1.pathPrefix ∧
        Text.trimEndMatches p.1.upstream '/' = p.1.upstream := by
  have hinv : a.Inv := hrun.invariant (fun _ _ _ hs hok h => inv_step hs hok h)
    (rootless_initial storage).toInv
  have htrimmed : a.Trimmed := hrun.invariant (I := Trimmed)
    (fun _ _ _ hs _ h => trimmed_step hs h) fun _ h => absurd h List.not_mem_nil
  have hfst : (services.zip envs).map Prod.fst = services := List.map_fst_zip hlength.le
  refine ⟨hfst.symm ▸ hservices, ?_, fun p hp => ?_⟩
  · have hmap : (services.zip envs).map (fun p => p.1.pathPrefix) =
        ((services.zip envs).map Prod.fst).map ServiceEntry.pathPrefix := List.map_map.symm
    rw [hmap, hfst, (hservices.map _).nodup_iff]
    -- Entries stand under their ids, and prefixes tell the ids apart.
    show (((a.services.entries.map Sigma.snd).map ServiceEntry.pathPrefix)).Nodup
    rw [List.map_map]
    refine List.Nodup.map_on (fun x hx y hy heq => ?_) a.services.nodupKeys.nodup
    have hx' := AList.mem_lookup_iff.mpr hx
    have hy' := AList.mem_lookup_iff.mpr hy
    have hid := hinv.distinct _ _ _ _ hx' hy' heq
    obtain ⟨id, e⟩ := x
    obtain ⟨id', e'⟩ := y
    obtain rfl : id = id' := hid
    obtain rfl : e = e' := Option.some.inj (hx'.symm.trans hy')
    rfl
  · have hmem : p.1 ∈ a.services.values := hservices.mem_iff.mp (List.of_mem_zip hp).1
    obtain ⟨id, hid⟩ := (DashMap.mem_values_iff _ _).mp hmem
    exact ⟨hinv.normal id _ hid, htrimmed _ hmem⟩

/-- Two services, one of which admits a single address. -/
def twoServices : List RegistryCall :=
  [.register 1 0 "users" "/users" "http://users.test" "/health",
    .registerAdvanced 2 0 ⟨"orders", "/orders/", "http://orders.test/", "/health", [], none, none,
      none, ["10.0.0.1"], [], none⟩]

/-- What their imports find. -/
def twoEnvs : List RegisterEnv := [⟨7, 1, publicResolver⟩, ⟨8, 1, publicResolver⟩]

end ServiceRegistry

end XiraNet

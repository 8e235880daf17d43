import XiraNet.Config.XiraConfig
import XiraNet.Middleware.Jwt
import XiraNet.Registry.Registry

/-!
# Start from a configuration

What the start (`main.rs`, `bootstrap/state.rs`) makes of a configuration that the validation
accepts: the middleware for tokens, the periods of the background tasks, which must not be zero, and
the registry with the configured services.

* `new_isOk_iff`: the middleware is made unless the algorithm is not supported.
* `lookup_loadFromConfig_iff`: when every configured service is registered.
* `boots_iff`: when the start succeeds.
-/

namespace XiraNet

/-- The periods that `AppState::init` passes to `tokio::time::interval`: those of the rate limiter,
of the synchronization, of Docker discovery and of the health checker. -/
def bootPeriods (cfg : XiraConfig) : List ℕ :=
  [30, 1] ++ (if cfg.discovery.dockerEnabled then [max cfg.discovery.intervalSecs 10] else []) ++
    [cfg.health.intervalSecs]

/-- The start succeeds and every configured service is registered. -/
structure Boots (env : ConfigEnv) (cfg : XiraConfig) (r : ServiceRegistry)
    (svcs : List (Uuid × DateTime × ServiceConfig)) : Prop where
  jwt : ∃ jwt, JwtAuth.new env.fromRsaPem cfg.jwt.secret cfg.jwt.algorithm cfg.jwt.issuer
    cfg.jwt.enabled = .ok jwt
  periods : ∀ period ∈ bootPeriods cfg, period ≠ 0
  services : ∀ svc ∈ svcs, (r.loadFromConfig svcs).services.lookup svc.1 =
    some (ServiceRegistry.entryOfConfig svc.1 svc.2.1 svc.2.2)

/-- The name of a supported algorithm, in any case. -/
def SupportedAlgorithm (name : String) : Prop :=
  Text.toUppercase name ∈ ["HS256", "HS384", "HS512", "RS256"]

instance (name : String) : Decidable (SupportedAlgorithm name) :=
  inferInstanceAs (Decidable (_ ∈ _))

/-- The form in which `find_by_prefix` looks up a prefix. -/
def lookedUpPrefix (pathPrefix : String) : String :=
  if Text.startsWith pathPrefix "/" then Text.trimEndMatches pathPrefix '/'
  else "/" ++ Text.trimEndMatches pathPrefix '/'

/-- What a document must have for its configuration to boot: a section for tokens whose algorithm is
supported, a period for the health checker, and no service that is looked up under the stored prefix
of an earlier one. -/
structure Bootable (doc : Toml) (cfg : XiraConfig) : Prop where
  jwt : ∃ t, doc.get "jwt" = some t ∧
    ∀ name, t.get "algorithm" = some (.string name) → SupportedAlgorithm name
  health : cfg.health.intervalSecs ≠ 0
  prefixes : cfg.services.Pairwise fun a b =>
    ServiceEntry.normalizePrefix a.pathPrefix ≠ lookedUpPrefix b.pathPrefix

section Jwt

variable {env : ConfigEnv} {cfg : XiraConfig}

/-- The algorithms that are parsed. -/
theorem parseAlgorithm_isOk_iff {name : String} :
    (∃ algorithm, JwtAuth.parseAlgorithm name = .ok algorithm) ↔ SupportedAlgorithm name := by
  unfold JwtAuth.parseAlgorithm SupportedAlgorithm
  dsimp only
  split_ifs <;> simp_all

/-- The validation asks of an enabled middleware what its making asks of it. -/
theorem parseKey_isOk {algorithm : Algorithm} (hvalid : (cfg.validateJwt env).ok = true)
    (henabled : cfg.jwt.enabled = true)
    (halgorithm : JwtAuth.parseAlgorithm cfg.jwt.algorithm = .ok algorithm) :
    JwtAuth.isDefaultJwtSecret cfg.jwt.secret = false ∧
      ∃ key, JwtAuth.parseKey env.fromRsaPem algorithm cfg.jwt.secret = .ok key := by
  rw [XiraConfig.validateJwt, if_pos henabled] at hvalid
  dsimp only at hvalid
  rw [ValidationReport.ok_append, Bool.and_eq_true, ValidationReport.ok_errorIf,
    Bool.not_eq_true] at hvalid
  obtain ⟨hdefault, hvalid⟩ := hvalid
  refine ⟨hdefault, ?_⟩
  unfold JwtAuth.parseAlgorithm at halgorithm
  dsimp only at halgorithm
  split at hvalid
  next hname =>
    -- The HMAC algorithms differ in their names only.
    rw [ValidationReport.ok_errorIf] at hvalid
    have hkey : ∀ a, a = .hs256 ∨ a = .hs384 ∨ a = .hs512 →
        ∃ key, JwtAuth.parseKey env.fromRsaPem a cfg.jwt.secret = .ok key := by
      rintro a (rfl | rfl | rfl) <;> exact ⟨_, if_neg hvalid⟩
    apply hkey
    obtain hname | hname | hname := hname <;> simp_all
  next hname =>
    split at hvalid
    next hrsa =>
      rw [ValidationReport.ok_errorIf, Bool.not_eq_false] at hvalid
      obtain rfl : Algorithm.rs256 = algorithm := by simpa [hrsa] using halgorithm
      cases hpem : env.fromRsaPem cfg.jwt.secret with
      | error e =>
          rw [hpem] at hvalid
          cases hvalid
      | ok _ => exact ⟨.rsaPem cfg.jwt.secret, by rw [JwtAuth.parseKey, hpem]⟩
    next => cases hvalid

/-- The middleware for tokens is made of a valid configuration unless its algorithm is not
supported. -/
theorem new_isOk_iff (hvalid : (cfg.validateJwt env).ok = true) :
    (∃ jwt, JwtAuth.new env.fromRsaPem cfg.jwt.secret cfg.jwt.algorithm cfg.jwt.issuer
      cfg.jwt.enabled = .ok jwt) ↔ SupportedAlgorithm cfg.jwt.algorithm := by
  rw [← parseAlgorithm_isOk_iff, JwtAuth.new, JwtAuth.newWithAudience]
  cases halgorithm : JwtAuth.parseAlgorithm cfg.jwt.algorithm with
  | error e => simp
  | ok algorithm =>
      refine iff_of_true ?_ ⟨algorithm, rfl⟩
      dsimp only
      split
      next => exact ⟨_, rfl⟩
      next henabled =>
        obtain ⟨hdefault, key, hkey⟩ :=
          parseKey_isOk hvalid (Bool.not_eq_false _ ▸ henabled) halgorithm
        rw [if_neg (by simp [hdefault]), hkey]
        exact ⟨_, rfl⟩

/-- The algorithm of a configuration is supported only if the document has a section for tokens,
where it has a default. -/
theorem supportedAlgorithm_iff {doc : Toml} (hread : XiraConfig.read doc = some cfg) :
    SupportedAlgorithm cfg.jwt.algorithm ↔
      ∃ t, doc.get "jwt" = some t ∧
        ∀ name, t.get "algorithm" = some (.string name) → SupportedAlgorithm name := by
  have hjwt : doc.field "jwt" JwtConfig.read (some .default) = some cfg.jwt := by
    -- The sections before `[jwt]`, and those behind it.
    iterate 7 obtain ⟨_, -, hread⟩ := Option.bind_eq_some_iff.mp hread
    obtain ⟨jwt, hjwt, hread⟩ := Option.bind_eq_some_iff.mp hread
    iterate 8 obtain ⟨_, -, hread⟩ := Option.bind_eq_some_iff.mp hread
    cases hread
    exact hjwt
  obtain ⟨t, ht, hread⟩ | ⟨hnone, hdefault⟩ := Toml.field_eq_some hjwt
  · simp only [JwtConfig.read, Option.bind_eq_bind, Option.bind_eq_some_iff, Option.pure_def,
      Option.some.injEq] at hread
    obtain ⟨_, -, _, -, algorithm, halgorithm, _, -, hcfg⟩ := hread
    rw [← hcfg]
    simp only [ht, Option.some.injEq, exists_eq_left']
    obtain ⟨value, hvalue, hstring⟩ | ⟨hnone, hdefault⟩ := Toml.field_eq_some halgorithm
    · rw [hvalue]
      cases value with
      | string s =>
          cases hstring
          simp
      | _ => cases hstring
    · cases hdefault
      simp only [hnone]
      exact iff_of_true (by decide) (fun _ h => nomatch h)
  · rw [hnone, ← Option.some.inj hdefault]
    exact iff_of_false (by decide) (fun ⟨_, h, _⟩ => nomatch h)

end Jwt

namespace ServiceRegistry

variable {r : ServiceRegistry}

/-- A prefix is found if it is looked up in the form in which it is stored. -/
theorem isSome_findByPrefix_iff {pathPrefix : String} :
    (r.findByPrefix pathPrefix).isSome = true ↔
      ∃ entry ∈ r.services.values, entry.pathPrefix = lookedUpPrefix pathPrefix := by
  simp [findByPrefix, lookedUpPrefix]

/-- The services of other ids are not touched. -/
theorem lookup_loadFromConfig_of_notMem {svcs : List (Uuid × DateTime × ServiceConfig)} {id : Uuid}
    (hid : id ∉ svcs.map Prod.fst) :
    (r.loadFromConfig svcs).services.lookup id = r.services.lookup id := by
  induction svcs generalizing r with
  | nil => rfl
  | cons svc svcs ih =>
      rw [List.map_cons, List.mem_cons, not_or] at hid
      rw [loadFromConfig, List.foldl_cons]
      refine (ih hid.2).trans ?_
      unfold loadEntry
      split
      next => rfl
      next => exact AList.lookup_insert_ne hid.1

/-- Every configured service is registered exactly if none is looked up under a prefix that is
stored before it. -/
theorem lookup_loadFromConfig_iff {svcs : List (Uuid × DateTime × ServiceConfig)}
    (hids : (svcs.map Prod.fst).Nodup) (hfresh : ∀ svc ∈ svcs, r.services.lookup svc.1 = none) :
    (∀ svc ∈ svcs, (r.loadFromConfig svcs).services.lookup svc.1 =
        some (entryOfConfig svc.1 svc.2.1 svc.2.2)) ↔
      (∀ svc ∈ svcs, ∀ entry ∈ r.services.values,
          entry.pathPrefix ≠ lookedUpPrefix svc.2.2.pathPrefix) ∧
        svcs.Pairwise fun a b =>
          ServiceEntry.normalizePrefix a.2.2.pathPrefix ≠ lookedUpPrefix b.2.2.pathPrefix := by
  induction svcs generalizing r with
  | nil => simp
  | cons svc svcs ih =>
      obtain ⟨hid, hids⟩ := List.nodup_cons.mp hids
      have hrest : (r.loadFromConfig (svc :: svcs)) =
          (r.loadEntry svc.1 svc.2.1 svc.2.2).loadFromConfig svcs := rfl
      rw [List.forall_mem_cons, List.forall_mem_cons, List.pairwise_cons, hrest,
        lookup_loadFromConfig_of_notMem hid]
      by_cases hfound : (r.findByPrefix svc.2.2.pathPrefix).isSome = true
      · -- The service is skipped.
        rw [loadEntry, if_pos hfound, hfresh svc List.mem_cons_self]
        refine iff_of_false (fun h => nomatch h.1) ?_
        obtain ⟨entry, hentry, hprefix⟩ := isSome_findByPrefix_iff.mp hfound
        exact fun h => h.1.1 entry hentry hprefix
      · -- The service is registered, in its stored form.
        have hnone := fun entry hentry hprefix =>
          hfound (isSome_findByPrefix_iff.mpr ⟨entry, hentry, hprefix⟩)
        have hservices : (r.loadEntry svc.1 svc.2.1 svc.2.2).services =
            r.services.insert svc.1 (entryOfConfig svc.1 svc.2.1 svc.2.2) := by
          rw [loadEntry, if_neg hfound]
          rfl
        have hne : ∀ svc' ∈ svcs, svc'.1 ≠ svc.1 := by
          rintro svc' hsvc' heq
          exact hid (heq ▸ List.mem_map_of_mem hsvc')
        have hfresh' : ∀ svc' ∈ svcs,
            (r.loadEntry svc.1 svc.2.1 svc.2.2).services.lookup svc'.1 = none := by
          intro svc' hsvc'
          rw [hservices, AList.lookup_insert_ne (hne svc' hsvc')]
          exact hfresh svc' (List.mem_cons_of_mem _ hsvc')
        have hvalues : ∀ entry, entry ∈ (r.loadEntry svc.1 svc.2.1 svc.2.2).services.values ↔
            entry = entryOfConfig svc.1 svc.2.1 svc.2.2 ∨ entry ∈ r.services.values := by
          intro entry
          simp only [hservices, DashMap.mem_values_iff, DashMap.lookup_insert]
          constructor
          · rintro ⟨k, hk⟩
            split at hk
            · exact .inl (Option.some.inj hk).symm
            · exact .inr ⟨k, hk⟩
          · rintro (rfl | ⟨k, hk⟩)
            · exact ⟨svc.1, if_pos rfl⟩
            · refine ⟨k, ?_⟩
              rw [if_neg, hk]
              rintro rfl
              exact nomatch (hfresh svc List.mem_cons_self).symm.trans hk
        rw [ih hids hfresh']
        simp only [hvalues, forall_eq_or_imp]
        rw [hservices, AList.lookup_insert, eq_self, true_and]
        constructor
        · rintro ⟨hentries, hpairs⟩
          refine ⟨⟨hnone, fun svc' h => (hentries svc' h).2⟩, ?_, hpairs⟩
          exact fun svc' h => (hentries svc' h).1
        · rintro ⟨⟨-, hentries⟩, hfirst, hpairs⟩
          exact ⟨fun svc' h => ⟨hfirst svc' h, hentries svc' h⟩, hpairs⟩

end ServiceRegistry

/-- The start from a valid configuration succeeds exactly if its document has a section for tokens
whose algorithm is supported, the health checker has a period, and no service is looked up under the
stored prefix of an earlier one. -/
theorem boots_iff (env : ConfigEnv) {doc : Toml} {cfg : XiraConfig} {r : ServiceRegistry}
    {svcs : List (Uuid × DateTime × ServiceConfig)} (hread : XiraConfig.read doc = some cfg)
    (hvalid : (cfg.validate env).ok = true) (hempty : r.services = ∅)
    (hsvcs : svcs.map (·.2.2) = cfg.services) (hids : (svcs.map Prod.fst).Nodup) :
    Boots env cfg r svcs ↔ Bootable doc cfg := by
  have hjwt := (new_isOk_iff (XiraConfig.ok_validate_iff.mp hvalid).2.1).trans
    (supportedAlgorithm_iff hread)
  have hperiods : (∀ period ∈ bootPeriods cfg, period ≠ 0) ↔ cfg.health.intervalSecs ≠ 0 := by
    unfold bootPeriods
    split <;> simp
  have hservices := ServiceRegistry.lookup_loadFromConfig_iff (r := r) hids
    (fun svc _ => by rw [hempty, AList.lookup_empty])
  have hprefixes : (svcs.Pairwise fun a b =>
      ServiceEntry.normalizePrefix a.2.2.pathPrefix ≠ lookedUpPrefix b.2.2.pathPrefix) ↔
      cfg.services.Pairwise fun a b =>
        ServiceEntry.normalizePrefix a.pathPrefix ≠ lookedUpPrefix b.pathPrefix := by
    rw [← hsvcs, List.pairwise_map]
  -- Nothing is registered before the first service of the file.
  have hnone : ∀ svc ∈ svcs, ∀ entry ∈ r.services.values,
      entry.pathPrefix ≠ lookedUpPrefix svc.2.2.pathPrefix := by
    intro svc _ entry hentry
    rw [hempty] at hentry
    cases hentry
  rw [hprefixes, and_iff_right hnone] at hservices
  constructor
  · exact fun h => ⟨hjwt.mp h.jwt, hperiods.mp h.periods, hservices.mp h.services⟩
  · exact fun h => ⟨hjwt.mpr h.jwt, hperiods.mpr h.health, hservices.mpr h.prefixes⟩

/-- Surroundings without any file. -/
def noFiles : ConfigEnv := ⟨fun _ => false, fun _ => .error "invalid key"⟩

/-- The sections that must be there, with a period for the health checker. -/
def requiredSections (intervalSecs : ℤ) : List (String × Toml) :=
  [("gateway", .table [("host", .string "127.0.0.1"), ("port", .integer 9000)]),
    ("admin", .table [("api_key", .string "k"), ("enabled", .boolean true)]),
    ("health", .table [("interval_secs", .integer intervalSecs), ("timeout_secs", .integer 5)])]

/-- A document with an empty section for tokens and services under prefixes. -/
def servicesDoc (prefixes : List String) : Toml :=
  .table <| requiredSections 30 ++
    [("jwt", .table []),
      ("services", .array <| prefixes.map fun p =>
        .table [("name", .string "s"), ("prefix", .string p), ("upstream", .string "http://u")])]

/-- The services of a configuration, with ids. -/
def numbered (cfg : XiraConfig) : List (Uuid × DateTime × ServiceConfig) :=
  cfg.services.zipIdx.map fun svc => (svc.2, 0, svc.1)

/-- Two services under different prefixes are registered. -/
theorem boots_iff_two : ∃ cfg, XiraConfig.read (servicesDoc ["/a", "/b"]) = some cfg ∧
    (cfg.validate noFiles).ok = true ∧ Boots noFiles cfg .new (numbered cfg) := by
  have hread : XiraConfig.read (servicesDoc ["/a", "/b"]) = some _ := rfl
  refine ⟨_, hread, by decide +kernel,
    (boots_iff noFiles hread (by decide +kernel) rfl rfl (by decide +kernel)).mpr ?_⟩
  exact ⟨⟨.table [], rfl, fun _ h => nomatch h⟩, by decide, by decide +kernel⟩

/-- A document without a section for tokens, one with a period of zero and one with two spellings
of a prefix are valid, and do not boot. -/
theorem boots_fails :
    (∃ cfg, XiraConfig.read (.table (requiredSections 30)) = some cfg ∧
        (cfg.validate noFiles).ok = true ∧ ¬ Boots noFiles cfg .new (numbered cfg)) ∧
      (∃ cfg, XiraConfig.read (.table (("jwt", .table []) :: requiredSections 0)) = some cfg ∧
        (cfg.validate noFiles).ok = true ∧ ¬ Boots noFiles cfg .new (numbered cfg)) ∧
      ∃ cfg, XiraConfig.read (servicesDoc ["/a", "/a/"]) = some cfg ∧
        (cfg.validate noFiles).ok = true ∧ ¬ Boots noFiles cfg .new (numbered cfg) := by
  refine ⟨⟨_, rfl, by decide +kernel, ?_⟩, ⟨_, rfl, by decide +kernel, ?_⟩,
    ⟨_, rfl, by decide +kernel, ?_⟩⟩
  · exact fun h => absurd ((new_isOk_iff rfl).mp h.jwt) (by decide)
  · exact fun h => h.periods 0 (by decide) rfl
  · intro h
    have hprefixes := (ServiceRegistry.lookup_loadFromConfig_iff (by decide) fun _ _ => rfl).mp
      h.services
    exact absurd hprefixes.2 (by decide +kernel)

end XiraNet

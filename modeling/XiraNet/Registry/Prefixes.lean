import XiraNet.Registry.Durability

/-!
# Prefixes of registered services

A registration stores the prefix that `ServiceEntry::new` makes of the given one
(`registry/models.rs`), and looks for a service to replace with `find_by_prefix`
(`registry/mod.rs`), which normalises the prefix anew. The two differ on the empty string alone:
it is stored as the empty string and looked up as `/`.

* `inv_step`: what every call that changes the registered services keeps.
* `prefixes_throughout_iff`: when the stored prefixes stay distinct, and when `find_by_prefix` finds
  what is stored.
* `prefixes_fail`: two services with the prefix `""`.
-/

namespace XiraNet

namespace ServiceEntry

/-- A prefix as it is stored: empty, or with a leading slash, and in any case without a trailing
slash. -/
def IsNormal (pathPrefix : String) : Prop :=
  (pathPrefix = "" ∨ Text.startsWith pathPrefix "/" = true) ∧
    Text.endsWith pathPrefix "/" = false

/-- What trimming leaves does not end with the character. -/
theorem endsWith_trimEndMatches (s : String) :
    Text.endsWith (Text.trimEndMatches s '/') "/" = false := by
  rw [Bool.eq_false_iff, Ne, Text.endsWith_iff]
  rintro ⟨before, hbefore⟩
  have hlist : s.toList.rdropWhile (· = '/') = before ++ ['/'] :=
    String.toList_ofList.symm.trans hbefore.symm
  have hne : s.toList.rdropWhile (· = '/') ≠ [] := by simp [hlist]
  have hlast := List.rdropWhile_last_not (p := fun c => decide (c = '/')) s.toList hne
  simp [hlist] at hlast

/-- Trimming at the end leaves the start as it is, if it leaves anything. -/
theorem startsWith_trimEndMatches {s : String} (hstart : Text.startsWith s "/" = true) :
    Text.trimEndMatches s '/' = "" ∨ Text.startsWith (Text.trimEndMatches s '/') "/" = true := by
  by_cases hempty : Text.trimEndMatches s '/' = ""
  · exact .inl hempty
  · right
    obtain ⟨k, hk⟩ := Text.exists_trimEndMatches s '/'
    rw [Text.startsWith_iff, hk] at hstart
    rw [Text.startsWith_iff]
    cases hlist : (Text.trimEndMatches s '/').toList with
    | nil => exact absurd (String.toList_eq_nil_iff.mp hlist) hempty
    | cons c cs =>
        rw [hlist] at hstart
        simpa using hstart

/-- A stored prefix is normal. -/
theorem isNormal_normalizePrefix (given : String) : IsNormal (normalizePrefix given) := by
  refine ⟨?_, endsWith_trimEndMatches _⟩
  unfold normalizePrefix
  apply startsWith_trimEndMatches
  by_cases hslash : Text.startsWith given "/" = true
  · rw [if_pos hslash]
    exact hslash
  · rw [if_neg hslash, Text.startsWith_iff, String.toList_append]
    exact List.prefix_append _ _

/-- No normal prefix is a slash. -/
theorem IsNormal.ne_slash {pathPrefix : String} (h : IsNormal pathPrefix) : pathPrefix ≠ "/" := by
  rintro rfl
  exact absurd h.2 (by decide)

/-- A prefix is stored as the empty string exactly if it has no other characters than slashes. -/
theorem normalizePrefix_eq_empty_iff (given : String) :
    normalizePrefix given = "" ↔ ∀ c ∈ given.toList, c = '/' := by
  have htrim : ∀ s : String, Text.trimEndMatches s '/' = "" ↔ ∀ c ∈ s.toList, c = '/' := by
    intro s
    rw [Text.trimEndMatches, ← String.toList_inj, String.toList_ofList, String.toList_empty,
      List.rdropWhile_eq_nil_iff]
    simp
  unfold normalizePrefix
  rw [htrim]
  split
  next => rfl
  next => simp

end ServiceEntry

/-- A call that changes which services are registered. `load_from_config` is one `loadEntry` after
the other. -/
inductive RegistryCall
  | register (id : Uuid) (now : DateTime) (name pathPrefix upstream healthEndpoint : String)
  | registerAdvanced (id : Uuid) (now : DateTime) (req : RegisterServiceRequest)
  | loadEntry (id : Uuid) (now : DateTime) (svc : ServiceConfig)
  | unregister (id : Uuid)
  deriving DecidableEq, Repr

/-- The prefix that a call is given. -/
def RegistryCall.given : RegistryCall → Option String
  | .register _ _ _ pathPrefix _ _ => some pathPrefix
  | .registerAdvanced _ _ req => some req.pathPrefix
  | .loadEntry _ _ svc => some svc.pathPrefix
  | .unregister _ => none

namespace ServiceRegistry

/-- A registry after a call. The ids that are drawn are not in use. -/
def step (r : ServiceRegistry) : RegistryCall → Option ServiceRegistry
  | .register id now name pathPrefix upstream healthEndpoint =>
      if (r.services.lookup id).isSome then none
      else some (r.register id now name pathPrefix upstream healthEndpoint).2
  | .registerAdvanced id now req =>
      if (r.services.lookup id).isSome then none else some (r.registerAdvanced id now req).2
  | .loadEntry id now svc =>
      if (r.services.lookup id).isSome then none else some (r.loadEntry id now svc)
  | .unregister id => some (r.unregister id).2

/-- Every sequence of calls. -/
def machine : Machine ServiceRegistry RegistryCall := ⟨step⟩

/-- A registry without services, with or without a storage. -/
def initial (storage : Option SqliteStorage) : ServiceRegistry := ⟨∅, storage⟩

/-- The stored prefixes are pairwise distinct. -/
def PrefixesDistinct (r : ServiceRegistry) : Prop :=
  ∀ id id' entry entry', r.services.lookup id = some entry → r.services.lookup id' = some entry' →
    entry.pathPrefix = entry'.pathPrefix → id = id'

/-- `find_by_prefix` finds the service that a registration would store under the same prefix, and
nothing else. -/
def FindsStored (r : ServiceRegistry) : Prop :=
  ∀ given entry, r.findByPrefix given = some entry ↔
    entry ∈ r.services.values ∧ entry.pathPrefix = ServiceEntry.normalizePrefix given

/-- What holds of the services whatever is called: they stand under their ids, with normal
prefixes. -/
structure Stored (r : ServiceRegistry) : Prop where
  keyed : ∀ id entry, r.services.lookup id = some entry → entry.id = id
  normal : ∀ id entry, r.services.lookup id = some entry → ServiceEntry.IsNormal entry.pathPrefix

/-- The calls that keep the prefixes distinct. -/
def KeepsDistinct (r : ServiceRegistry) (call : RegistryCall) : Prop :=
  ∀ given ∈ call.given, r.NoEmptyClash given

/-- The calls that do not register the root: a prefix that is given has a character other than
slashes. -/
def RegistersNoRoot (_ : ServiceRegistry) (call : RegistryCall) : Prop :=
  ∀ given ∈ call.given, ∃ c ∈ given.toList, c ≠ '/'

instance (r : ServiceRegistry) (call : RegistryCall) : Decidable (r.KeepsDistinct call) :=
  inferInstanceAs (Decidable (∀ given ∈ call.given, _))

instance (r : ServiceRegistry) (call : RegistryCall) : Decidable (r.RegistersNoRoot call) :=
  haveI (given : String) : Decidable (∃ c ∈ given.toList, c ≠ '/') := List.decidableBEx _ _
  inferInstanceAs (Decidable (∀ given ∈ call.given, ∃ c ∈ given.toList, c ≠ '/'))

variable {r r' : ServiceRegistry} {call : RegistryCall}

/-- What a call does: it makes room for a new service and stores it, or finds its prefix in use and
does nothing, or removes a service. -/
theorem step_cases (h : r.step call = some r') :
    (∃ given entry, call.given = some given ∧
        entry.pathPrefix = ServiceEntry.normalizePrefix given ∧
        r.services.lookup entry.id = none ∧
        r' = (r.replaceExisting given).insertEntry entry) ∨
      (∃ given, call.given = some given ∧ (r.findByPrefix given).isSome ∧ r' = r) ∨
      call.given = none ∧ ∃ id, ∀ id', r'.services.lookup id' =
        if id' = id then none else r.services.lookup id' := by
  cases call with
  | register id now name pathPrefix upstream healthEndpoint =>
      obtain ⟨hnew, rfl⟩ := Option.ite_none_left_eq_some.mp h |>.imp_right Option.some.inj
      exact .inl ⟨pathPrefix, .new id now name pathPrefix upstream healthEndpoint, rfl, rfl,
        Option.not_isSome_iff_eq_none.mp hnew, rfl⟩
  | registerAdvanced id now req =>
      obtain ⟨hnew, rfl⟩ := Option.ite_none_left_eq_some.mp h |>.imp_right Option.some.inj
      exact .inl ⟨req.pathPrefix, entryOfRequest id now req, rfl, rfl,
        Option.not_isSome_iff_eq_none.mp hnew, rfl⟩
  | loadEntry id now svc =>
      obtain ⟨hnew, rfl⟩ := Option.ite_none_left_eq_some.mp h |>.imp_right Option.some.inj
      -- The other two replace a service with the prefix; this call leaves it alone.
      unfold loadEntry
      split
      next hfound => exact .inr (.inl ⟨svc.pathPrefix, rfl, hfound, rfl⟩)
      next hfree =>
        refine .inl ⟨svc.pathPrefix, entryOfConfig id now svc, rfl, rfl,
          Option.not_isSome_iff_eq_none.mp hnew, ?_⟩
        rw [replaceExisting, Option.not_isSome_iff_eq_none.mp hfree]
  | unregister id =>
      cases h
      refine .inr (.inr ⟨rfl, id, fun id' => ?_⟩)
      unfold unregister
      cases hentry : r.services.lookup id with
      | some entry => exact DashMap.lookup_erase r.services id id'
      | none =>
          dsimp only
          split
          next heq => rw [heq, hentry]
          next => rfl

/-- What is left of the services when room is made for a new one. -/
theorem lookup_replaceExisting (given : String) (id : Uuid) :
    (r.replaceExisting given).services.lookup id =
      if ∃ existing ∈ r.findByPrefix given, existing.id = id then none
      else r.services.lookup id := by
  unfold replaceExisting
  cases r.findByPrefix given with
  | none => simp
  | some existing =>
      rw [services_persist, DashMap.lookup_erase]
      simp [eq_comm]

/-- A service that is found after a registration is the new one or was there before, under another
prefix if prefixes are distinct. -/
theorem lookup_registered {given : String} {entry : ServiceEntry} {id : Uuid} {found : ServiceEntry}
    (h : ((r.replaceExisting given).insertEntry entry).services.lookup id = some found) :
    id = entry.id ∧ found = entry ∨ id ≠ entry.id ∧ r.services.lookup id = some found ∧
      ∀ existing ∈ r.findByPrefix given, existing.id ≠ id := by
  rcases DashMap.lookup_insert_cases h with ⟨rfl, rfl⟩ | ⟨hne, hold⟩
  · exact .inl ⟨rfl, rfl⟩
  · rw [services_persist, lookup_replaceExisting] at hold
    split at hold
    next => cases hold
    next hkept =>
      exact .inr ⟨hne, hold, fun existing hfind hid => hkept ⟨existing, hfind, hid⟩⟩

/-- A new service is found under its id. -/
theorem lookup_insertEntry_self (entry : ServiceEntry) :
    (r.insertEntry entry).services.lookup entry.id = some entry :=
  AList.lookup_insert _

/-- A service that is found after a removal was there before. -/
theorem lookup_unregistered {id : Uuid}
    (hlookup : ∀ id', r'.services.lookup id' = if id' = id then none else r.services.lookup id')
    {id' : Uuid} {entry : ServiceEntry} (h : r'.services.lookup id' = some entry) :
    r.services.lookup id' = some entry := by
  rw [hlookup] at h
  split at h
  next => cases h
  next => exact h

/-- Every call keeps what holds of the services. -/
theorem stored_step (hs : r.Stored) (h : r.step call = some r') : r'.Stored := by
  rcases step_cases h with ⟨given, entry, -, hentry, -, rfl⟩ | ⟨_, -, -, rfl⟩ | ⟨-, id, hlookup⟩
  · constructor
    · intro id found hfound
      rcases lookup_registered hfound with ⟨rfl, rfl⟩ | ⟨-, hold, -⟩
      · rfl
      · exact hs.keyed id found hold
    · intro id found hfound
      rcases lookup_registered hfound with ⟨rfl, rfl⟩ | ⟨-, hold, -⟩
      · rw [hentry]
        exact ServiceEntry.isNormal_normalizePrefix given
      · exact hs.normal id found hold
  · exact hs
  · exact ⟨fun _ _ hentry => hs.keyed _ _ (lookup_unregistered hlookup hentry),
      fun _ _ hentry => hs.normal _ _ (lookup_unregistered hlookup hentry)⟩

/-- What `find_by_prefix` finds is registered. -/
theorem Stored.lookup_of_findByPrefix (hs : r.Stored) {given : String} {existing : ServiceEntry}
    (hfind : r.findByPrefix given = some existing) :
    r.services.lookup existing.id = some existing := by
  obtain ⟨id, hid⟩ := (DashMap.mem_values_iff _ _).mp (List.mem_of_find?_eq_some hfind)
  rwa [hs.keyed id existing hid]

/-- Nothing is found under the empty string. -/
theorem Stored.findByPrefix_empty (hs : r.Stored) : r.findByPrefix "" = none := by
  apply List.find?_eq_none.mpr
  intro entry hmem
  obtain ⟨id, hid⟩ := (DashMap.mem_values_iff _ _).mp hmem
  have hne : entry.pathPrefix ≠ "/" := (hs.normal id entry hid).ne_slash
  simpa [Text.startsWith, Text.trimEndMatches] using hne

/-- The invariant: the services are stored with distinct prefixes. -/
structure Inv (r : ServiceRegistry) : Prop extends r.Stored where
  distinct : r.PrefixesDistinct

/-- A prefix other than the empty string is found exactly where a service is stored under it. -/
theorem Inv.findByPrefix_eq_some_iff (hs : r.Inv) {given : String} (hne : given ≠ "")
    (entry : ServiceEntry) :
    r.findByPrefix given = some entry ↔
      entry ∈ r.services.values ∧ entry.pathPrefix = ServiceEntry.normalizePrefix given := by
  rw [findByPrefix_eq hne]
  constructor
  · intro hfind
    exact ⟨List.mem_of_find?_eq_some hfind, by simpa using List.find?_some hfind⟩
  · rintro ⟨hmem, hpath⟩
    cases hfind : r.services.values.find? fun e =>
        decide (e.pathPrefix = ServiceEntry.normalizePrefix given) with
    | none => exact absurd hpath (by simpa using List.find?_eq_none.mp hfind entry hmem)
    | some found =>
        -- Two services with one prefix are the same.
        have hfound : found.pathPrefix = ServiceEntry.normalizePrefix given := by
          simpa using List.find?_some hfind
        obtain ⟨id, hid⟩ := (DashMap.mem_values_iff _ _).mp hmem
        obtain ⟨id', hid'⟩ := (DashMap.mem_values_iff _ _).mp (List.mem_of_find?_eq_some hfind)
        obtain rfl := hs.distinct id id' entry found hid hid' (hpath.trans hfound.symm)
        exact hid'.symm.trans hid

/-- A call without a clash keeps the invariant. -/
theorem inv_step (hs : r.Inv) (hok : r.KeepsDistinct call) (h : r.step call = some r') :
    r'.Inv := by
  refine ⟨stored_step hs.toStored h, ?_⟩
  rcases step_cases h with ⟨given, entry, hgiven, hentry, hnew, rfl⟩ | ⟨_, -, -, rfl⟩ |
    ⟨-, id, hlookup⟩
  · -- The prefix of the new service is free when room has been made for it.
    have hfree : ∀ id found, r.services.lookup id = some found →
        (∀ existing ∈ r.findByPrefix given, existing.id ≠ id) →
          found.pathPrefix ≠ entry.pathPrefix := by
      intro id found hfound hkept hsame
      rw [hentry] at hsame
      cases hfind : r.findByPrefix given with
      | none => exact pathPrefix_ne_of_findByPrefix_none (hok given hgiven) hfind hfound hsame
      | some existing =>
          have hne : given ≠ "" := by
            rintro rfl
            rw [hs.findByPrefix_empty] at hfind
            cases hfind
          have hmem : found ∈ r.services.values := (DashMap.mem_values_iff _ _).mpr ⟨id, hfound⟩
          have hfound' := (hs.findByPrefix_eq_some_iff hne found).mpr ⟨hmem, hsame⟩
          rw [hfind] at hfound'
          cases hfound'
          exact hkept _ hfind (hs.keyed id _ hfound)
    intro id id' found found' hfound hfound' hsame
    rcases lookup_registered hfound with ⟨rfl, rfl⟩ | ⟨-, hold, hkept⟩
    · rcases lookup_registered hfound' with ⟨rfl, -⟩ | ⟨-, hold', hkept'⟩
      · rfl
      · exact absurd hsame.symm (hfree id' found' hold' hkept')
    · rcases lookup_registered hfound' with ⟨rfl, rfl⟩ | ⟨-, hold', -⟩
      · exact absurd hsame (hfree id found hold hkept)
      · exact hs.distinct id id' found found' hold hold' hsame
  · exact hs.distinct
  · intro id₁ id₂ found found' hfound hfound'
    exact hs.distinct id₁ id₂ found found' (lookup_unregistered hlookup hfound)
      (lookup_unregistered hlookup hfound')

/-- A call with a clash leaves two services with the empty prefix. -/
theorem not_prefixesDistinct_step (hs : r.Inv) (hbad : ¬ r.KeepsDistinct call)
    (h : r.step call = some r') : ¬ r'.PrefixesDistinct := by
  unfold KeepsDistinct NoEmptyClash at hbad
  push Not at hbad
  obtain ⟨_, hgiven, rfl, old, hold, hempty⟩ := hbad
  obtain ⟨id, hid⟩ := (DashMap.mem_values_iff _ _).mp hold
  have hnone := hs.findByPrefix_empty
  intro hdistinct
  rcases step_cases h with ⟨given, entry, hgiven', hentry, hnew, rfl⟩ |
    ⟨given, hgiven', hfound, -⟩ | ⟨hgiven', -⟩
  · cases hgiven.symm.trans hgiven'
    have hne : id ≠ entry.id := by
      rintro rfl
      rw [hnew] at hid
      cases hid
    have hkept : ((r.replaceExisting "").insertEntry entry).services.lookup id = some old := by
      rw [insertEntry, DashMap.lookup_insert, if_neg hne, services_persist, replaceExisting, hnone]
      exact hid
    -- Both prefixes are empty, and the ids are not the same.
    refine hne (hdistinct id entry.id old entry hkept (lookup_insertEntry_self entry) ?_)
    rw [hempty, hentry]
    decide
  · cases hgiven.symm.trans hgiven'
    rw [hnone] at hfound
    cases hfound
  · cases hgiven.symm.trans hgiven'

/-- The invariant of runs that do not register the root. -/
structure Rootless (r : ServiceRegistry) : Prop extends r.Inv where
  nonempty : ∀ id entry, r.services.lookup id = some entry → entry.pathPrefix ≠ ""

/-- Without the root `find_by_prefix` finds what is stored. -/
theorem Rootless.findsStored (hs : r.Rootless) : r.FindsStored := by
  intro given entry
  by_cases hne : given = ""
  · subst hne
    rw [hs.findByPrefix_empty]
    refine iff_of_false (by simp) ?_
    rintro ⟨hmem, hempty⟩
    obtain ⟨id, hid⟩ := (DashMap.mem_values_iff _ _).mp hmem
    exact hs.nonempty id entry hid (hempty.trans (by decide))
  · exact hs.findByPrefix_eq_some_iff hne entry

/-- Without the root no empty prefix is given where one is stored. -/
theorem keepsDistinct_of_registersNoRoot (h : r.RegistersNoRoot call) : r.KeepsDistinct call := by
  intro given hgiven hempty
  subst hempty
  obtain ⟨_, hc, -⟩ := h "" hgiven
  simp at hc

/-- A call that does not register the root keeps the invariant. -/
theorem rootless_step (hs : r.Rootless) (hok : r.RegistersNoRoot call)
    (h : r.step call = some r') : r'.Rootless := by
  refine ⟨inv_step hs.toInv (keepsDistinct_of_registersNoRoot hok) h, ?_⟩
  rcases step_cases h with ⟨given, entry, hgiven, hentry, -, rfl⟩ | ⟨_, -, -, rfl⟩ |
    ⟨-, id, hlookup⟩
  · intro id found hfound
    rcases lookup_registered hfound with ⟨rfl, rfl⟩ | ⟨-, hold, -⟩
    · rw [hentry]
      intro hempty
      obtain ⟨c, hc, hne⟩ := hok given hgiven
      exact hne ((ServiceEntry.normalizePrefix_eq_empty_iff given).mp hempty c hc)
    · exact hs.nonempty id found hold
  · exact hs.nonempty
  · intro id' found hfound
    exact hs.nonempty id' found (lookup_unregistered hlookup hfound)

/-- A call that registers the root leaves a service that `find_by_prefix` does not find under the
empty string. -/
theorem not_findsStored_step (hs : r.Rootless) (hbad : ¬ r.RegistersNoRoot call)
    (h : r.step call = some r') : ¬ r'.FindsStored := by
  unfold RegistersNoRoot at hbad
  push Not at hbad
  obtain ⟨given, hgiven, hslashes⟩ := hbad
  have hempty := (ServiceEntry.normalizePrefix_eq_empty_iff given).mpr hslashes
  intro hfinds
  rcases step_cases h with ⟨_, entry, hgiven', hentry, -, rfl⟩ | ⟨_, hgiven', hfound, -⟩ |
    ⟨hgiven', -⟩
  · cases hgiven.symm.trans hgiven'
    have hmem : entry ∈ ((r.replaceExisting given).insertEntry entry).services.values :=
      (DashMap.mem_values_iff _ _).mpr ⟨entry.id, lookup_insertEntry_self entry⟩
    -- It should be found under the empty string, where nothing is found.
    have hfound := (hfinds "" entry).mpr ⟨hmem, by rw [hentry, hempty]; decide⟩
    rw [(stored_step hs.toStored h).findByPrefix_empty] at hfound
    cases hfound
  · cases hgiven.symm.trans hgiven'
    -- No service was stored under the empty prefix that could have been found.
    obtain ⟨found, hfind⟩ := Option.isSome_iff_exists.mp hfound
    by_cases hne : given = ""
    · rw [hne, hs.findByPrefix_empty] at hfind
      cases hfind
    · have hpath := ((hs.findByPrefix_eq_some_iff hne found).mp hfind).2
      exact hs.nonempty _ _ (hs.lookup_of_findByPrefix hfind) (hpath.trans hempty)
  · cases hgiven.symm.trans hgiven'

/-- At the start there are no services. -/
theorem rootless_initial (storage : Option SqliteStorage) : (initial storage).Rootless where
  keyed := fun _ _ h => nomatch h
  normal := fun _ _ h => nomatch h
  distinct := fun _ _ _ _ h => nomatch h
  nonempty := fun _ _ h => nomatch h

/-- In every sequence of calls the stored prefixes are distinct throughout exactly if the empty
string is never given where a service is stored under it, and moreover found by every string that
stands for them exactly if no prefix that is given has slashes only. -/
theorem prefixes_throughout_iff {storage : Option SqliteStorage} {calls : List RegistryCall}
    {r : ServiceRegistry} (hrun : machine.Runs Machine.unrestricted (initial storage) calls r) :
    (machine.Throughout PrefixesDistinct (initial storage) calls ↔
        machine.Runs KeepsDistinct (initial storage) calls r) ∧
      (machine.Throughout (fun r => r.PrefixesDistinct ∧ r.FindsStored) (initial storage) calls ↔
        machine.Runs RegistersNoRoot (initial storage) calls r) := by
  have hinitial := rootless_initial storage
  constructor
  · exact hrun.throughout_iff (fun _ hs => hs.distinct) (fun _ _ _ hs hok h => inv_step hs hok h)
      (fun _ _ _ hs hbad h => not_prefixesDistinct_step hs hbad h) hinitial.toInv
  · exact hrun.throughout_iff (fun _ hs => ⟨hs.distinct, hs.findsStored⟩)
      (fun _ _ _ hs hok h => rootless_step hs hok h)
      (fun _ _ _ hs hbad h hboth => not_findsStored_step hs hbad h hboth.2) hinitial

/-- A service that is replaced under another spelling of its prefix, and removed. -/
def respelledCalls : List RegistryCall :=
  [.register 1 0 "a" "api//" "http://a" "/", .register 2 0 "b" "/api" "http://b" "/",
    .unregister 2]

/-- Its prefix is distinct and found throughout. -/
theorem prefixes_throughout_respelled :
    machine.Throughout (fun r => r.PrefixesDistinct ∧ r.FindsStored) (initial none)
      respelledCalls := by
  obtain ⟨r, hr⟩ : ∃ r, machine.exec RegistersNoRoot (initial none) respelledCalls = some r :=
    Option.isSome_iff_exists.mp (by decide)
  have hrun := Machine.runs_of_exec hr
  exact (prefixes_throughout_iff (hrun.mono fun _ _ _ => trivial)).2.mpr hrun

/-- Registered twice, the empty string stands for two services, of which neither is found. -/
theorem prefixes_fail :
    ¬ ∀ (storage : Option SqliteStorage) (calls : List RegistryCall) (r : ServiceRegistry),
      machine.Runs Machine.unrestricted (initial storage) calls r →
        r.PrefixesDistinct ∧ r.FindsStored := by
  intro hall
  have hrun : machine.Runs Machine.unrestricted (initial none)
      [.register 1 0 "a" "" "http://a" "/", .register 2 0 "b" "" "http://b" "/"]
      ((new.register 1 0 "a" "" "http://a" "/").2.register 2 0 "b" "" "http://b" "/").2 :=
    Machine.runs_of_exec rfl
  have hsame := (hall none _ _ hrun).1 1 2 (ServiceEntry.new 1 0 "a" "" "http://a" "/")
    (ServiceEntry.new 2 0 "b" "" "http://b" "/") rfl rfl rfl
  exact absurd hsame (by decide)

end ServiceRegistry

end XiraNet

import XiraNet.Registry.Prefixes

/-!
# The longest prefix

`ServiceRegistry::lookup` of `registry/mod.rs` against what it is for: the service with the longest
prefix that ends at a segment boundary of the path, whatever the order in which the map is walked.

* `longestPrefix_iff`: when `lookup` gives that service.
* `longestPrefix_fails`: a service that is registered under `/` is never found.
-/

namespace XiraNet

namespace ServiceRegistry

/-- What is found is a service with a normal prefix that is the path or followed by a slash in it,
and no other such service has a longer prefix. Nothing is found only where no prefix matches. -/
structure LongestPrefix (r : ServiceRegistry) (path : String) (found : Option ServiceEntry) :
    Prop where
  some : ∀ entry ∈ found, entry ∈ r.services.values ∧ ServiceEntry.IsNormal entry.pathPrefix ∧
    matchesPath entry.pathPrefix path = true ∧
      ∀ other ∈ r.services.values, matchesPath other.pathPrefix path = true →
        other.pathPrefix.utf8ByteSize ≤ entry.pathPrefix.utf8ByteSize
  none : found = none → ∀ entry ∈ r.services.values, matchesPath entry.pathPrefix path = false

/-- The empty prefix, as which `/` is stored, matches every path. -/
theorem matchesPath_empty {path : String} (hpath : Text.startsWith path "/" = true) :
    matchesPath "" path = true := by
  unfold matchesPath
  rw [String.empty_append, hpath, Bool.or_true]

/-- Where a service with a non-empty prefix matches, one is found, and where none does, nothing
is. -/
theorem lookup_isSome_iff (r : ServiceRegistry) (path : String) :
    (r.lookup path).isSome ↔
      ∃ entry ∈ r.services.values, entry.pathPrefix ≠ "" ∧
        matchesPath entry.pathPrefix path = true := by
  constructor
  · intro hsome
    obtain ⟨entry, hentry⟩ := Option.isSome_iff_exists.mp hsome
    obtain ⟨hmem, hmatch, hne⟩ := lookup_eq_some hentry
    exact ⟨entry, hmem, hne, hmatch⟩
  · rintro ⟨entry, hmem, hne, hmatch⟩
    by_contra hnone
    have hle := le_of_lookup hmem hmatch
    rw [Option.not_isSome_iff_eq_none.mp hnone] at hle
    exact hne (String.utf8ByteSize_eq_zero_iff.mp (Nat.le_zero.mp hle))

/-- In every order of the map and for every path `lookup` gives the service with the longest prefix
that matches exactly if such a prefix is not empty, or no service has the empty prefix. -/
theorem longestPrefix_iff {storage : Option SqliteStorage} {calls : List RegistryCall}
    {r : ServiceRegistry} (hrun : machine.Runs Machine.unrestricted (initial storage) calls r)
    {services : DashMap Uuid ServiceEntry} (hperm : services.entries.Perm r.services.entries)
    {path : String} (hpath : Text.startsWith path "/" = true) :
    r.LongestPrefix path (lookup ⟨services, r.storage⟩ path) ↔
      (∃ entry ∈ r.services.values, entry.pathPrefix ≠ "" ∧
        matchesPath entry.pathPrefix path = true) ∨
      ∀ entry ∈ r.services.values, entry.pathPrefix ≠ "" := by
  have hstored : r.Stored := hrun.invariant (I := Stored)
    (fun _ _ _ hs _ h => stored_step hs h) (rootless_initial storage).toStored
  have hmem := DashMap.mem_values_of_perm hperm
  have hisSome := lookup_isSome_iff ⟨services, r.storage⟩ path
  simp only [hmem] at hisSome
  constructor
  · intro hlongest
    by_contra hnot
    push Not at hnot
    obtain ⟨hnone, root, hroot, hempty⟩ := hnot
    have hlookup : lookup ⟨services, r.storage⟩ path = none := by
      apply Option.not_isSome_iff_eq_none.mp
      rw [hisSome]
      rintro ⟨entry, hentry, hne, hmatch⟩
      exact hnone entry hentry hne hmatch
    -- The root matches, but its prefix is not longer than nothing.
    have hmatch := hlongest.none hlookup root hroot
    rw [hempty, matchesPath_empty hpath] at hmatch
    cases hmatch
  · intro hcond
    constructor
    case some =>
      intro entry hentry
      obtain ⟨hfound, hmatch, -⟩ := lookup_eq_some hentry
      obtain ⟨id, hid⟩ := (DashMap.mem_values_iff _ _).mp ((hmem entry).mp hfound)
      refine ⟨(hmem entry).mp hfound, hstored.normal id entry hid, hmatch,
        fun other hother hmatch' => ?_⟩
      have hle := @le_of_lookup ⟨services, r.storage⟩ path other ((hmem other).mpr hother) hmatch'
      rwa [Option.mem_def.mp hentry] at hle
    case none =>
      intro hlookup entry hentry
      have hnone : ¬ ∃ entry ∈ r.services.values, entry.pathPrefix ≠ "" ∧
          matchesPath entry.pathPrefix path = true := by
        rw [← hisSome, hlookup]
        exact Bool.false_ne_true
      refine Bool.eq_false_iff.mpr fun hmatch => hnone ⟨entry, hentry, ?_, hmatch⟩
      exact hcond.resolve_left hnone entry hentry

/-- Of two services that match, the one with the longer prefix is found. -/
theorem longestPrefix_nested :
    ((new.register 1 0 "a" "/api/" "http://a" "/").2.register 2 0 "b" "api/v2" "http://b"
        "/").2.LongestPrefix "/api/v2/users"
      (((new.register 1 0 "a" "/api/" "http://a" "/").2.register 2 0 "b" "api/v2" "http://b"
        "/").2.lookup "/api/v2/users") := by
  have hrun : machine.Runs Machine.unrestricted (initial none)
      [.register 1 0 "a" "/api/" "http://a" "/", .register 2 0 "b" "api/v2" "http://b" "/"]
      ((new.register 1 0 "a" "/api/" "http://a" "/").2.register 2 0 "b" "api/v2" "http://b"
        "/").2 :=
    Machine.runs_of_exec rfl
  exact (longestPrefix_iff hrun (List.Perm.refl _) (by decide)).mpr (.inr (by decide))

/-- A service that is registered under `/` does not serve a path that no other service serves. -/
theorem longestPrefix_fails :
    ¬ ∀ (storage : Option SqliteStorage) (calls : List RegistryCall) (r : ServiceRegistry),
      machine.Runs Machine.unrestricted (initial storage) calls r →
        ∀ services : DashMap Uuid ServiceEntry, services.entries.Perm r.services.entries →
          ∀ path, Text.startsWith path "/" = true →
            r.LongestPrefix path (lookup ⟨services, r.storage⟩ path) := by
  intro hall
  have hrun : machine.Runs Machine.unrestricted (initial none)
      [.register 1 0 "a" "/" "http://a" "/"] (new.register 1 0 "a" "/" "http://a" "/").2 :=
    Machine.runs_of_exec rfl
  have hlongest := hall none _ _ hrun _ (List.Perm.refl _) "/users" (by decide)
  exact absurd (hlongest.none rfl (ServiceEntry.new 1 0 "a" "/" "http://a" "/")
    List.mem_cons_self) (by decide)

end ServiceRegistry

end XiraNet

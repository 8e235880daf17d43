import XiraNet.Base
import XiraNet.Lib.DashMap
import XiraNet.Lib.Runs
import XiraNet.Lib.RwLock
import XiraNet.Lib.Text

/-!
# API keys

`ApiKeyManager` of `middleware/api_keys.rs`. The shards of the map are reader-writer locks, which a
thread cannot take twice, and a reference into the map holds the lock of its shard for as long as it
lives. The reference that `rotate_key` gets from its lookup lives until the call returns.

* `RotationState.rotates_iff`: which keys are rotated.
* `RotationState.phase_of_runs`: a rotation that waits for its own reference waits for ever.
* `ApiKeyManager.rotated_le_iff`: which keys could be rotated without more access.
-/

namespace XiraNet

/-- `ApiKeyRole`. -/
inductive ApiKeyRole
  | admin
  | readOnly
  | service
  | custom (permissions : List String)
  deriving DecidableEq, Repr

/-- `ApiKeyEntry`. -/
structure ApiKeyEntry where
  key : String
  name : String
  role : ApiKeyRole
  createdAt : ℕ
  expiresAt : Option ℕ
  rateLimit : Option ℕ
  allowedPrefixes : List String
  enabled : Bool
  requestCount : ℕ
  lastUsed : ℕ
  deriving DecidableEq, Repr

/-- `KeyValidation`. -/
inductive KeyValidation
  | valid (entry : ApiKeyEntry)
  | expired
  | disabled
  | notFound
  | rateLimited
  | prefixDenied
  deriving DecidableEq, Repr

/-- A key is accepted. -/
def KeyValidation.IsValid : KeyValidation → Prop
  | .valid _ => True
  | _ => False

/-- `ApiKeyManager`. -/
structure ApiKeyManager where
  keys : DashMap String ApiKeyEntry

namespace ApiKeyEntry

/-- The test of the prefixes in `validate`. -/
def allows (e : ApiKeyEntry) (path : String) : Bool :=
  e.allowedPrefixes.isEmpty || e.allowedPrefixes.any fun p => Text.startsWith path p

/-- What `validate` says about an entry that it has found. -/
def validate (e : ApiKeyEntry) (path : String) (now : ℕ) : KeyValidation :=
  if !e.enabled then .disabled
  else if e.expiresAt.any (· < now) then .expired
  else if e.allows path then .valid e
  else .prefixDenied

end ApiKeyEntry

namespace ApiKeyManager

/-- `create_key`, for the key that it generates. -/
def createKey (m : ApiKeyManager) (key name : String) (role : ApiKeyRole) (rateLimit : Option ℕ)
    (allowedPrefixes : List String) (ttlSecs : Option ℕ) (now : ℕ) : ApiKeyManager :=
  ⟨m.keys.insert key
    { key, name, role
      createdAt := now
      expiresAt := ttlSecs.map (wrappingAdd now)
      rateLimit, allowedPrefixes
      enabled := true
      requestCount := 0
      lastUsed := 0 }⟩

/-- `validate`. -/
def validate (m : ApiKeyManager) (key path : String) (now : ℕ) : KeyValidation :=
  match m.keys.lookup key with
  | none => .notFound
  | some e => e.validate path now

/-- `disable_key`, without its locks. -/
def disableKey (m : ApiKeyManager) (key : String) : ApiKeyManager :=
  ⟨m.keys.modify key fun e => { e with enabled := false }⟩

/-- What `rotate_key` does with the entry that it has found, without the locks: the old key is
disabled and the new one has no expiry. -/
def rotated (m : ApiKeyManager) (oldKey newKey : String) (e : ApiKeyEntry) (now : ℕ) :
    ApiKeyManager :=
  (m.disableKey oldKey).createKey newKey e.name e.role e.rateLimit e.allowedPrefixes none now

end ApiKeyManager

/-- Where a call of `rotate_key` stands. -/
inductive RotationPhase
  | lookup
  /-- It holds the reference to the old entry and waits for the lock in `disable_key`. -/
  | disabling (e : ApiKeyEntry)
  /-- It holds the reference to the old entry and waits for the lock in `create_key`. -/
  | creating (e : ApiKeyEntry)
  /-- The reference is dropped. -/
  | returning
  | done (result : Option String)
  deriving DecidableEq, Repr

/-- The call of `rotate_key` is `none`; other threads are numbered. -/
abbrev LockOwner := Option ℕ

/-- The manager with the locks of its shards and one call of `rotate_key`. -/
structure RotationState where
  manager : ApiKeyManager
  locks : ℕ → RwLock LockOwner
  phase : RotationPhase

/-- What the call was given, and what it gets from its surroundings. -/
structure Rotation where
  /-- The shard of a key. -/
  shard : String → ℕ
  oldKey : String
  newKey : String
  now : ℕ

/-- A step of the call or of another thread. -/
inductive RotationAction
  | rotate
  /-- Another thread takes or drops a lock. -/
  | lock (thread shard : ℕ) (op : RwLock.Op)
  /-- Another thread that may write to a shard changes an entry in it. -/
  | put (thread : ℕ) (key : String) (e : Option ApiKeyEntry)

namespace RotationState

/-- A lock changes hands. -/
def setLock (s : RotationState) (i : ℕ) (l : RwLock LockOwner) : RotationState :=
  { s with locks := Function.update s.locks i l }

/-- The next step of the call. A lock that is taken and dropped at once only has to be free. -/
def rotateStep (call : Rotation) (s : RotationState) : Option RotationState :=
  match s.phase with
  | .lookup =>
      ((s.locks (call.shard call.oldKey)).act none .read).map fun l =>
        match s.manager.keys.lookup call.oldKey with
        | some e => { s.setLock (call.shard call.oldKey) l with phase := .disabling e }
        | none => { s with phase := .done none }
  | .disabling e =>
      ((s.locks (call.shard call.oldKey)).act none .write).map fun _ =>
        { s with manager := s.manager.disableKey call.oldKey, phase := .creating e }
  | .creating e =>
      ((s.locks (call.shard call.newKey)).act none .write).map fun _ =>
        { s with
          manager := s.manager.createKey call.newKey e.name e.role e.rateLimit e.allowedPrefixes
            none call.now
          phase := .returning }
  | .returning =>
      ((s.locks (call.shard call.oldKey)).act none .dropRead).map fun l =>
        { s.setLock (call.shard call.oldKey) l with phase := .done (some call.newKey) }
  | .done _ => none

/-- One step. -/
def step (call : Rotation) (s : RotationState) : RotationAction → Option RotationState
  | .rotate => s.rotateStep call
  | .lock thread i op => ((s.locks i).act (some thread) op).map (s.setLock i)
  | .put thread key e =>
      if (s.locks (call.shard key)).writer = some (some thread) then
        some { s with manager := ⟨s.manager.keys.put key e⟩ }
      else none

/-- A call of `rotate_key` beside other threads. -/
def machine (call : Rotation) : Machine RotationState RotationAction := ⟨step call⟩

/-- The call starts while nobody holds a lock. -/
def start (m : ApiKeyManager) : RotationState := ⟨m, fun _ => .free, .lookup⟩

/-- The call returns if no other thread interferes, the old key is not accepted afterwards, the
new one only where the old one would have been, and an unknown key changes nothing. -/
def Rotates (call : Rotation) (m : ApiKeyManager) : Prop :=
  ∃ n t result, (machine call).Runs Machine.unrestricted (start m) (List.replicate n .rotate) t ∧
    t.phase = .done result ∧
    (∀ e, m.keys.lookup call.oldKey = some e →
      (∀ path time, ¬(t.manager.validate call.oldKey path time).IsValid) ∧
      ∀ path time, call.now ≤ time → (t.manager.validate call.newKey path time).IsValid →
        (m.validate call.oldKey path time).IsValid) ∧
    (m.keys.lookup call.oldKey = none → t.manager = m)

variable {call : Rotation} {s t : RotationState} {a : RotationAction}

/-- The call waits for the lock of its own reference. -/
def Waits (call : Rotation) (s : RotationState) : Prop :=
  (∃ e, s.phase = .disabling e) ∧ none ∈ (s.locks (call.shard call.oldKey)).readers

/-- A call that waits goes on waiting, whatever other threads do. -/
theorem waits_step (hs : s.Waits call) (h : s.step call a = some t) : t.Waits call := by
  obtain ⟨⟨e, hphase⟩, hreader⟩ := hs
  cases a with
  | rotate =>
      have hblocked := RwLock.act_write_eq_none hreader none
      simp only [step, rotateStep, hphase, hblocked, Option.map_none, reduceCtorEq] at h
  | lock thread i op =>
      obtain ⟨l, hact, rfl⟩ := Option.map_eq_some_iff.mp h
      refine ⟨⟨e, hphase⟩, ?_⟩
      simp only [setLock]
      by_cases hi : call.shard call.oldKey = i
      · subst hi
        rw [Function.update_self]
        exact RwLock.mem_readers_act hreader (Option.some_ne_none thread).symm hact
      · rwa [Function.update_of_ne hi]
  | put thread key e' =>
      obtain ⟨-, h⟩ := Option.ite_none_right_eq_some.mp h
      cases h
      exact ⟨⟨e, hphase⟩, hreader⟩

/-- In no interleaving with other threads does a call return that waits for its own reference. -/
theorem phase_of_runs (hs : s.Waits call) {as : List RotationAction}
    (hrun : (machine call).Runs Machine.unrestricted s as t) (result : Option String) :
    t.phase ≠ .done result := by
  have hwaits : t.Waits call :=
    hrun.invariant (I := Waits call) (fun _ _ _ hs _ h => waits_step hs h) hs
  obtain ⟨⟨e, hphase⟩, -⟩ := hwaits
  rw [hphase]
  nofun

/-- A call that finds its key waits after its first step. -/
theorem waits_start {m : ApiKeyManager} {e : ApiKeyEntry}
    (he : m.keys.lookup call.oldKey = some e)
    (h : (start m).step call .rotate = some t) : t.Waits call := by
  have hread : (RwLock.free : RwLock LockOwner).act none .read = some ⟨[none], none⟩ := rfl
  simp only [step, rotateStep, start, hread, he, Option.map_some, Option.some.injEq] at h
  subst h
  refine ⟨⟨e, rfl⟩, ?_⟩
  simp only [setLock, Function.update_self]
  exact List.mem_singleton_self _

/-- The rotation of a known key does not return. -/
theorem phase_of_start {m : ApiKeyManager} {e : ApiKeyEntry}
    (he : m.keys.lookup call.oldKey = some e) {n : ℕ}
    (hrun : (machine call).Runs Machine.unrestricted (start m) (List.replicate n .rotate) t)
    (result : Option String) : t.phase ≠ .done result := by
  cases n with
  | zero =>
      cases hrun
      nofun
  | succ n =>
      cases hrun with
      | cons _ hst hrest => exact phase_of_runs (waits_start he hst) hrest result

/-- A key is rotated exactly if it is unknown. -/
theorem rotates_iff (call : Rotation) (m : ApiKeyManager) :
    Rotates call m ↔ m.keys.lookup call.oldKey = none := by
  constructor
  · rintro ⟨n, t, result, hrun, hdone, -⟩
    by_contra hknown
    obtain ⟨e, he⟩ := Option.ne_none_iff_exists'.mp hknown
    exact phase_of_start he hrun result hdone
  · intro hunknown
    have hstep : (start m).step call .rotate = some { start m with phase := .done none } := by
      have hread : (RwLock.free : RwLock LockOwner).act none .read = some ⟨[none], none⟩ := rfl
      simp only [step, rotateStep, start, hread, hunknown, Option.map_some]
    refine ⟨1, _, none, .cons trivial hstep (.nil _), rfl, fun e he => ?_, fun _ => rfl⟩
    cases hunknown.symm.trans he

/-- A manager with one key. -/
def oneKey : ApiKeyManager :=
  ⟨(∅ : DashMap String ApiKeyEntry).insert "k1"
    ⟨"k1", "ci", .service, 0, none, none, [], true, 0, 0⟩⟩

/-- The key is not rotated. -/
theorem rotates_fails :
    ¬∀ (call : Rotation) (m : ApiKeyManager), Rotates call m := by
  intro hall
  obtain ⟨n, t, result, hrun, hdone, -⟩ := hall ⟨fun _ => 0, "k1", "k2", 5⟩ oneKey
  have hknown : oneKey.keys.lookup "k1" = some _ := AList.lookup_insert _
  exact phase_of_start hknown hrun result hdone

end RotationState

namespace ApiKeyEntry

variable {e : ApiKeyEntry} {path : String} {now : ℕ}

/-- When an entry is accepted. -/
theorem isValid_validate_iff :
    (e.validate path now).IsValid ↔
      e.enabled = true ∧ (∀ x ∈ e.expiresAt, now ≤ x) ∧ e.allows path = true := by
  have hexpired : e.expiresAt.any (· < now) = true ↔ ¬∀ x ∈ e.expiresAt, now ≤ x := by
    cases e.expiresAt <;> simp
  unfold validate
  cases henabled : e.enabled with
  | false => simp [KeyValidation.IsValid]
  | true =>
      by_cases hx : ∀ x ∈ e.expiresAt, now ≤ x
      · rw [if_neg (by simp), if_neg (by rw [hexpired]; exact not_not.mpr hx)]
        cases e.allows path with
        | false => exact iff_of_false (fun h => h) fun h => nomatch h.2.2
        | true => exact iff_of_true trivial ⟨rfl, hx, rfl⟩
      · rw [if_neg (by simp), if_pos (hexpired.mpr hx)]
        exact iff_of_false (fun h => h) fun h => hx h.2.1

/-- Every entry allows some path. -/
theorem exists_allows (e : ApiKeyEntry) : ∃ path, e.allows path = true := by
  cases hprefixes : e.allowedPrefixes with
  | nil => exact ⟨"", by simp [allows, hprefixes]⟩
  | cons p ps => exact ⟨p, by simp [allows, hprefixes, Text.startsWith_iff]⟩

end ApiKeyEntry

namespace ApiKeyManager

variable {m : ApiKeyManager} {oldKey newKey : String} {e : ApiKeyEntry} {now : ℕ}

/-- What is said about a known key. -/
theorem validate_of_lookup (h : m.keys.lookup oldKey = some e) (path : String) (time : ℕ) :
    m.validate oldKey path time = e.validate path time := by
  rw [validate, h]

/-- Were the reference dropped before, the new key would be accepted only where the old one would
have been exactly if the old one is enabled and does not expire. -/
theorem rotated_le_iff (h : m.keys.lookup oldKey = some e) :
    (∀ path time, now ≤ time →
        ((m.rotated oldKey newKey e now).validate newKey path time).IsValid →
          (m.validate oldKey path time).IsValid) ↔
      e.enabled = true ∧ e.expiresAt = none := by
  have hnew : (m.rotated oldKey newKey e now).keys.lookup newKey = some _ :=
    AList.lookup_insert _
  simp only [validate_of_lookup h, validate_of_lookup hnew, ApiKeyEntry.isValid_validate_iff]
  constructor
  · intro hle
    obtain ⟨path, hpath⟩ := e.exists_allows
    refine ⟨(hle path now le_rfl ⟨trivial, nofun, hpath⟩).1, ?_⟩
    -- An expiry would have passed at a later time.
    rw [Option.eq_none_iff_forall_not_mem]
    intro x hx
    have hlater := (hle path (max now (x + 1)) (le_max_left _ _) ⟨trivial, nofun, hpath⟩).2.1 x hx
    omega
  · rintro ⟨henabled, hexpires⟩ path time - ⟨-, -, hpath⟩
    exact ⟨henabled, by simp [hexpires], hpath⟩

end ApiKeyManager

end XiraNet

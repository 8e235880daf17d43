import XiraNet.Identity.Accounts
import XiraNet.Identity.Authenticator

/-!
# Concurrent registrations

Registrations that run at the same time. A registration holds no lock between its check of the email
index and the insertions, which a password hash and a write to the table separate.

* `oneAccount_iff_of_idle`: when no registration is running, every email has one account exactly if
  none has passed its check while another one for the same email was about to enter the index.
* `oneAccount_fails`: two registrations with one email.
-/

namespace XiraNet

/-- How far a registration that has found its email free has come. -/
inductive RegisterPhase
  | checked
  | persisted
  | indexed
  deriving DecidableEq, Repr

/-- A registration that has found its email free, with the user it creates. -/
structure Registering where
  user : User
  phase : RegisterPhase
  deriving DecidableEq, Repr

/-- A step of a registration: the check of the email index, or the next step behind it. -/
inductive RegisterAction
  | check (call : ℕ) (id : String) (now : ℕ) (passwordHash email username : String)
      (role : UserRole)
  | advance (call : ℕ)
  deriving DecidableEq, Repr

/-- A user store with the registrations that are running. -/
structure RegisterState where
  manager : UserManager
  running : DashMap ℕ Registering

namespace RegisterState

/-- The next step of a registration behind its check. -/
def advance (lib : UserLib) (s : RegisterState) (call : ℕ) (r : Registering) : RegisterState :=
  match r.phase with
  | .checked =>
      { manager := s.manager.persistUser lib r.user
        running := s.running.insert call { r with phase := .persisted } }
  | .persisted =>
      { manager :=
          { s.manager with
            emailIndex := s.manager.emailIndex.insert (normalizeEmail r.user.email) r.user.id }
        running := s.running.insert call { r with phase := .indexed } }
  | .indexed =>
      { manager := s.manager.store r.user
        running := s.running.erase call }

/-- A registration has found its email free. -/
def begin (s : RegisterState) (call : ℕ) (user : User) : RegisterState :=
  { s with running := s.running.insert call ⟨user, .checked⟩ }

/-- An id that no user has, and that no registration has drawn. -/
def Fresh (s : RegisterState) (id : String) : Prop :=
  s.manager.users.lookup id = none ∧ ∀ r ∈ s.running.values, r.user.id ≠ id

instance (s : RegisterState) (id : String) : Decidable (s.Fresh id) :=
  inferInstanceAs (Decidable (_ ∧ _))

/-- One step. -/
def step (lib : UserLib) (s : RegisterState) : RegisterAction → Option RegisterState
  | .check call id now passwordHash email username role =>
      if s.running.lookup call = none ∧ s.Fresh id then
        -- An email that is in the index is answered with an error.
        if (s.manager.emailIndex.lookup (normalizeEmail email)).isSome then some s
        else
          let user : User :=
            ⟨id, email, username, passwordHash, role, [], now, 0, 0, true, false, none⟩
          some (s.begin call user)
      else none
  | .advance call => (s.running.lookup call).map fun r => s.advance lib call r

/-- Registrations that run at the same time. -/
def machine (lib : UserLib) : Machine RegisterState RegisterAction := ⟨step lib⟩

/-- A store without users. -/
def initial (storage : Option (Table UserRow)) : RegisterState :=
  ⟨⟨∅, ∅, storage, ∅, User.keyed_empty⟩, ∅⟩

/-- No registration is running. -/
def Idle (s : RegisterState) : Prop := ∀ call, s.running.lookup call = none

/-- No two users have the same normalized email, and the index leads from the normalized email of a
user to the user. -/
def OneAccount (s : RegisterState) : Prop :=
  (∀ id id' user user', s.manager.users.lookup id = some user →
      s.manager.users.lookup id' = some user' →
        normalizeEmail user.email = normalizeEmail user'.email → id = id') ∧
    ∀ id user, s.manager.users.lookup id = some user →
      s.manager.emailIndex.lookup (normalizeEmail user.email) = some id

/-- A registration that finds its email free is the only one for this email that is about to enter
the index. -/
def Alone (s : RegisterState) (a : RegisterAction) : Prop :=
  match a with
  | .check _ _ _ _ email _ _ =>
      s.manager.emailIndex.lookup (normalizeEmail email) = none → ∀ r ∈ s.running.values,
        r.phase ≠ .indexed → normalizeEmail r.user.email ≠ normalizeEmail email
  | .advance _ => True

instance (s : RegisterState) : (a : RegisterAction) → Decidable (s.Alone a)
  | .check _ _ _ _ email _ _ =>
      inferInstanceAs (Decidable (s.manager.emailIndex.lookup (normalizeEmail email) = none →
        ∀ r ∈ s.running.values, r.phase ≠ .indexed →
          normalizeEmail r.user.email ≠ normalizeEmail email))
  | .advance _ => .isTrue trivial

variable {lib : UserLib}

/-- A user that is stored, or that a registration is going to store. -/
def Account (s : RegisterState) (user : User) : Prop :=
  s.manager.users.lookup user.id = some user ∨
    ∃ call r, s.running.lookup call = some r ∧ r.user = user

/-- The registrations that are running have ids of their own. -/
structure Ids (s : RegisterState) : Prop where
  new : ∀ call r, s.running.lookup call = some r → s.manager.users.lookup r.user.id = none
  own : ∀ call call' r r', s.running.lookup call = some r → s.running.lookup call' = some r' →
    r.user.id = r'.user.id → call = call'

/-- The users are in the index, and the registrations that are about to enter it are the only ones
for their emails. -/
structure Inv (s : RegisterState) : Prop where
  /-- Whatever is past the index has its email there. -/
  stored : ∀ id user, s.manager.users.lookup id = some user →
    s.manager.emailIndex.lookup (normalizeEmail user.email) = some id
  indexed : ∀ call r, s.running.lookup call = some r → r.phase = .indexed →
    s.manager.emailIndex.lookup (normalizeEmail r.user.email) = some r.user.id
  /-- Whatever is not has the email for itself. -/
  free : ∀ call r, s.running.lookup call = some r → r.phase ≠ .indexed →
    s.manager.emailIndex.lookup (normalizeEmail r.user.email) = none
  alone : ∀ call call' r r', s.running.lookup call = some r → s.running.lookup call' = some r' →
    r.phase ≠ .indexed → r'.phase ≠ .indexed →
      normalizeEmail r.user.email = normalizeEmail r'.user.email → call = call'

/-- Two users with different ids and one email. -/
def Doubled (s : RegisterState) : Prop :=
  ∃ user user', s.Account user ∧ s.Account user' ∧ user.id ≠ user'.id ∧
    normalizeEmail user.email = normalizeEmail user'.email

/-- What a step does. -/
theorem step_cases {s t : RegisterState} {a : RegisterAction} (h : s.step lib a = some t) :
    t = s ∧ s.Alone a ∨
      (∃ call user, s.running.lookup call = none ∧ s.Fresh user.id ∧
        s.manager.emailIndex.lookup (normalizeEmail user.email) = none ∧ t = s.begin call user ∧
        (s.Alone a ↔ ∀ r ∈ s.running.values,
          r.phase ≠ .indexed → normalizeEmail r.user.email ≠ normalizeEmail user.email)) ∨
      ∃ call r, a = .advance call ∧ s.running.lookup call = some r ∧ t = s.advance lib call r := by
  cases a with
  | check call id now passwordHash email username role =>
      simp only [step] at h
      split at h
      next hnew =>
        split at h
        next hindex =>
          cases h
          refine .inl ⟨rfl, fun hnone => ?_⟩
          rw [hnone] at hindex
          cases hindex
        next hindex =>
          obtain rfl := Option.some.inj h
          have hnone := Option.not_isSome_iff_eq_none.mp hindex
          let user : User :=
            ⟨id, email, username, passwordHash, role, [], now, 0, 0, true, false, none⟩
          have halone : s.Alone (.check call id now passwordHash email username role) ↔
              ∀ r ∈ s.running.values,
                r.phase ≠ .indexed → normalizeEmail r.user.email ≠ normalizeEmail user.email :=
            ⟨fun hok => hok hnone, fun hok _ => hok⟩
          exact .inr (.inl ⟨call, user, hnew.1, hnew.2, hnone, rfl, halone⟩)
      next => cases h
  | advance call =>
      obtain ⟨r, hr, rfl⟩ := Option.map_eq_some_iff.mp h
      exact .inr (.inr ⟨call, r, rfl, hr, rfl⟩)

/-- What is running after a registration has entered its next phase. -/
theorem lookup_running_insert {s : RegisterState} {call call' : ℕ} {r r' : Registering}
    {phase : RegisterPhase} (hr : s.running.lookup call = some r)
    (h : (s.running.insert call { r with phase }).lookup call' = some r') :
    ∃ old, s.running.lookup call' = some old ∧ old.user = r'.user ∧
      (r'.phase = old.phase ∨ call' = call ∧ r'.phase = phase) := by
  rcases DashMap.lookup_insert_cases h with ⟨heq, rfl⟩ | ⟨-, hold⟩
  · exact ⟨r, heq ▸ hr, rfl, .inr ⟨heq, rfl⟩⟩
  · exact ⟨r', hold, rfl, .inl rfl⟩

/-- A registration that is running has another id than a fresh one. -/
theorem Fresh.ne {s : RegisterState} {id : String} (h : s.Fresh id) {call : ℕ} {r : Registering}
    (hr : s.running.lookup call = some r) : r.user.id ≠ id :=
  h.2 r ((DashMap.mem_values_iff _ _).mpr ⟨call, hr⟩)

/-- The ids stay different. -/
theorem ids_step {s t : RegisterState} {a : RegisterAction} (hs : s.Ids)
    (h : s.step lib a = some t) : t.Ids := by
  rcases step_cases h with ⟨rfl, -⟩ | ⟨call, user, hcall, hfresh, -, rfl, -⟩ |
    ⟨call, r, rfl, hr, rfl⟩
  · exact hs
  · constructor
    · intro call' r' hr'
      rcases DashMap.lookup_insert_cases hr' with ⟨-, rfl⟩ | ⟨-, hold⟩
      · exact hfresh.1
      · exact hs.new call' r' hold
    · intro call₁ call₂ r₁ r₂ hr₁ hr₂ hid
      rcases DashMap.lookup_insert_cases hr₁ with ⟨rfl, rfl⟩ | ⟨-, hold₁⟩
      · rcases DashMap.lookup_insert_cases hr₂ with ⟨rfl, rfl⟩ | ⟨-, hold₂⟩
        · rfl
        · exact absurd hid.symm (hfresh.ne hold₂)
      · rcases DashMap.lookup_insert_cases hr₂ with ⟨rfl, rfl⟩ | ⟨-, hold₂⟩
        · exact absurd hid (hfresh.ne hold₁)
        · exact hs.own call₁ call₂ r₁ r₂ hold₁ hold₂ hid
  · -- A phase changes no id.
    have hphase : ∀ (m : UserManager) (phase : RegisterPhase), m.users = s.manager.users →
        Ids ⟨m, s.running.insert call { r with phase }⟩ := by
      intro m phase husers
      constructor
      · intro call' r' hr'
        obtain ⟨old, hold, huser, -⟩ := lookup_running_insert hr hr'
        dsimp only
        rw [husers, ← huser]
        exact hs.new call' old hold
      · intro call₁ call₂ r₁ r₂ hr₁ hr₂ hid
        obtain ⟨old₁, hold₁, huser₁, -⟩ := lookup_running_insert hr hr₁
        obtain ⟨old₂, hold₂, huser₂, -⟩ := lookup_running_insert hr hr₂
        exact hs.own call₁ call₂ old₁ old₂ hold₁ hold₂ (by rw [huser₁, huser₂, hid])
    unfold advance
    split
    next => exact hphase _ _ rfl
    next => exact hphase _ _ rfl
    next =>
      constructor
      · intro call' r' hr'
        obtain ⟨hne, hold⟩ := DashMap.lookup_erase_cases hr'
        simp only [UserManager.store, DashMap.lookup_insert]
        rw [if_neg fun hid => hne (hs.own call' call r' r hold hr hid)]
        exact hs.new call' r' hold
      · intro call₁ call₂ r₁ r₂ hr₁ hr₂ hid
        exact hs.own call₁ call₂ r₁ r₂ (DashMap.lookup_erase_cases hr₁).2
          (DashMap.lookup_erase_cases hr₂).2 hid

/-- A registration that finds its email free and no other one with it keeps the invariant. -/
theorem Inv.begin {s : RegisterState} {call : ℕ} {user : User} (hs : s.Inv)
    (hfree : s.manager.emailIndex.lookup (normalizeEmail user.email) = none)
    (halone : ∀ call' r, s.running.lookup call' = some r → r.phase ≠ .indexed →
      normalizeEmail r.user.email ≠ normalizeEmail user.email) : (s.begin call user).Inv := by
  refine ⟨hs.stored, fun call' r hr hphase => ?_, fun call' r hr hphase => ?_, ?_⟩
  · rcases DashMap.lookup_insert_cases hr with ⟨-, rfl⟩ | ⟨-, hold⟩
    · cases hphase
    · exact hs.indexed call' r hold hphase
  · rcases DashMap.lookup_insert_cases hr with ⟨-, rfl⟩ | ⟨-, hold⟩
    · exact hfree
    · exact hs.free call' r hold hphase
  · intro call₁ call₂ r₁ r₂ hr₁ hr₂ hphase₁ hphase₂ hemail
    rcases DashMap.lookup_insert_cases hr₁ with ⟨rfl, rfl⟩ | ⟨-, hold₁⟩
    · rcases DashMap.lookup_insert_cases hr₂ with ⟨rfl, rfl⟩ | ⟨-, hold₂⟩
      · rfl
      · exact absurd hemail.symm (halone call₂ r₂ hold₂ hphase₂)
    · rcases DashMap.lookup_insert_cases hr₂ with ⟨rfl, rfl⟩ | ⟨-, hold₂⟩
      · exact absurd hemail (halone call₁ r₁ hold₁ hphase₁)
      · exact hs.alone call₁ call₂ r₁ r₂ hold₁ hold₂ hphase₁ hphase₂ hemail

section

variable {s : RegisterState} {call : ℕ} {r : Registering}

/-- Writing the row keeps the invariant. -/
theorem Inv.persist (hs : s.Inv) (hr : s.running.lookup call = some r)
    (hr_phase : r.phase = .checked) :
    RegisterState.Inv ⟨s.manager.persistUser lib r.user,
      s.running.insert call { r with phase := .persisted }⟩ := by
  have hkept : ∀ {call' r'}, (s.running.insert call { r with phase := .persisted }).lookup
      call' = some r' → ∃ old, s.running.lookup call' = some old ∧ old.user = r'.user ∧
        (r'.phase = .indexed ↔ old.phase = .indexed) := by
    intro call' r' hr'
    obtain ⟨old, hold, huser, hphase | ⟨rfl, hphase⟩⟩ := lookup_running_insert hr hr'
    · exact ⟨old, hold, huser, by rw [hphase]⟩
    · cases hr.symm.trans hold
      exact ⟨r, hold, huser, by simp [hphase, hr_phase]⟩
  refine ⟨hs.stored, fun call' r' hr' hphase => ?_, fun call' r' hr' hphase => ?_, ?_⟩
  · obtain ⟨old, hold, huser, hsame⟩ := hkept hr'
    rw [← huser]
    exact hs.indexed call' old hold (hsame.mp hphase)
  · obtain ⟨old, hold, huser, hsame⟩ := hkept hr'
    rw [← huser]
    exact hs.free call' old hold fun h => hphase (hsame.mpr h)
  · intro call₁ call₂ r₁ r₂ hr₁ hr₂ hphase₁ hphase₂ hemail
    obtain ⟨old₁, hold₁, huser₁, hsame₁⟩ := hkept hr₁
    obtain ⟨old₂, hold₂, huser₂, hsame₂⟩ := hkept hr₂
    exact hs.alone call₁ call₂ old₁ old₂ hold₁ hold₂ (fun h => hphase₁ (hsame₁.mpr h))
      (fun h => hphase₂ (hsame₂.mpr h)) (by rw [huser₁, huser₂, hemail])

/-- Entering the email into the index keeps the invariant: nothing that is past the index has
it. -/
theorem Inv.index (hs : s.Inv) (hr : s.running.lookup call = some r)
    (hpending : r.phase ≠ .indexed) :
    RegisterState.Inv ⟨{ s.manager with
        emailIndex := s.manager.emailIndex.insert (normalizeEmail r.user.email) r.user.id },
      s.running.insert call { r with phase := .indexed }⟩ := by
  have hfree := hs.free call r hr hpending
  have hother : ∀ {email : String} {id : String},
      s.manager.emailIndex.lookup (normalizeEmail email) = some id →
        normalizeEmail email ≠ normalizeEmail r.user.email := by
    intro email id hlookup heq
    rw [heq, hfree] at hlookup
    cases hlookup
  refine ⟨fun id user huser => ?_, fun call' r' hr' hphase => ?_,
    fun call' r' hr' hphase => ?_, ?_⟩
  · have hstored := hs.stored id user huser
    rw [DashMap.lookup_insert, if_neg (hother hstored)]
    exact hstored
  · rcases DashMap.lookup_insert_cases hr' with ⟨rfl, rfl⟩ | ⟨-, hold⟩
    · rw [DashMap.lookup_insert, if_pos rfl]
    · have hindexed := hs.indexed call' r' hold hphase
      rw [DashMap.lookup_insert, if_neg (hother hindexed)]
      exact hindexed
  · rcases DashMap.lookup_insert_cases hr' with ⟨rfl, rfl⟩ | ⟨hne, hold⟩
    · exact absurd rfl hphase
    · rw [DashMap.lookup_insert, if_neg]
      · exact hs.free call' r' hold hphase
      exact fun heq => hne (hs.alone call' call r' r hold hr hphase hpending heq)
  · intro call₁ call₂ r₁ r₂ hr₁ hr₂ hphase₁ hphase₂ hemail
    rcases DashMap.lookup_insert_cases hr₁ with ⟨rfl, rfl⟩ | ⟨-, hold₁⟩
    · exact absurd rfl hphase₁
    rcases DashMap.lookup_insert_cases hr₂ with ⟨rfl, rfl⟩ | ⟨-, hold₂⟩
    · exact absurd rfl hphase₂
    exact hs.alone call₁ call₂ r₁ r₂ hold₁ hold₂ hphase₁ hphase₂ hemail

/-- Storing the user keeps the invariant. -/
theorem Inv.store (hs : s.Inv) (hr : s.running.lookup call = some r)
    (hr_phase : r.phase = .indexed) :
    RegisterState.Inv ⟨s.manager.store r.user, s.running.erase call⟩ := by
  refine ⟨fun id user huser => ?_, fun call' r' hr' hphase => ?_,
    fun call' r' hr' hphase => ?_, ?_⟩
  · rcases DashMap.lookup_insert_cases huser with ⟨rfl, rfl⟩ | ⟨-, hold⟩
    · exact hs.indexed call r hr hr_phase
    · exact hs.stored id user hold
  · exact hs.indexed call' r' (DashMap.lookup_erase_cases hr').2 hphase
  · exact hs.free call' r' (DashMap.lookup_erase_cases hr').2 hphase
  · intro call₁ call₂ r₁ r₂ hr₁ hr₂ hphase₁ hphase₂ hemail
    exact hs.alone call₁ call₂ r₁ r₂ (DashMap.lookup_erase_cases hr₁).2
      (DashMap.lookup_erase_cases hr₂).2 hphase₁ hphase₂ hemail

end

/-- A step of a registration that is alone keeps the invariant. -/
theorem inv_step {s t : RegisterState} {a : RegisterAction} (hs : s.Inv)
    (hok : s.Alone a) (h : s.step lib a = some t) : t.Inv := by
  rcases step_cases h with ⟨rfl, -⟩ | ⟨call, user, hcall, hfresh, hnone, rfl, halone⟩ |
    ⟨call, r, rfl, hr, rfl⟩
  · exact hs
  · exact hs.begin hnone fun call' r' hr' =>
      halone.mp hok r' ((DashMap.mem_values_iff _ _).mpr ⟨call', hr'⟩)
  · unfold advance
    split
    next hr_phase => exact hs.persist hr hr_phase
    next hr_phase => exact hs.index hr (by rw [hr_phase]; decide)
    next hr_phase => exact hs.store hr hr_phase

/-- What is stored or going to be stored stays so. -/
theorem account_step {s t : RegisterState} {a : RegisterAction} (hids : s.Ids)
    (h : s.step lib a = some t) {user : User} (huser : s.Account user) : t.Account user := by
  rcases step_cases h with ⟨rfl, -⟩ | ⟨call, user', hcall, -, -, rfl, -⟩ | ⟨call, r, rfl, hr, rfl⟩
  · exact huser
  · rcases huser with hstored | ⟨call', r', hr', rfl⟩
    · exact .inl hstored
    · refine .inr ⟨call', r', ?_, rfl⟩
      simp only [begin, DashMap.lookup_insert]
      rw [if_neg]
      · exact hr'
      rintro rfl
      rw [hcall] at hr'
      cases hr'
  · have hphase : ∀ (m : UserManager) (phase : RegisterPhase), m.users = s.manager.users →
        Account ⟨m, s.running.insert call { r with phase }⟩ user := by
      intro m phase husers
      rcases huser with hstored | ⟨call', r', hr', rfl⟩
      · exact .inl (husers ▸ hstored)
      · by_cases heq : call' = call
        · subst heq
          cases hr.symm.trans hr'
          exact .inr ⟨call', { r with phase }, AList.lookup_insert _, rfl⟩
        · exact .inr ⟨call', r', (AList.lookup_insert_ne heq).trans hr', rfl⟩
    unfold advance
    split
    next => exact hphase _ _ rfl
    next => exact hphase _ _ rfl
    next =>
      rcases huser with hstored | ⟨call', r', hr', rfl⟩
      · refine .inl ?_
        simp only [UserManager.store, DashMap.lookup_insert]
        rw [if_neg]
        · exact hstored
        intro hid
        have hnew := hids.new call r hr
        rw [← hid, hstored] at hnew
        cases hnew
      · by_cases heq : call' = call
        · subst heq
          cases hr.symm.trans hr'
          exact .inl (AList.lookup_insert _)
        · exact .inr ⟨call', r', (AList.lookup_erase_ne heq).trans hr', rfl⟩

/-- A registration that is not alone with its email doubles it. -/
theorem doubled_of_step {s t : RegisterState} {a : RegisterAction} (hids : s.Ids)
    (hbad : ¬ s.Alone a) (h : s.step lib a = some t) : t.Doubled := by
  have haccount : ∀ {user}, s.Account user → t.Account user := fun huser =>
    account_step hids h huser
  rcases step_cases h with ⟨-, hok⟩ | ⟨call, user, -, hfresh, -, rfl, halone⟩ | ⟨call, r, rfl, -, -⟩
  · exact absurd hok hbad
  · rw [halone] at hbad
    push Not at hbad
    obtain ⟨r, hr, -, hemail⟩ := hbad
    obtain ⟨call', hr'⟩ := (DashMap.mem_values_iff _ _).mp hr
    have hnew : (s.begin call user).Account user :=
      .inr ⟨call, ⟨user, .checked⟩, AList.lookup_insert _, rfl⟩
    exact ⟨r.user, user, haccount (.inr ⟨call', r, hr', rfl⟩), hnew, hfresh.ne hr', hemail⟩
  · exact absurd trivial hbad

/-- When no registration is running, every email has one account exactly if every registration that
found its email free was alone with it. -/
theorem oneAccount_iff_of_idle (lib : UserLib) (storage : Option (Table UserRow))
    (as : List RegisterAction) (s : RegisterState)
    (hrun : (machine lib).Runs Machine.unrestricted (initial storage) as s) (hidle : s.Idle) :
    s.OneAccount ↔ (machine lib).Runs Alone (initial storage) as s := by
  have hids : (initial storage).Ids := ⟨by simp [initial], by simp [initial]⟩
  have hinv : (initial storage).Inv :=
    ⟨by simp [initial], by simp [initial], by simp [initial], by simp [initial]⟩
  constructor
  · intro hone
    refine hrun.meets_of_not (I := Ids) (D := fun s => s.Ids ∧ s.Doubled)
      (fun _ _ _ hs _ h => ids_step hs h)
      (fun _ _ _ hs hbad h => ⟨ids_step hs h, doubled_of_step hs hbad h⟩) ?_ hids ?_
    · rintro s a t ⟨hs, user, user', huser, huser', hne, hemail⟩ h
      exact ⟨ids_step hs h, user, user', account_step hs h huser, account_step hs h huser', hne,
        hemail⟩
    · -- Nothing is running, so both users are stored.
      rintro ⟨-, user, user', huser, huser', hne, hemail⟩
      have hstored : ∀ {user}, s.Account user → s.manager.users.lookup user.id = some user := by
        rintro user (hstored | ⟨call, r, hr, -⟩)
        · exact hstored
        · rw [hidle call] at hr
          cases hr
      exact hne (hone.1 _ _ _ _ (hstored huser) (hstored huser') hemail)
  · intro hok
    obtain ⟨-, hs⟩ := hok.invariant (I := fun s => s.Ids ∧ s.Inv)
      (fun _ _ _ hs hok h => ⟨ids_step hs.1 h, inv_step hs.2 hok h⟩) ⟨hids, hinv⟩
    refine ⟨fun id id' user user' huser huser' hemail => ?_, hs.stored⟩
    have hindex := hs.stored id user huser
    rw [hemail, hs.stored id' user' huser'] at hindex
    exact (Option.some.inj hindex).symm

/-- Nothing is running when there are no entries. -/
theorem idle_of_entries {s : RegisterState} (h : s.running.entries = []) : s.Idle := by
  intro call
  refine Option.eq_none_iff_forall_ne_some.mpr fun r hr => ?_
  have hmem := AList.mem_lookup_iff.mp hr
  rw [h] at hmem
  cases hmem

open AuthHistory (simpleLib)

/-- Two registrations that overlap, and a third one with the email of the first in another
spelling. -/
def overlappingRun : List RegisterAction :=
  [.check 1 "u" 1000 "$argon2id$" "User@example.org" "User" .viewer,
    .check 2 "v" 1000 "$argon2id$" "other@example.org" "Other" .viewer,
    .advance 1, .advance 2, .advance 2, .advance 1,
    .check 3 "w" 1001 "$argon2id$" " user@example.org" "User" .viewer,
    .advance 2, .advance 1]

/-- Each of the two emails has one account. -/
theorem oneAccount_overlappingRun :
    ∃ s, (machine simpleLib).Runs Machine.unrestricted (initial (some [])) overlappingRun s ∧
      s.OneAccount := by
  have hend : ((machine simpleLib).exec Alone (initial (some [])) overlappingRun).map
      (fun s => s.running.entries) = some [] := by decide +kernel
  obtain ⟨s, hs, hidle⟩ := Option.map_eq_some_iff.mp hend
  have hok := Machine.runs_of_exec hs
  have hrun := hok.mono fun _ _ _ => (trivial : Machine.unrestricted _ _)
  exact ⟨s, hrun, (oneAccount_iff_of_idle simpleLib _ _ s hrun (idle_of_entries hidle)).mpr hok⟩

/-- Two registrations with one email that both pass their checks. -/
theorem oneAccount_fails :
    ¬ ∀ (lib : UserLib) (storage : Option (Table UserRow)) (as : List RegisterAction)
      (s : RegisterState), (machine lib).Runs Machine.unrestricted (initial storage) as s →
        s.Idle → s.OneAccount := by
  intro hall
  have hend : ((machine simpleLib).exec Machine.unrestricted (initial none)
      [.check 1 "u" 1000 "$argon2id$" "user@example.org" "User" .viewer,
        .check 2 "v" 1000 "$argon2id$" "User@Example.org" "User" .viewer,
        .advance 1, .advance 1, .advance 1, .advance 2, .advance 2, .advance 2]).map
      (fun s => (s.running.entries, (s.manager.users.lookup "u").map User.email,
        (s.manager.users.lookup "v").map User.email)) =
      some ([], some "user@example.org", some "User@Example.org") := by decide +kernel
  obtain ⟨s, hs, hend⟩ := Option.map_eq_some_iff.mp hend
  simp only [Prod.mk.injEq, Option.map_eq_some_iff] at hend
  obtain ⟨hidle, ⟨user, huser, hemail⟩, user', huser', hemail'⟩ := hend
  have hone := hall _ _ _ s (Machine.runs_of_exec hs) (idle_of_entries hidle)
  have hsame : normalizeEmail user.email = normalizeEmail user'.email := by
    rw [hemail, hemail']
    decide +kernel
  exact absurd (hone.1 "u" "v" user user' huser huser' hsame) (by decide)

end RegisterState

end XiraNet

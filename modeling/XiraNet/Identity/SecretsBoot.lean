import XiraNet.Identity.SecretBox
import XiraNet.Identity.UserRestart

/-!
# Starts with another secrets key

A user store that is started on a table whose secrets are sealed with a key that it does not have.
It takes what it cannot open for a secret in plain text, and writes it back as such.

* `UserManager.seedSafe_iff`: throughout a run the right key still finds the secret of a user
  exactly if the user, while it has one, is not written with another key, and its row is not
  replaced by that of another user with its email.
* `UserManager.seedSafe_fails`: one change of role under a wrong key, and the secret is lost.
-/

namespace XiraNet

/-- A call to the user store, with the nonce that is drawn if it seals a secret. -/
structure SecretsCall where
  nonce : Nonce
  action : UserAction
  deriving DecidableEq

/-- The calls that are meant to change the secret of a user. -/
def UserAction.ChangesSeed (u : String) : UserAction → Prop
  | .startMfaEnrollment userId _ => userId = u
  | .disableMfa userId => userId = u
  | _ => False

instance (u : String) : (a : UserAction) → Decidable (a.ChangesSeed u)
  | .startMfaEnrollment userId _ => inferInstanceAs (Decidable (userId = u))
  | .disableMfa userId => inferInstanceAs (Decidable (userId = u))
  | .register .. | .updateRole .. | .addPermission .. | .disableUser .. | .verifyMfaSetup ..
  | .authenticate .. | .completeMfaLogin .. => .isFalse id

/-- A table that was written under a box with this key. -/
structure WrittenUnder {Key : Type} (crates : SecretCrates Key) (key : Key)
    (rows : Table UserRow) : Prop where
  unique : UniqueRows rows
  isSealed : ∀ row ∈ rows, ∀ stored, row.mfaSecret = some stored →
    ∃ nonce plain, SecretBox.sealBytes crates key nonce (Utf8.encode plain) = .ok stored

/-- A text that stands in the row of a user, as its secret. -/
def Stored (rows : Table UserRow) (u stored : String) : Prop :=
  ∃ row ∈ rows, row.id = u ∧ row.mfaSecret = some stored

namespace UserManager

section Definitions

variable {Key : Type} (crates : SecretCrates Key) (lib : UserLib) (loader : UserLoader)

/-- The secret of a user after a start with this box, or without one. -/
def seed (secrets : Option Key) (rows : Table UserRow) (u : String) : Option String :=
  ((withStorageAndSecrets (loader.withSecrets crates secrets) rows).users.lookup u).bind
    User.mfaSecret

/-- The user store of a process that has this box or none. The secret of the user `u` is not
changed on purpose. -/
def secretsMachine (secrets : Option Key) (u : String) : Machine UserManager SecretsCall where
  step m call :=
    if call.action.ChangesSeed u then none
    else m.step (lib.withSecrets crates secrets call.nonce) call.action

/-- A start with the right key finds the secret of the user that it found in the old table. -/
def SeedSafe (key : Key) (rows : Table UserRow) (u : String) (m : UserManager) : Prop :=
  ∃ rows', m.storage = some rows' ∧
    seed crates loader (some key) rows' u = seed crates loader (some key) rows u

/-- What the call writes is the user itself, without a secret or to a table without a box, or
another user, whose email is not the one in the row of the user if that has a secret. -/
def SparesSeed (secrets : Option Key) (u : String) (m : UserManager) (call : SecretsCall) : Prop :=
  ∀ user ∈ m.written (lib.withSecrets crates secrets call.nonce) call.action,
    (user.id = u → user.mfaSecret ≠ none → secrets = none) ∧
      (user.id ≠ u → ∀ rows' ∈ m.storage, ∀ row ∈ rows', row.id = u → row.mfaSecret ≠ none →
        row.email ≠ user.email)

instance [DecidableEq Key] (secrets : Option Key) (u : String) (m : UserManager)
    (call : SecretsCall) : Decidable (SparesSeed crates lib secrets u m call) :=
  inferInstanceAs (Decidable (∀ user ∈ m.written _ call.action, _))

end Definitions

variable {Key : Type} {crates : SecretCrates Key} {lib : UserLib} {loader : UserLoader}

/-- What was sealed with another key is taken as it stands. -/
theorem decryptMfaSecret_of_ne (hcrates : crates.Lawful) {key : Key} {nonce : Nonce}
    {plaintext : List UInt8} {stored : String}
    (hstored : SecretBox.sealBytes crates key nonce plaintext = .ok stored)
    {secrets : Option Key} (hsecrets : secrets ≠ some key) :
    decryptMfaSecret (loader.withSecrets crates secrets) (some stored) = some stored := by
  obtain ⟨_, hseal, -, hother, -⟩ := SecretBox.sealBytes_spec hcrates key nonce plaintext
  cases hstored.symm.trans hseal
  cases secrets with
  | none => rfl
  | some other =>
      obtain ⟨e, he⟩ := hother other fun heq => hsecrets (congrArg some heq)
      simp only [decryptMfaSecret, UserLoader.withSecrets, Option.bind_some, he]

/-- What was sealed with the same key is opened. -/
theorem decryptMfaSecret_own (hcrates : crates.Lawful) {key : Key} {nonce : Nonce}
    {plain stored : String}
    (hstored : SecretBox.sealBytes crates key nonce (Utf8.encode plain) = .ok stored) :
    decryptMfaSecret (loader.withSecrets crates (some key)) (some stored) = some plain := by
  obtain ⟨_, hseal, hopen, -, -⟩ := SecretBox.sealBytes_spec hcrates key nonce (Utf8.encode plain)
  cases hstored.symm.trans hseal
  simp only [decryptMfaSecret, UserLoader.withSecrets, Option.bind_some, hopen, Utf8.decode_encode]

/-- The secret that a start finds is what it makes of the stored text. -/
theorem seed_eq_some_iff {rows : Table UserRow} (hrows : UniqueRows rows) {secrets : Option Key}
    {u found : String} :
    seed crates loader secrets rows u = some found ↔
      ∃ stored, Stored rows u stored ∧
        decryptMfaSecret (loader.withSecrets crates secrets) (some stored) = some found := by
  unfold seed
  simp only [Option.bind_eq_some_iff, lookup_users_withStorage hrows]
  constructor
  · rintro ⟨_, ⟨row, hrow, hid, rfl⟩, hfound⟩
    obtain ⟨stored, hstored, -⟩ := Option.bind_eq_some_iff.mp hfound
    refine ⟨stored, ⟨row, hrow, hid, hstored⟩, ?_⟩
    rw [← hstored]
    exact hfound
  · rintro ⟨stored, ⟨row, hrow, hid, hstored⟩, hfound⟩
    refine ⟨_, ⟨row, hrow, hid, rfl⟩, ?_⟩
    rw [← hstored] at hfound
    exact hfound

/-- A call that is not meant to change the secret of a user writes the one it has. -/
theorem mfaSecret_written {m m' : UserManager} {a : UserAction} {user : User}
    (hstep : m.step lib a = some m') (hwritten : m.written lib a = some user)
    (hkeeps : ¬a.ChangesSeed user.id) :
    user.mfaSecret = (m.users.lookup user.id).bind User.mfaSecret := by
  -- A user that is found is stored under its own id.
  have hown : ∀ {id : String} {old : User}, m.users.lookup id = some old →
      (m.users.lookup old.id).bind User.mfaSecret = old.mfaSecret := by
    intro id old hold
    rw [m.keyed id old hold, hold, Option.bind_some]
  cases a with
  | register id now passwordHash email username role =>
      simp only [step] at hstep
      simp only [written] at hwritten
      split at hstep
      next => cases hstep
      next hnew =>
        split at hwritten
        next => cases hwritten
        next =>
          cases hwritten
          rw [Option.not_isSome_iff_eq_none.mp hnew, Option.bind_none]
  | updateRole id role =>
      obtain ⟨old, hold, rfl⟩ := Option.map_eq_some_iff.mp hwritten
      exact (hown hold).symm
  | addPermission id permission =>
      obtain ⟨old, hold, rfl⟩ := Option.map_eq_some_iff.mp hwritten
      exact (hown hold).symm
  | disableUser id =>
      obtain ⟨old, hold, rfl⟩ := Option.map_eq_some_iff.mp hwritten
      exact (hown hold).symm
  | startMfaEnrollment userId secret =>
      obtain ⟨old, hold, rfl⟩ := Option.map_eq_some_iff.mp hwritten
      exact absurd (m.keyed userId old hold).symm hkeeps
  | verifyMfaSetup now userId code =>
      obtain ⟨old, hold, hwritten⟩ := Option.bind_eq_some_iff.mp hwritten
      split at hwritten
      next =>
        cases hwritten
        exact (hown hold).symm
      next => cases hwritten
  | disableMfa userId =>
      obtain ⟨old, hold, rfl⟩ := Option.map_eq_some_iff.mp hwritten
      exact absurd (m.keyed userId old hold).symm hkeeps
  | authenticate now later token email password =>
      simp only [written] at hwritten
      split at hwritten
      next hres =>
        cases hwritten
        obtain ⟨old, hold, -, -, -, rfl⟩ := authenticate_success hres
        exact (hown hold).symm
      next => cases hwritten
  | completeMfaLogin now later token userId code =>
      simp only [written] at hwritten
      split at hwritten
      next hres =>
        cases hwritten
        obtain ⟨old, _, hold, -, -, -, -, rfl⟩ := completeMfaLogin_success hres
        exact (hown hold).symm
      next => cases hwritten

/-- The invariant of a process without the key: the row of the user holds what it held at the
start, and the user in memory has that for its secret. -/
structure SeedKept (rows : Table UserRow) (u : String) (m : UserManager) : Prop where
  storage : ∃ rows', m.storage = some rows' ∧ UniqueRows rows' ∧
    ∀ stored, Stored rows' u stored ↔ Stored rows u stored
  users : ∀ stored, (m.users.lookup u).bind User.mfaSecret = some stored ↔ Stored rows u stored

/-- The invariant at the start. -/
theorem seedKept_boot (hcrates : crates.Lawful) {key : Key} {rows : Table UserRow}
    (hrows : WrittenUnder crates key rows) {secrets : Option Key} (hsecrets : secrets ≠ some key)
    (u : String) :
    SeedKept rows u (withStorageAndSecrets (loader.withSecrets crates secrets) rows) where
  storage := ⟨rows, rfl, hrows.unique, fun _ => Iff.rfl⟩
  users stored := by
    have hread : ∀ text, Stored rows u text →
        decryptMfaSecret (loader.withSecrets crates secrets) (some text) = some text := by
      rintro text ⟨row, hrow, -, htext⟩
      obtain ⟨nonce, plain, hseal⟩ := hrows.isSealed row hrow text htext
      exact decryptMfaSecret_of_ne hcrates hseal hsecrets
    refine (seed_eq_some_iff hrows.unique).trans ⟨?_, fun h => ⟨stored, h, hread stored h⟩⟩
    rintro ⟨text, htext, hfound⟩
    cases (hread text htext).symm.trans hfound
    exact htext

/-- Where the row of the user holds what it held, the right key finds what it found. -/
theorem SeedKept.seedSafe {m : UserManager} {rows : Table UserRow} {u : String}
    (hm : SeedKept rows u m) (hrows : UniqueRows rows) (key : Key) :
    m.SeedSafe crates loader key rows u := by
  obtain ⟨rows', hstorage, hrows', hsame⟩ := hm.storage
  refine ⟨rows', hstorage, Option.ext fun found => ?_⟩
  rw [seed_eq_some_iff hrows, seed_eq_some_iff hrows']
  simp only [hsame]

/-- A call leaves the users and the table alone, or writes one user to both. -/
theorem step_writes {m m' : UserManager} {a : UserAction} (h : m.step lib a = some m') :
    (m.written lib a = none ∧ m'.users = m.users ∧ m'.storage = m.storage) ∨
      ∃ user, m.written lib a = some user ∧ m'.users = m.users.insert user.id user ∧
        m'.storage = m.storage.map (writeRow lib user) := by
  rcases step_cases h with ⟨hnone, hsame⟩ | ⟨user, hwritten, hupdates | hadds⟩
  · exact .inl ⟨hnone, hsame.users, hsame.storage⟩
  · exact .inr ⟨user, hwritten, hupdates.users, hupdates.storage⟩
  · exact .inr ⟨user, hwritten, hadds.users, hadds.storage⟩

/-- What the row of a user holds after the user was written. -/
theorem stored_writeRow_own {user : User} {rows : Table UserRow} {stored : String} :
    Stored (writeRow lib user rows) user.id stored ↔
      user.mfaSecret.map lib.encryptMfaSecret = some stored := by
  constructor
  · rintro ⟨row, hrow, hid, hstored⟩
    rcases mem_writeRow.mp hrow with ⟨-, hne, -⟩ | rfl
    · exact absurd hid.symm hne
    · exact hstored
  · exact fun h => ⟨_, mem_writeRow.mpr (.inr rfl), rfl, h⟩

/-- What the row of a user holds after another one was written. -/
theorem stored_writeRow_of_ne {user : User} {rows : Table UserRow} {u stored : String}
    (hne : user.id ≠ u) :
    Stored (writeRow lib user rows) u stored ↔
      ∃ row ∈ rows, row.id = u ∧ row.mfaSecret = some stored ∧ row.email ≠ user.email := by
  constructor
  · rintro ⟨row, hrow, hid, hstored⟩
    rcases mem_writeRow.mp hrow with ⟨hmem, -, hemail⟩ | rfl
    · exact ⟨row, hmem, hid, hstored, hemail.symm⟩
    · exact absurd hid hne
  · rintro ⟨row, hrow, rfl, hstored, hemail⟩
    exact ⟨row, mem_writeRow.mpr (.inl ⟨hrow, hne, hemail.symm⟩), rfl, hstored⟩

variable {key : Key} {rows : Table UserRow} {secrets : Option Key} {u : String}
  {m m' : UserManager} {call : SecretsCall}

/-- A step that spares the secret keeps the invariant. -/
theorem seedKept_step (hm : SeedKept rows u m) (hok : m.SparesSeed crates lib secrets u call)
    (h : (secretsMachine crates lib secrets u).step m call = some m') : SeedKept rows u m' := by
  obtain ⟨hkeeps, hstep⟩ := Option.ite_none_left_eq_some.mp h
  obtain ⟨rows', hstorage, hrows', hsame⟩ := hm.storage
  rcases step_writes hstep with ⟨-, husers', hstorage'⟩ | ⟨user, hwritten, husers', hstorage'⟩
  · exact ⟨⟨rows', hstorage'.trans hstorage, hrows', hsame⟩, by rw [husers']; exact hm.users⟩
  · rw [hstorage, Option.map_some] at hstorage'
    obtain ⟨hown, hother⟩ := hok user hwritten
    by_cases hid : user.id = u
    · -- The user itself is written, with the secret that it has in memory.
      subst hid
      have hsecret := mfaSecret_written hstep hwritten hkeeps
      -- Without a box the text is written as it was read.
      have hplain : user.mfaSecret.map
          (lib.withSecrets crates secrets call.nonce).encryptMfaSecret = user.mfaSecret := by
        cases hmfa : user.mfaSecret with
        | none => rfl
        | some stored =>
            rw [hown rfl (by simp [hmfa])]
            rfl
      refine ⟨⟨_, hstorage', uniqueRows_writeRow _ hrows' user, fun stored => ?_⟩, fun stored => ?_⟩
      · rw [stored_writeRow_own, hplain, hsecret]
        exact hm.users stored
      · rw [husers', DashMap.lookup_insert, if_pos rfl, Option.bind_some, hsecret]
        exact hm.users stored
    · -- Another user is written, whose email is not in the row of this one.
      refine ⟨⟨_, hstorage', uniqueRows_writeRow _ hrows' user, fun stored => ?_⟩, fun stored => ?_⟩
      · rw [stored_writeRow_of_ne hid, ← hsame stored]
        constructor
        · exact fun ⟨row, hrow, hrowid, hstored, _⟩ => ⟨row, hrow, hrowid, hstored⟩
        · rintro ⟨row, hrow, hrowid, hstored⟩
          exact ⟨row, hrow, hrowid, hstored,
            hother hid rows' hstorage row hrow hrowid (by simp [hstored])⟩
      · rw [husers', DashMap.lookup_insert, if_neg (Ne.symm hid)]
        exact hm.users stored

/-- What the row of a user holds in a table that was written under the key is the secret, sealed,
and longer than it. -/
theorem seed_of_stored (loader : UserLoader) (hcrates : crates.Lawful)
    (hrows : WrittenUnder crates key rows) {stored : String} (hstored : Stored rows u stored) :
    ∃ plain, seed crates loader (some key) rows u = some plain ∧
      (Utf8.encode plain).length < (Utf8.encode stored).length := by
  obtain ⟨row, hrow, -, htext⟩ := id hstored
  obtain ⟨nonce, plain, hseal⟩ := hrows.isSealed row hrow stored htext
  obtain ⟨_, hseal', -, -, hlength⟩ :=
    SecretBox.sealBytes_spec hcrates key nonce (Utf8.encode plain)
  cases hseal.symm.trans hseal'
  exact ⟨plain, (seed_eq_some_iff hrows.unique).mpr
    ⟨stored, hstored, decryptMfaSecret_own hcrates hseal⟩, hlength⟩

/-- After a step that does not spare it the secret is lost. -/
theorem not_seedSafe_step (hcrates : crates.Lawful) (hrows : WrittenUnder crates key rows)
    (hsecrets : secrets ≠ some key) (hm : SeedKept rows u m)
    (hbad : ¬m.SparesSeed crates lib secrets u call)
    (h : (secretsMachine crates lib secrets u).step m call = some m') :
    ¬m'.SeedSafe crates loader key rows u := by
  obtain ⟨hkeeps, hstep⟩ := Option.ite_none_left_eq_some.mp h
  obtain ⟨rows', hstorage, hrows', hsame⟩ := hm.storage
  rintro ⟨rows'', hstorage'', hseed⟩
  rcases step_writes hstep with ⟨hnone, -⟩ | ⟨user, hwritten, -, hstorage'⟩
  · refine hbad fun user huser => ?_
    rw [hnone] at huser
    cases huser
  · -- If the secret were found after the write, the write would have spared it.
    rw [hstorage, Option.map_some, hstorage''] at hstorage'
    cases hstorage'
    refine hbad fun user' hwritten' => ?_
    cases hwritten.symm.trans hwritten'
    have hrows'' := uniqueRows_writeRow (lib.withSecrets crates secrets call.nonce) hrows' user
    refine ⟨fun hid hmfa => ?_, fun hid row' hrow' row hrow hrowid hmfa hemail => ?_⟩
    · subst hid
      obtain ⟨stored, hstored⟩ := Option.ne_none_iff_exists'.mp hmfa
      cases hbox : secrets with
      | none => rfl
      | some other =>
          exfalso
          subst hbox
          have hold : Stored rows user.id stored := by
            rw [← hm.users stored, ← mfaSecret_written hstep hwritten hkeeps]
            exact hstored
          obtain ⟨plain, hplain, hshort⟩ := seed_of_stored loader hcrates hrows hold
          -- The text that could not be opened is sealed again, with the wrong key.
          obtain ⟨twice, htwice, -, -, hlong⟩ :=
            SecretBox.sealBytes_spec hcrates other call.nonce (Utf8.encode stored)
          have hnew : seed crates loader (some key)
              (writeRow (lib.withSecrets crates (some other) call.nonce) user rows') user.id =
                some twice := by
            refine (seed_eq_some_iff hrows'').mpr ⟨twice, stored_writeRow_own.mpr ?_,
              decryptMfaSecret_of_ne hcrates htwice hsecrets.symm⟩
            rw [hstored]
            simp only [Option.map_some, UserLib.withSecrets, SecretBox.encryptMfaSecret, htwice]
          rw [hnew, hplain] at hseed
          cases hseed
          omega
    · cases hstorage.symm.trans hrow'
      obtain ⟨stored, hstored⟩ := Option.ne_none_iff_exists'.mp hmfa
      obtain ⟨plain, hplain, -⟩ := seed_of_stored loader hcrates hrows
        ((hsame stored).mp ⟨row, hrow, hrowid, hstored⟩)
      rw [hplain, seed_eq_some_iff hrows''] at hseed
      obtain ⟨_, hnew, -⟩ := hseed
      obtain ⟨row', hrow', hrowid', -, hemail'⟩ := (stored_writeRow_of_ne hid).mp hnew
      -- The row of the user is the one that was replaced.
      have hids : (rows'.map UserRow.id).Nodup := List.pairwise_map.mpr hrows'.ids
      rw [List.inj_on_of_nodup_map hids hrow' hrow (hrowid'.trans hrowid.symm)] at hemail'
      exact hemail' hemail

/-- Throughout a run of a process that was started without the key, the right key still finds the
secret of a user exactly if every call spares it. -/
theorem seedSafe_iff (hcrates : crates.Lawful) (hrows : WrittenUnder crates key rows)
    (hsecrets : secrets ≠ some key) {calls : List SecretsCall}
    (hrun : (secretsMachine crates lib secrets u).Runs Machine.unrestricted
      (withStorageAndSecrets (loader.withSecrets crates secrets) rows) calls m) :
    (secretsMachine crates lib secrets u).Throughout (SeedSafe crates loader key rows u)
        (withStorageAndSecrets (loader.withSecrets crates secrets) rows) calls ↔
      (secretsMachine crates lib secrets u).Runs (SparesSeed crates lib secrets u)
        (withStorageAndSecrets (loader.withSecrets crates secrets) rows) calls m :=
  hrun.throughout_iff (I := SeedKept rows u) (fun _ hm => hm.seedSafe hrows.unique key)
    (fun _ _ _ hm hok h => seedKept_step hm hok h)
    (fun _ _ _ hm hbad h => not_seedSafe_step hcrates hrows hsecrets hm hbad h)
    (seedKept_boot hcrates hrows hsecrets u)

end UserManager

/-! ### A concrete box

A ciphertext is the plaintext with the key for a tag, and bytes are written as the characters with
their numbers. -/

namespace PlainBox

/-- The length of a tag. -/
def tagLength : ℕ := 16

/-- The tag of a key. -/
def tag (key : UInt8) : List UInt8 := List.replicate tagLength key

/-- A byte as a character. -/
def toChar (b : UInt8) : Char := Char.ofNat b.toNat

/-- A character as a byte. -/
def ofChar (c : Char) : UInt8 := UInt8.ofNat c.toNat

/-- The crates of the box. -/
def plainCrates : SecretCrates UInt8 where
  encrypt key _ plaintext := .ok (plaintext ++ tag key)
  decrypt key _ ciphertext :=
    if ciphertext.drop (ciphertext.length - tagLength) = tag key then
      .ok (ciphertext.take (ciphertext.length - tagLength))
    else .error "aead::Error"
  b64Encode bytes := String.ofList (bytes.map toChar)
  b64Decode s := .ok (s.toList.map ofChar)

/-- A byte is read back from its character. -/
theorem ofChar_toChar (b : UInt8) : ofChar (toChar b) = b := by
  have hb : b.toNat < 256 := b.toNat_lt
  have hvalid : b.toNat.isValidChar := .inl (by omega)
  rw [ofChar, toChar, Char.toNat, Char.ofNat, dif_pos hvalid]
  exact UInt8.ofNat_toNat

/-- The box keeps what is asked of one. -/
theorem lawful_plain : plainCrates.Lawful where
  decode_encode bytes := by
    simp only [plainCrates, String.toList_ofList, List.map_map, Function.comp_def, ofChar_toChar,
      List.map_id']
  length_encode bytes := by
    simp only [plainCrates, Utf8.encode, String.toList_ofList, List.flatMap_map]
    -- Every byte becomes a character, which has at least one byte.
    induction bytes with
    | nil => exact le_rfl
    | cons b bytes ih =>
        have hpos := (toChar b).utf8Size_pos
        rw [List.flatMap_cons, List.length_append, List.length_cons, String.length_utf8EncodeChar]
        omega
  encrypt_ok key nonce plaintext := by
    have htag : ∀ other, (tag other).length = tagLength := fun other => List.length_replicate
    have hdrop : (plaintext ++ tag key).length - tagLength = plaintext.length := by
      rw [List.length_append, htag, Nat.add_sub_cancel]
    refine ⟨_, rfl, by rw [List.length_append, htag]; rfl, ?_, fun other hne => ⟨"aead::Error", ?_⟩⟩
    · simp only [plainCrates]
      rw [hdrop, List.drop_left, if_pos rfl, List.take_left]
    · simp only [plainCrates]
      rw [hdrop, List.drop_left, if_neg]
      exact fun heq => hne ((List.replicate_right_inj (by decide)).mp heq.symm)

/-- A nonce. -/
def zeroNonce : Nonce := ⟨List.replicate nonceLen 0, by decide⟩

/-- A user with MFA. -/
def enrolledUser : User :=
  ⟨"u", "user@example.org", "User", "$argon2id$", .developer, [], 1000, 0, 0, true, true,
    some "AAAAAAAA"⟩

/-- The table of the user, written under a key. -/
def enrolledRows (key : UInt8) : Table UserRow :=
  [enrolledUser.toRow (PlainTable.plainLib.withSecrets plainCrates (some key) zeroNonce)]

/-- The table is one that was written under the key. -/
theorem writtenUnder_enrolledRows (key : UInt8) :
    WrittenUnder plainCrates key (enrolledRows key) where
  unique := ⟨List.pairwise_singleton _ _, List.pairwise_singleton _ _⟩
  isSealed := by
    rintro row hrow stored hstored
    cases List.mem_singleton.mp hrow
    cases hstored
    exact ⟨zeroNonce, "AAAAAAAA", rfl⟩

/-- Calls in a process without a box: the user is given a role and a permission, tries to log in,
and is disabled, and another one registers. -/
def boxlessRun : List SecretsCall :=
  [.updateRole "u" .admin, .addPermission "u" "deploy",
    .authenticate 1002 1003 "xira_tok_1" "user@example.org" "secret",
    .completeMfaLogin 1004 1005 "xira_tok_2" "u" "000000", .disableUser "u",
    .register "v" 1006 "$argon2id$" "other@example.org" "Other" .viewer].map (⟨zeroNonce, ·⟩)

end PlainBox

open PlainTable PlainBox UserManager

/-- A process without a box does the secret no harm. -/
theorem seedSafe_boxlessRun :
    (secretsMachine plainCrates plainLib none "u").Throughout
      (SeedSafe plainCrates plainLoader 1 (enrolledRows 1) "u")
      (withStorageAndSecrets (plainLoader.withSecrets plainCrates none) (enrolledRows 1))
      boxlessRun := by
  obtain ⟨m, hm⟩ : ∃ m, (secretsMachine plainCrates plainLib none "u").exec
      (SparesSeed plainCrates plainLib none "u")
      (withStorageAndSecrets (plainLoader.withSecrets plainCrates none) (enrolledRows 1))
      boxlessRun = some m :=
    Option.isSome_iff_exists.mp (by decide +kernel)
  have hrun := Machine.runs_of_exec hm
  exact (UserManager.seedSafe_iff lawful_plain (writtenUnder_enrolledRows 1) (by simp)
    (hrun.mono fun _ _ _ => trivial)).mpr hrun

/-- Under another key a change of the role seals the secret once more. -/
theorem seedSafe_fails :
    ¬∀ (Key : Type) (crates : SecretCrates Key) (lib : UserLib) (loader : UserLoader),
      crates.Lawful → ∀ (key : Key) (rows : Table UserRow), WrittenUnder crates key rows →
        ∀ (secrets : Option Key), secrets ≠ some key → ∀ (u : String) (calls : List SecretsCall)
          (m : UserManager),
          (secretsMachine crates lib secrets u).Runs Machine.unrestricted
            (withStorageAndSecrets (loader.withSecrets crates secrets) rows) calls m →
            m.SeedSafe crates loader key rows u := by
  intro hall
  have hkeys : (some 2 : Option UInt8) ≠ some 1 := by decide
  obtain ⟨m, hstep⟩ : ∃ m, (secretsMachine plainCrates plainLib (some 2) "u").step
      (withStorageAndSecrets (plainLoader.withSecrets plainCrates (some 2)) (enrolledRows 1))
      ⟨zeroNonce, .updateRole "u" .admin⟩ = some m := ⟨_, rfl⟩
  have hbad : ¬SparesSeed plainCrates plainLib (some 2) "u"
      (withStorageAndSecrets (plainLoader.withSecrets plainCrates (some 2)) (enrolledRows 1))
      ⟨zeroNonce, .updateRole "u" .admin⟩ := by
    decide +kernel
  have hrows := writtenUnder_enrolledRows 1
  have hsafe := hall _ _ _ plainLoader lawful_plain _ _ hrows _ hkeys "u" _ m
    (.cons trivial hstep (.nil m))
  exact not_seedSafe_step lawful_plain hrows hkeys (seedKept_boot lawful_plain hrows hkeys "u")
    hbad hstep hsafe

end XiraNet

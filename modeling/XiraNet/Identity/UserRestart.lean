import XiraNet.Identity.Accounts

/-!
# Restarts of the user store

A user store with a table against the store that a start would load from the table. The role goes to
the table in its `Debug` form and the email as it was given, and they are read back by other rules
than they are written.

* `toUser_toRow_iff`: the users that are read back as they were written.
* `sameAfterRestart_throughout_iff`: throughout a run a restart makes no difference exactly if every
  user that is written is read back, and every email that is registered is normalized already.
* `sameAfterRestart_fails`: a user who registers with a capital letter in the email.
-/

namespace XiraNet

/-- What is known of the libraries that the table is written and read with. -/
structure FaithfulTable (lib : UserLib) (loader : UserLoader) : Prop where
  /-- Opening a box after sealing it. -/
  open_seal : ∀ s, loader.openSecret (lib.encryptMfaSecret s) = some (some s)
  parse_permissions : ∀ ps, loader.parsePermissions (lib.permissionsJson ps) = some ps
  /-- The `Debug` form of a string stands in quotation marks. -/
  debug_quoted : ∀ s, ∃ body, lib.debugString s = "\"" ++ body ++ "\"" ∧ s.length ≤ body.length

/-- A user that is read back from its row: no custom role, and numbers that are no negative
`i64`. -/
structure User.ReadsBack (user : User) : Prop where
  role : ∀ name, user.role ≠ .custom name
  createdAt : user.createdAt < 2 ^ 63
  lastLogin : user.lastLogin < 2 ^ 63
  loginCount : user.loginCount < 2 ^ 63

/-- The name of a custom role. -/
def UserRole.customName : UserRole → Option String
  | .custom name => some name
  | .superAdmin | .admin | .developer | .viewer | .service => none

theorem UserRole.customName_eq_none {role : UserRole} :
    role.customName = none ↔ ∀ name, role ≠ .custom name := by
  cases role <;> simp [customName]

instance (role : UserRole) : Decidable (∀ name, role ≠ .custom name) :=
  decidable_of_iff _ UserRole.customName_eq_none

instance (user : User) : Decidable user.ReadsBack :=
  decidable_of_iff ((∀ name, user.role ≠ .custom name) ∧ user.createdAt < 2 ^ 63 ∧
      user.lastLogin < 2 ^ 63 ∧ user.loginCount < 2 ^ 63)
    ⟨fun ⟨hrole, hcreated, hlast, hcount⟩ => ⟨hrole, hcreated, hlast, hcount⟩,
      fun ⟨hrole, hcreated, hlast, hcount⟩ => ⟨hrole, hcreated, hlast, hcount⟩⟩

/-- The unique constraints of `identity_users`. -/
structure UniqueRows (rows : Table UserRow) : Prop where
  ids : rows.Pairwise fun row row' => row.id ≠ row'.id
  emails : rows.Pairwise fun row row' => row.email ≠ row'.email

namespace UserManager

/-- A store has the same users as another one, and finds the same user for every email, so that
both register and authenticate alike. -/
structure SameAs (m m' : UserManager) : Prop where
  users : ∀ id, m'.users.lookup id = m.users.lookup id
  emails : ∀ email, m'.emailIndex.lookup (normalizeEmail email) =
    m.emailIndex.lookup (normalizeEmail email)

/-- A restart makes no difference. -/
def SameAfterRestart (loader : UserLoader) (m : UserManager) : Prop :=
  ∃ rows, m.storage = some rows ∧ m.SameAs (withStorageAndSecrets loader rows)

/-- What a call writes is read back, and the email of a new user is normalized. -/
def WritesBack (lib : UserLib) (m : UserManager) (a : UserAction) : Prop :=
  ∀ user ∈ m.written lib a, user.ReadsBack ∧
    (m.users.lookup user.id = none → normalizeEmail user.email = user.email)

instance (lib : UserLib) (m : UserManager) (a : UserAction) : Decidable (m.WritesBack lib a) :=
  inferInstanceAs (Decidable (∀ user ∈ m.written lib a, _))

end UserManager

variable {lib : UserLib} {loader : UserLoader}

/-- The name of a custom role is read back with its quotation marks. -/
theorem ofText_debug_custom (name : String) :
    UserRole.ofText ((UserRole.custom name).debug lib) = .custom (lib.debugString name) := by
  have hlist : ((UserRole.custom name).debug lib).toList =
      "Custom(".toList ++ (lib.debugString name).toList ++ [')'] := by
    simp [UserRole.debug]
  have hstart : Text.startsWith ((UserRole.custom name).debug lib) "Custom(" = true := by
    rw [Text.startsWith_iff, hlist, List.append_assoc]
    exact List.prefix_append _ _
  have hne : ∀ s : String, Text.startsWith s "Custom(" = false →
      (UserRole.custom name).debug lib ≠ s := by
    rintro s hs rfl
    rw [hstart] at hs
    cases hs
  unfold UserRole.ofText
  rw [if_neg (hne _ (by decide)), if_neg (hne _ (by decide)), if_neg (hne _ (by decide)),
    if_neg (hne _ (by decide)), if_pos hstart, hlist]
  congr 1
  apply String.toList_inj.mp
  rw [String.toList_ofList, List.append_assoc]
  have hdrop : ("Custom(".toList ++ ((lib.debugString name).toList ++ [')'])).drop 7 =
      (lib.debugString name).toList ++ [')'] := List.drop_left' (by decide)
  rw [hdrop, List.dropLast_concat]

/-- A role is read back exactly if it is not a custom one. -/
theorem ofText_debug_iff (hlib : FaithfulTable lib loader) (role : UserRole) :
    UserRole.ofText (role.debug lib) = role ↔ ∀ name, role ≠ .custom name := by
  cases role with
  | custom name =>
      refine iff_of_false (fun heq => ?_) fun h => h name rfl
      rw [ofText_debug_custom] at heq
      obtain ⟨body, hbody, hlength⟩ := hlib.debug_quoted name
      have hname : lib.debugString name = name := UserRole.custom.inj heq
      rw [hname] at hbody
      have hcount := congrArg String.length hbody
      have hquote : ("\"" : String).length = 1 := rfl
      rw [String.length_append, String.length_append] at hcount
      omega
  | superAdmin => exact iff_of_true rfl (by simp)
  | admin => exact iff_of_true rfl (by simp)
  | developer => exact iff_of_true rfl (by simp)
  | viewer =>
      refine iff_of_true ?_ (by simp)
      change UserRole.ofText "Viewer" = .viewer
      decide
  | service => exact iff_of_true rfl (by simp)

/-- The users that are read back as they were written. -/
theorem toUser_toRow_iff (hlib : FaithfulTable lib loader) (user : User) :
    (user.toRow lib).toUser loader = user ↔ user.ReadsBack := by
  have hsecret : ∀ secret : Option String,
      decryptMfaSecret loader (secret.map lib.encryptMfaSecret) = secret := by
    rintro (_ | s)
    · rfl
    · simp [decryptMfaSecret, hlib.open_seal]
  have hflag : ∀ b : Bool, decide ((if b = true then (1 : ℤ) else 0) = 1) = b := by decide
  constructor
  · intro heq
    have hrole := congrArg User.role heq
    have hcreated := congrArg User.createdAt heq
    have hlast := congrArg User.lastLogin heq
    have hcount := congrArg User.loginCount heq
    exact ⟨(ofText_debug_iff hlib _).mp hrole, (asU64_asI64_iff _).mp hcreated,
      (asU64_asI64_iff _).mp hlast, (asU64_asI64_iff _).mp hcount⟩
  · rintro ⟨hrole, hcreated, hlast, hcount⟩
    have hrole' := (ofText_debug_iff hlib _).mpr hrole
    have hcreated' := (asU64_asI64_iff _).mpr hcreated
    have hlast' := (asU64_asI64_iff _).mpr hlast
    have hcount' := (asU64_asI64_iff _).mpr hcount
    unfold UserRow.toUser User.toRow
    simp only [hrole', hlib.parse_permissions, hcreated', hlast', hcount', Option.getD_some,
      hsecret, hflag]

namespace UserManager

/-- The users that a start loads. -/
theorem lookup_users_withStorage {rows : Table UserRow} (hrows : UniqueRows rows) (id : String)
    (user : User) :
    (withStorageAndSecrets loader rows).users.lookup id = some user ↔
      ∃ row ∈ rows, row.id = id ∧ row.toUser loader = user := by
  have husers : (withStorageAndSecrets loader rows).users =
      rows.foldl (fun m row => m.insert row.id (row.toUser loader)) ∅ := List.foldl_map
  rw [husers]
  exact DashMap.lookup_foldl_insert_iff UserRow.id (UserRow.toUser loader) rows id user hrows.ids

/-- The email index that a start loads. -/
theorem lookup_emailIndex_withStorage {rows : Table UserRow} (hrows : UniqueRows rows)
    (email id : String) :
    (withStorageAndSecrets loader rows).emailIndex.lookup email = some id ↔
      ∃ row ∈ rows, row.email = email ∧ row.id = id :=
  DashMap.lookup_foldl_insert_iff UserRow.email UserRow.id rows email id hrows.emails

/-- The table after a user was written. -/
def writeRow (lib : UserLib) (user : User) (rows : Table UserRow) : Table UserRow :=
  rows.insertOrReplace (fun r r' => r.id = r'.id || r.email = r'.email) (user.toRow lib)

/-- A row of the table after a user was written. -/
theorem mem_writeRow {user : User} {rows : Table UserRow} {row : UserRow} :
    row ∈ writeRow lib user rows ↔
      (row ∈ rows ∧ user.id ≠ row.id ∧ user.email ≠ row.email) ∨ row = user.toRow lib := by
  simp [writeRow, Table.mem_insertOrReplace, User.toRow]

/-- The constraints hold after a user was written. -/
theorem uniqueRows_writeRow (lib : UserLib) {rows : Table UserRow} (hrows : UniqueRows rows)
    (user : User) :
    UniqueRows (writeRow lib user rows) := by
  have hother : ∀ row ∈ rows.delete (fun r' => decide ((user.toRow lib).id = r'.id) ||
      decide ((user.toRow lib).email = r'.email)),
      row.id ≠ user.id ∧ row.email ≠ user.email := by
    intro row hrow
    have hnot := (Table.mem_delete.mp hrow).2
    simp only [Bool.or_eq_false_iff, decide_eq_false_iff_not] at hnot
    exact ⟨Ne.symm hnot.1, Ne.symm hnot.2⟩
  constructor
  · refine List.pairwise_append.mpr ⟨hrows.ids.sublist List.filter_sublist, by simp, ?_⟩
    rintro row hrow row' hrow'
    rw [List.mem_singleton.mp hrow']
    exact (hother row hrow).1
  · refine List.pairwise_append.mpr ⟨hrows.emails.sublist List.filter_sublist, by simp, ?_⟩
    rintro row hrow row' hrow'
    rw [List.mem_singleton.mp hrow']
    exact (hother row hrow).2

/-- A user is loaded from its row and no other one, so a manager that has the user now is the one
that a start loads after the row was written. -/
theorem sameAs_writeRow (hlib : FaithfulTable lib loader) {m m' : UserManager}
    {rows : Table UserRow} {user : User} (hrows : UniqueRows rows)
    (hsame : m.SameAs (withStorageAndSecrets loader rows)) (hread : user.ReadsBack)
    (hrow : ∀ row ∈ rows, row.email = user.email ↔ row.id = user.id)
    (husers : m'.users = m.users.insert user.id user)
    (hemails : ∀ email, m'.emailIndex.lookup (normalizeEmail email) =
      if normalizeEmail email = user.email then some user.id
      else m.emailIndex.lookup (normalizeEmail email)) :
    m'.SameAs (withStorageAndSecrets loader (writeRow lib user rows)) := by
  have hrows' := uniqueRows_writeRow lib hrows user
  have hback := (toUser_toRow_iff hlib user).mpr hread
  constructor
  · intro id
    refine Option.ext fun found => ?_
    rw [lookup_users_withStorage hrows', husers, DashMap.lookup_insert]
    split
    next heq =>
      subst heq
      simp only [mem_writeRow, Option.some.injEq]
      constructor
      · rintro ⟨row, ⟨-, hne, -⟩ | rfl, hid, rfl⟩
        · exact absurd hid.symm hne
        · exact hback.symm
      · rintro rfl
        exact ⟨_, .inr rfl, rfl, hback⟩
    next hne =>
      rw [← hsame.users id, lookup_users_withStorage hrows]
      simp only [mem_writeRow]
      constructor
      · rintro ⟨row, ⟨hmem, -, -⟩ | rfl, hid, hfound⟩
        · exact ⟨row, hmem, hid, hfound⟩
        · exact absurd hid.symm hne
      · rintro ⟨row, hmem, hid, hfound⟩
        have hidne : row.id ≠ user.id := hid ▸ hne
        exact ⟨row, .inl ⟨hmem, hidne.symm, fun h => hidne ((hrow row hmem).mp h.symm)⟩, hid,
          hfound⟩
  · intro email
    refine Option.ext fun id => ?_
    rw [lookup_emailIndex_withStorage hrows', hemails]
    split
    next heq =>
      rw [heq]
      simp only [mem_writeRow, Option.some.injEq]
      constructor
      · rintro ⟨row, ⟨-, -, hne⟩ | rfl, hemail, rfl⟩
        · exact absurd hemail.symm hne
        · rfl
      · rintro rfl
        exact ⟨_, .inr rfl, rfl, rfl⟩
    next hne =>
      rw [← hsame.emails email, lookup_emailIndex_withStorage hrows]
      simp only [mem_writeRow]
      constructor
      · rintro ⟨row, ⟨hmem, -, -⟩ | rfl, hemail, hid⟩
        · exact ⟨row, hmem, hemail, hid⟩
        · exact absurd hemail.symm hne
      · rintro ⟨row, hmem, hemail, hid⟩
        have hemailne : row.email ≠ user.email := hemail ▸ hne
        exact ⟨row, .inl ⟨hmem, fun h => hemailne ((hrow row hmem).mpr h.symm), hemailne.symm⟩,
          hemail, hid⟩

/-- The invariant: a restart makes no difference, and the table meets its constraints. -/
def Persisted (loader : UserLoader) (m : UserManager) : Prop :=
  ∃ rows, m.storage = some rows ∧ UniqueRows rows ∧ m.SameAs (withStorageAndSecrets loader rows)

/-- The row of a user is the only one with its email. -/
theorem row_iff_of_updates {m m' : UserManager} {rows : Table UserRow} {user : User}
    (hrows : UniqueRows rows) (hsame : m.SameAs (withStorageAndSecrets loader rows))
    (hupdates : Updates lib user m m') :
    (∃ row ∈ rows, row.id = user.id ∧ row.email = user.email) ∧
      ∀ row ∈ rows, row.email = user.email ↔ row.id = user.id := by
  obtain ⟨old, hold, hemail⟩ := hupdates.old
  rw [← hsame.users, lookup_users_withStorage hrows] at hold
  obtain ⟨row, hmem, hid, rfl⟩ := hold
  have hids : (rows.map UserRow.id).Nodup := List.pairwise_map.mpr hrows.ids
  have hemails : (rows.map UserRow.email).Nodup := List.pairwise_map.mpr hrows.emails
  refine ⟨⟨row, hmem, hid, hemail⟩, fun row' hmem' => ⟨fun h => ?_, fun h => ?_⟩⟩
  · rw [List.inj_on_of_nodup_map hemails hmem' hmem (h.trans hemail.symm)]
    exact hid
  · rw [List.inj_on_of_nodup_map hids hmem' hmem (h.trans hid.symm)]
    exact hemail

/-- A step that writes what is read back keeps the invariant. -/
theorem persisted_step (hlib : FaithfulTable lib loader) {m m' : UserManager} {a : UserAction}
    (hm : Persisted loader m) (hok : m.WritesBack lib a) (h : m.step lib a = some m') :
    Persisted loader m' := by
  obtain ⟨rows, hstorage, hrows, hsame⟩ := hm
  rcases step_cases h with ⟨-, hu, hi, hs⟩ | ⟨user, hwritten, hupdates | hadds⟩
  · refine ⟨rows, hs.trans hstorage, hrows, fun id => ?_, fun email => ?_⟩
    · rw [hu]
      exact hsame.users id
    · rw [hi]
      exact hsame.emails email
  · obtain ⟨hread, -⟩ := hok user hwritten
    obtain ⟨⟨row, hmem, hid, hemail⟩, hrow⟩ := row_iff_of_updates hrows hsame hupdates
    refine ⟨writeRow lib user rows, ?_, uniqueRows_writeRow lib hrows user,
      sameAs_writeRow hlib hrows hsame hread hrow hupdates.users fun email => ?_⟩
    · rw [hupdates.storage]
      simp only [persistUser, hstorage, Option.map_some]
      rfl
    · rw [hupdates.emailIndex]
      split
      next heq =>
        rw [← hsame.emails, lookup_emailIndex_withStorage hrows]
        exact ⟨row, hmem, hemail.trans heq.symm, hid⟩
      next => rfl
  · obtain ⟨hread, hnormal⟩ := hok user hwritten
    have hemail := hnormal hadds.new
    -- No row has the id or the email of a new user.
    have hrow : ∀ row ∈ rows, row.email = user.email ↔ row.id = user.id := by
      refine fun row hmem => iff_of_false (fun h => ?_) fun h => ?_
      · have hfree := hadds.free
        rw [← hsame.emails, Option.eq_none_iff_forall_ne_some] at hfree
        exact hfree row.id ((lookup_emailIndex_withStorage hrows _ _).mpr
          ⟨row, hmem, h.trans hemail.symm, rfl⟩)
      · have hnew := hadds.new
        rw [← hsame.users, Option.eq_none_iff_forall_ne_some] at hnew
        exact hnew _ ((lookup_users_withStorage hrows _ _).mpr ⟨row, hmem, h, rfl⟩)
    refine ⟨writeRow lib user rows, ?_, uniqueRows_writeRow lib hrows user,
      sameAs_writeRow hlib hrows hsame hread hrow hadds.users fun email => ?_⟩
    · rw [hadds.storage]
      simp only [persistUser, hstorage, Option.map_some]
      rfl
    · rw [hadds.emailIndex, DashMap.lookup_insert, hemail]

/-- A restart after a step that writes what is not read back makes a difference. -/
theorem not_sameAfterRestart_of_step (hlib : FaithfulTable lib loader) {m m' : UserManager}
    {a : UserAction} (hm : Persisted loader m) (hbad : ¬ m.WritesBack lib a)
    (h : m.step lib a = some m') : ¬ m'.SameAfterRestart loader := by
  obtain ⟨rows, hstorage, hrows, hsame⟩ := hm
  rintro ⟨rows', hstorage', hsame'⟩
  have hwrite : ∀ user, m'.storage = (m.persistUser lib user).storage →
      rows' = writeRow lib user rows := by
    intro user hs
    rw [hs] at hstorage'
    simp only [persistUser, hstorage, Option.map_some, Option.some.injEq] at hstorage'
    exact hstorage'.symm
  -- The user that the row of the written user gives.
  have hreads : ∀ user, m'.users = m.users.insert user.id user →
      m'.storage = (m.persistUser lib user).storage → user.ReadsBack := by
    intro user hu hs
    have hrows' := uniqueRows_writeRow lib hrows user
    have hloaded : (withStorageAndSecrets loader (writeRow lib user rows)).users.lookup user.id =
        some ((user.toRow lib).toUser loader) :=
      (lookup_users_withStorage hrows' _ _).mpr ⟨_, mem_writeRow.mpr (.inr rfl), rfl, rfl⟩
    have hfound := hsame'.users user.id
    rw [hwrite user hs, hloaded, hu, DashMap.lookup_insert, if_pos rfl] at hfound
    exact (toUser_toRow_iff hlib user).mp (Option.some.inj hfound)
  unfold WritesBack at hbad
  push Not at hbad
  obtain ⟨user, hmem, hbad⟩ := hbad
  rcases step_cases h with ⟨hnone, -⟩ | ⟨user', hwritten, hcase⟩
  · rw [hnone] at hmem
    cases hmem
  · have heq : user' = user := Option.some.inj (hwritten.symm.trans hmem)
    subst heq
    rcases hcase with hupdates | hadds
    · obtain ⟨hnew, -⟩ := hbad (hreads user' hupdates.users hupdates.storage)
      obtain ⟨old, hold, -⟩ := hupdates.old
      rw [hnew] at hold
      cases hold
    · obtain ⟨-, hne⟩ := hbad (hreads user' hadds.users hadds.storage)
      have hrows' := uniqueRows_writeRow lib hrows user'
      have hindex := hsame'.emails user'.email
      rw [hwrite user' hadds.storage, hadds.emailIndex, DashMap.lookup_insert, if_pos rfl,
        lookup_emailIndex_withStorage hrows'] at hindex
      obtain ⟨row, hrow, hemail, -⟩ := hindex
      rcases mem_writeRow.mp hrow with ⟨hold, -, -⟩ | rfl
      · -- Nothing was stored under the normalized email.
        have hfree := hadds.free
        rw [← hsame.emails, Option.eq_none_iff_forall_ne_some] at hfree
        exact hfree row.id ((lookup_emailIndex_withStorage hrows _ _).mpr ⟨row, hold, hemail, rfl⟩)
      · exact hne hemail.symm

end UserManager

/-- Throughout a run from a start on any table, a restart makes no difference exactly if every call
writes what is read back. -/
theorem UserManager.sameAfterRestart_throughout_iff (hlib : FaithfulTable lib loader)
    {rows : Table UserRow} (hrows : UniqueRows rows) (as : List UserAction) (m : UserManager)
    (hrun : (UserManager.machine lib).Runs Machine.unrestricted
      (UserManager.withStorageAndSecrets loader rows) as m) :
    (UserManager.machine lib).Throughout (UserManager.SameAfterRestart loader)
        (UserManager.withStorageAndSecrets loader rows) as ↔
      (UserManager.machine lib).Runs (UserManager.WritesBack lib)
        (UserManager.withStorageAndSecrets loader rows) as m :=
  hrun.throughout_iff (I := UserManager.Persisted loader)
    (fun _ ⟨rows, hstorage, _, hsame⟩ => ⟨rows, hstorage, hsame⟩)
    (fun _ _ _ hm hok h => UserManager.persisted_step hlib hm hok h)
    (fun _ _ _ hm hbad h => UserManager.not_sameAfterRestart_of_step hlib hm hbad h)
    ⟨rows, rfl, hrows, fun _ => rfl, fun _ => rfl⟩

/-! ### A concrete table

JSON without control characters, a box with a label for a lid, and the `Debug` form of a string
that has nothing to escape. -/

namespace PlainTable

/-- A character in a JSON string. -/
def escape (c : Char) : List Char := if c = '"' ∨ c = '\\' then ['\\', c] else [c]

/-- A JSON string. -/
def quoted (s : String) : List Char := '"' :: s.toList.flatMap escape ++ ['"']

/-- The elements of a JSON list. -/
def elements : List String → List Char
  | [] => []
  | [s] => quoted s
  | s :: ps => quoted s ++ ',' :: elements ps

/-- Read the elements of a JSON list, outside of a string or inside of one. -/
def readElements : Option (List Char) → List Char → List String
  | none, '"' :: rest => readElements (some []) rest
  | none, _ :: rest => readElements none rest
  | none, [] => []
  | some s, '\\' :: c :: rest => readElements (some (s ++ [c])) rest
  | some s, '"' :: rest => String.ofList s :: readElements none rest
  | some s, c :: rest => readElements (some (s ++ [c])) rest
  | some _, [] => []

/-- An escaped character is read as it was. -/
theorem readElements_escape (c : Char) (s rest : List Char) :
    readElements (some s) (escape c ++ rest) = readElements (some (s ++ [c])) rest := by
  unfold escape
  split
  next => rfl
  next h =>
    push Not at h
    rw [List.singleton_append, readElements]
    · exact fun _ _ heq _ => h.2 heq
    · exact h.1

/-- A string is read as it was. -/
theorem readElements_quoted (s : String) (rest : List Char) :
    readElements none (quoted s ++ rest) = s :: readElements none rest := by
  have hbody : ∀ cs done : List Char,
      readElements (some done) (cs.flatMap escape ++ '"' :: rest) =
        String.ofList (done ++ cs) :: readElements none rest := by
    intro cs
    induction cs with
    | nil => simp [readElements]
    | cons c cs ih =>
        intro done
        rw [List.flatMap_cons, List.append_assoc, readElements_escape, ih, List.append_assoc]
        rfl
  have h := hbody s.toList []
  rw [List.nil_append, String.ofList_toList] at h
  rw [← h, quoted]
  simp [readElements]

/-- The elements of a list are read as they were. -/
theorem readElements_elements (ps : List String) :
    readElements none (elements ps ++ [']']) = ps := by
  fun_induction elements ps with
  | case1 => rfl
  | case2 s =>
      rw [readElements_quoted]
      rfl
  | case3 s ps _ ih =>
      rw [List.append_assoc, readElements_quoted, List.cons_append, readElements, ih]
      simp

/-- What the table is written with. -/
def plainLib : UserLib where
  verifyArgon2 _ _ := true
  hmac _ _ _ := 0
  debugString s := "\"" ++ s ++ "\""
  permissionsJson ps := String.ofList ('[' :: elements ps ++ [']'])
  encryptMfaSecret s := "v1:" ++ s

/-- What the table is read with. -/
def plainLoader : UserLoader where
  parsePermissions s := some (readElements none s.toList.tail)
  openSecret s := (Text.stripPrefix s "v1:").map some

/-- The table is read as it was written. -/
theorem faithfulTable_plain : FaithfulTable plainLib plainLoader where
  open_seal s := by simp only [plainLib, plainLoader, Text.stripPrefix_append, Option.map_some]
  parse_permissions ps := by
    simp only [plainLib, plainLoader, List.cons_append, String.toList_ofList, List.tail_cons,
      readElements_elements]
  debug_quoted s := ⟨s, rfl, le_rfl⟩

/-- A user of an empty store gets a permission and a second factor. -/
def enrollingRun : List UserAction :=
  [.register "u" 1000 "$argon2id$" "user@example.org" "User" .developer,
    .addPermission "u" "say \"hi\"", .startMfaEnrollment "u" "AAAAAAAA",
    .verifyMfaSetup 1001 "u" "000000", .updateRole "u" .admin,
    .authenticate 1002 1003 "xira_tok_1" "User@Example.org" "secret",
    .completeMfaLogin 1004 1005 "xira_tok_2" "u" "000000", .disableUser "u"]

end PlainTable

open PlainTable UserManager

/-- A restart makes no difference to the enrolled user. -/
theorem sameAfterRestart_enrollingRun :
    (machine plainLib).Throughout (SameAfterRestart plainLoader)
      (withStorageAndSecrets plainLoader []) enrollingRun := by
  obtain ⟨m, hm⟩ : ∃ m, (machine plainLib).exec (WritesBack plainLib)
      (withStorageAndSecrets plainLoader []) enrollingRun = some m :=
    Option.isSome_iff_exists.mp (by decide +kernel)
  have hrun := Machine.runs_of_exec hm
  exact (UserManager.sameAfterRestart_throughout_iff faithfulTable_plain ⟨.nil, .nil⟩ _ m
    (hrun.mono fun _ _ _ => trivial)).mpr hrun

/-- A user who registered with a capital letter is not found after a restart. -/
theorem sameAfterRestart_fails :
    ¬ ∀ (lib : UserLib) (loader : UserLoader), FaithfulTable lib loader →
      ∀ (rows : Table UserRow), UniqueRows rows → ∀ (as : List UserAction) (m : UserManager),
        (machine lib).Runs Machine.unrestricted (withStorageAndSecrets loader rows) as m →
          m.SameAfterRestart loader := by
  intro hall
  obtain ⟨m, hm, hstorage, hfound⟩ : ∃ m,
      (machine plainLib).exec Machine.unrestricted (withStorageAndSecrets plainLoader [])
        [.register "u" 1000 "$argon2id$" "User@example.org" "User" .viewer] = some m ∧
      m.storage = some [User.toRow plainLib ⟨"u", "User@example.org", "User", "$argon2id$",
        .viewer, [], 1000, 0, 0, true, false, none⟩] ∧
      m.emailIndex.lookup (normalizeEmail "User@example.org") = some "u" := by
    refine ⟨_, rfl, rfl, ?_⟩
    decide
  obtain ⟨rows, hrows, hsame⟩ := hall _ _ faithfulTable_plain [] ⟨.nil, .nil⟩ _ m
    (Machine.runs_of_exec hm)
  cases hstorage.symm.trans hrows
  have hlost := (hsame.emails "User@example.org").trans hfound
  exact absurd hlost (by decide)

end XiraNet

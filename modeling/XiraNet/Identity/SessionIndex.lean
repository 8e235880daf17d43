import XiraNet.Identity.SessionMachine

/-!
# The per-user session index

Concurrent `create` calls on one session manager. A token is pushed to the index of its user
before its session exists, and the pruning in another call's index block drops every token
without a session.

* `indexed_of_runs`: if no index block of a user runs while another `create` of the same user is
  between its index block and its insertion, then every live session is listed and no user has
  more of them than allowed.
* `indexed_fails`: two overlapping calls leave a live session outside the index.
-/

namespace XiraNet

namespace SessionProc

/-- The session that a `create` has not listed yet. -/
def unlisted : SessionProc → Option Session
  | .createIndex stored => some stored
  | _ => none

/-- The session that a `create` has listed and not inserted yet. -/
def opening : SessionProc → Option Session
  | .createEvict stored _ => some stored
  | .createPersistEvicted stored _ _ _ => some stored
  | _ => none

/-- The tokens that a `create` still has to evict. -/
def evicting : SessionProc → List String
  | .createEvict _ toEvict => toEvict
  | .createPersistEvicted _ toEvict _ _ => toEvict
  | _ => []

/-- Whether a call is a `create`. -/
def isCreate : SessionProc → Bool
  | .createIndex _ => true
  | .createEvict _ _ => true
  | .createPersistEvicted _ _ _ _ => true
  | .createPersist _ => true
  | _ => false

end SessionProc

namespace SessionState

variable {hashToken : String → String}

/-- What the index promises of at most `maxSessions` sessions a user: when no `create` is under
way, every live session is in the index of its user and no user has more live sessions. -/
def Indexed (s : SessionState) (maxSessions : ℕ) : Prop :=
  (∀ id proc, s.procs.lookup id = some proc → proc.isCreate = false) →
    ∀ userId, (∀ t ∈ s.manager.liveSessions s.now userId, t ∈ s.manager.index userId) ∧
      (s.manager.liveSessions s.now userId).length ≤ maxSessions

/-- The steps of a system in which only `create` is called. -/
def CreatesOnly : SessionAction → Prop
  | .tick _ => True
  | .call _ (.create _ _ _ _ _) => True
  | .call _ _ => False
  | .advance _ => True
  | .visit _ _ => False
  | .restart _ => False

/-- No `create` of the user is between its index block and its insertion. -/
def NoneOpening (s : SessionState) (userId : String) : Prop :=
  ∀ proc ∈ s.procs.values, ∀ opened ∈ proc.opening, opened.userId ≠ userId

/-- The steps that keep the index: no index block runs between the index block and the insertion
of another `create` of the same user. -/
def KeepsIndex (s : SessionState) : SessionAction → Prop
  | .advance id => ∀ proc ∈ s.procs.lookup id, ∀ stored ∈ proc.unlisted,
      s.NoneOpening stored.userId
  | _ => True

/-- A step of a system of `create` calls that keeps the index. -/
def CreatesIndexed (s : SessionState) (a : SessionAction) : Prop := CreatesOnly a ∧ s.KeepsIndex a

instance (a : SessionAction) : Decidable (CreatesOnly a) := by
  unfold CreatesOnly
  split <;> infer_instance

instance (s : SessionState) (a : SessionAction) : Decidable (s.KeepsIndex a) := by
  cases a <;> unfold KeepsIndex <;> try unfold NoneOpening
  all_goals infer_instance

instance (s : SessionState) (a : SessionAction) : Decidable (s.CreatesIndexed a) :=
  inferInstanceAs (Decidable (CreatesOnly a ∧ s.KeepsIndex a))

/-- A token is in the index of a user, or a `create` of the user will evict it. -/
def Covered (s : SessionState) (t userId : String) : Prop :=
  t ∈ s.manager.index userId ∨ ∃ id proc opened, s.procs.lookup id = some proc ∧
    opened ∈ proc.opening ∧ opened.userId = userId ∧ t ∈ proc.evicting

/-- The invariant: whatever is listed before its insertion stays listed, and a live session is
listed or about to be evicted. -/
structure IndexInv (maxSessions : ℕ) (s : SessionState) : Prop where
  size : s.manager.maxSessionsPerUser = maxSessions
  -- Revocations, clean-ups and restarts are not part of these runs.
  creates : ∀ id proc, s.procs.lookup id = some proc → proc.isCreate = true
  bounded : ∀ userId, (s.manager.index userId).length ≤ maxSessions
  -- What an overlapping index block breaks: its pruning drops the token of a pending insertion.
  opening : ∀ id proc opened, s.procs.lookup id = some proc → opened ∈ proc.opening →
    opened.token ∈ s.manager.index opened.userId
  listed : ∀ t session, s.manager.sessions.lookup t = some session →
    session.live s.now = true → s.Covered t session.userId

/-- A block of one call leaves a token covered if the index keeps it and so does the call. -/
theorem Covered.advance {s : SessionState} {id : ℕ} {proc : SessionProc}
    {next : Option SessionProc} {m : SessionManager} {t userId : String}
    (hproc : s.procs.lookup id = some proc)
    (hindex : t ∈ s.manager.index userId → t ∈ m.index userId)
    (hnext : ∀ opened ∈ proc.opening, t ∈ proc.evicting →
      ∃ next' ∈ next, opened ∈ next'.opening ∧ t ∈ next'.evicting)
    (h : s.Covered t userId) :
    ({ s with manager := m, procs := s.procs.put id next } : SessionState).Covered t userId := by
  rcases h with hlisted | ⟨id', proc', opened, hproc', hopened, huser, hevicting⟩
  · exact .inl (hindex hlisted)
  · right
    by_cases hid : id' = id
    · subst hid
      obtain rfl : proc = proc' := Option.some.inj (hproc.symm.trans hproc')
      obtain ⟨next', hmem, hopened', hevicting'⟩ := hnext opened hopened hevicting
      refine ⟨id', next', opened, ?_, hopened', huser, hevicting'⟩
      rw [DashMap.lookup_put, if_pos rfl]
      exact hmem
    · refine ⟨id', proc', opened, ?_, hopened, huser, hevicting⟩
      rw [DashMap.lookup_put, if_neg hid]
      exact hproc'

/-- The index block of a `create` keeps the invariant when none of the same user is opening. -/
theorem indexInv_createIndex {n : ℕ} (hn : 0 < n) {s : SessionState} (hs : s.IndexInv n) {id : ℕ}
    {stored : Session} (hproc : s.procs.lookup id = some (.createIndex stored))
    (hnone : s.NoneOpening stored.userId) :
    IndexInv n { s with
      manager := (s.manager.indexNew s.now stored.userId stored.token).2
      procs := s.procs.put id (some (.createEvict stored
        (s.manager.indexNew s.now stored.userId stored.token).1)) } where
  size := hs.size
  creates := by
    intro id' proc' hproc'
    rw [DashMap.lookup_put] at hproc'
    split at hproc'
    next =>
      cases hproc'
      rfl
    next => exact hs.creates id' proc' hproc'
  bounded := by
    intro userId
    by_cases huser : userId = stored.userId
    · subst huser
      rw [← hs.size]
      exact s.manager.length_index_indexNew _ _ _
    · rw [s.manager.index_indexNew_of_ne huser]
      exact hs.bounded userId
  opening := by
    intro id' proc' opened hproc' hopened
    rw [DashMap.lookup_put] at hproc'
    split at hproc'
    next =>
      cases hproc'
      cases hopened
      exact s.manager.mem_index_indexNew (hs.size ▸ hn) _ _ _
    next =>
      -- The pruning of this block cannot hit another pending token of the user.
      have huser : opened.userId ≠ stored.userId :=
        hnone proc' ((DashMap.mem_values_iff _ _).mpr ⟨id', hproc'⟩) opened hopened
      rw [s.manager.index_indexNew_of_ne huser]
      exact hs.opening id' proc' opened hproc' hopened
  listed := by
    intro t session hsession hlive
    rw [SessionManager.sessions_indexNew] at hsession
    have hcovered := hs.listed t session hsession hlive
    by_cases huser : session.userId = stored.userId
    · rcases hcovered with hlisted | hevicted
      · have hisLive : s.manager.isLive s.now t = true := by
          simpa [SessionManager.isLive, hsession] using hlive
        rw [huser] at hlisted ⊢
        -- A live token survives the pruning; if it is selected, this call evicts it.
        rcases SessionManager.mem_indexNew_of_isLive hlisted hisLive stored.token with h | h
        · right
          refine ⟨id, .createEvict stored _, stored, ?_, rfl, rfl, h⟩
          rw [DashMap.lookup_put, if_pos rfl]
        · exact .inl h
      -- No other call of the user is in its window, so none of them is about to evict.
      · obtain ⟨id', proc', opened, hproc', hopened, huser', _⟩ := hevicted
        exact absurd (huser'.trans huser)
          (hnone proc' ((DashMap.mem_values_iff _ _).mpr ⟨id', hproc'⟩) opened hopened)
    · refine hcovered.advance hproc (fun hlisted => ?_) (by simp [SessionProc.opening])
      rw [s.manager.index_indexNew_of_ne huser]
      exact hlisted

/-- A block that leaves the indexes alone keeps the invariant, if every session that is live
afterwards was covered before or is the one the call had listed. -/
theorem indexInv_of_index_eq {n : ℕ} {s : SessionState} (hs : s.IndexInv n) {id : ℕ}
    {proc : SessionProc} {next : Option SessionProc} {m : SessionManager}
    (hproc : s.procs.lookup id = some proc)
    (hsize : m.maxSessionsPerUser = s.manager.maxSessionsPerUser)
    (hindex : ∀ userId, m.index userId = s.manager.index userId)
    (hcreate : ∀ next' ∈ next, next'.isCreate = true)
    (hopening : ∀ next' ∈ next, ∀ opened ∈ next'.opening, opened ∈ proc.opening)
    (hlisted : ∀ t session, m.sessions.lookup t = some session → session.live s.now = true →
      (s.manager.sessions.lookup t = some session ∧ ∀ opened ∈ proc.opening, t ∈ proc.evicting →
          ∃ next' ∈ next, opened ∈ next'.opening ∧ t ∈ next'.evicting) ∨
        (session ∈ proc.opening ∧ t = session.token)) :
    IndexInv n { s with manager := m, procs := s.procs.put id next } where
  size := hsize.trans hs.size
  creates := by
    intro id' proc' hproc'
    rw [DashMap.lookup_put] at hproc'
    split at hproc'
    next => exact hcreate proc' hproc'
    next => exact hs.creates id' proc' hproc'
  bounded := by
    intro userId
    rw [hindex]
    exact hs.bounded userId
  opening := by
    intro id' proc' opened hproc' hopened
    rw [hindex]
    rw [DashMap.lookup_put] at hproc'
    split at hproc'
    next => exact hs.opening id proc opened hproc (hopening proc' hproc' opened hopened)
    next => exact hs.opening id' proc' opened hproc' hopened
  listed := by
    intro t session hsession hlive
    rcases hlisted t session hsession hlive with ⟨hold, hkept⟩ | ⟨hopened, rfl⟩
    · refine (hs.listed t session hold hlive).advance hproc (fun hmem => ?_) hkept
      rw [hindex]
      exact hmem
    · left
      rw [hindex]
      exact hs.opening id proc session hproc hopened

/-- One eviction keeps the invariant, whichever block the `create` goes on with. -/
theorem indexInv_evict {n : ℕ} {s : SessionState} (hs : s.IndexInv n) {id : ℕ}
    {stored : Session} {old : String} {toEvict : List String} {next : SessionProc}
    (hproc : s.procs.lookup id = some (.createEvict stored (old :: toEvict)))
    (hcreate : next.isCreate = true) (hopening : next.opening = some stored)
    (hevicting : next.evicting = toEvict) :
    IndexInv n { s with
      manager := (s.manager.deactivate old).2
      procs := s.procs.put id (some next) } := by
  refine indexInv_of_index_eq hs hproc rfl (fun _ => rfl) ?_ ?_
    fun t session hsession hlive => .inl ?_
  · rintro _ ⟨⟩
    exact hcreate
  · rintro _ ⟨⟩ opened hopened
    rw [hopening] at hopened
    exact hopened
  · rw [SessionManager.lookup_deactivate] at hsession
    split at hsession
    -- The evicted session is not live any more, so it need not be covered.
    next =>
      obtain ⟨old', _, rfl⟩ := Option.map_eq_some_iff.mp hsession
      simp at hlive
    -- Every other token is as covered as before: this call still lists and evicts it.
    next hne =>
      refine ⟨hsession, fun opened hopened hmem => ⟨next, rfl, ?_, ?_⟩⟩
      · rw [hopening]
        exact hopened
      · rw [hevicting]
        exact (List.mem_cons.mp hmem).resolve_left hne

/-- Every block of a `create` keeps the invariant under the condition. -/
theorem indexInv_advance {n : ℕ} (hn : 0 < n) {s : SessionState} (hs : s.IndexInv n) {id : ℕ}
    {proc : SessionProc} (hproc : s.procs.lookup id = some proc)
    (hok : ∀ stored ∈ proc.unlisted, s.NoneOpening stored.userId) :
    IndexInv n { s with
      manager := (proc.advance s.manager s.now).1
      procs := s.procs.put id (proc.advance s.manager s.now).2 } := by
  have hcreate := hs.creates id proc hproc
  cases proc with
  | createIndex stored => exact indexInv_createIndex hn hs hproc (hok stored rfl)
  | createEvict stored toEvict =>
      cases toEvict with
      | nil =>
          -- The insertion: the session is listed since the index block.
          refine indexInv_of_index_eq hs hproc rfl (fun _ => rfl) ?_ ?_
            fun t session hsession hlive => ?_
          · rintro _ ⟨⟩
            rfl
          · rintro _ ⟨⟩ opened ⟨⟩
          · simp only [SessionProc.advance, SessionManager.lookup_insertSession] at hsession
            split at hsession
            next heq =>
              cases hsession
              exact .inr ⟨rfl, heq⟩
            next => exact .inl ⟨hsession, by simp [SessionProc.evicting]⟩
      | cons old toEvict =>
          simp only [SessionProc.advance]
          split
          next session m hdeactivate =>
            obtain rfl : (s.manager.deactivate old).2 = m := congrArg Prod.snd hdeactivate
            exact indexInv_evict hs hproc rfl rfl rfl
          next m hdeactivate =>
            obtain rfl : (s.manager.deactivate old).2 = m := congrArg Prod.snd hdeactivate
            exact indexInv_evict hs hproc rfl rfl rfl
  | createPersistEvicted stored toEvict old snap =>
      refine indexInv_of_index_eq hs hproc rfl (fun _ => rfl) ?_ ?_
        fun t session hsession _ => .inl ⟨hsession, fun opened hopened hevicting => ?_⟩
      · rintro _ ⟨⟩
        rfl
      · rintro _ ⟨⟩ opened hopened
        exact hopened
      · exact ⟨_, rfl, hopened, hevicting⟩
  | createPersist stored =>
      refine indexInv_of_index_eq hs hproc rfl (fun _ => rfl) ?_ ?_
        fun t session hsession _ => .inl ⟨hsession, by simp [SessionProc.opening]⟩
      · rintro _ ⟨⟩
      · rintro _ ⟨⟩
  | _ => simp [SessionProc.isCreate] at hcreate

/-- Every step of a system of `create` calls keeps the invariant under the condition. -/
theorem indexInv_step {n : ℕ} (hn : 0 < n) (s : SessionState) (a : SessionAction)
    (s' : SessionState) (hs : s.IndexInv n) (hok : s.CreatesIndexed a)
    (h : s.step hashToken a = some s') : s'.IndexInv n := by
  obtain ⟨honly, hkeeps⟩ := hok
  cases a with
  | tick now =>
      simp only [step] at h
      split at h
      next hle =>
        cases h
        exact { hs with
          listed := fun t session hsession hlive =>
            hs.listed t session hsession (Session.live_of_le hle hlive) }
      next => cases h
  | call id call =>
      obtain ⟨hfree, -, rfl⟩ := step_call h
      cases call with
      | create userId token ip userAgent ttlSecs =>
          refine { hs with creates := ?_, opening := ?_, listed := ?_ }
          · intro id' proc' hproc'
            rcases DashMap.lookup_insert_cases hproc' with ⟨-, rfl⟩ | ⟨-, hold⟩
            · rfl
            · exact hs.creates id' proc' hold
          · intro id' proc' opened hproc' hopened
            rcases DashMap.lookup_insert_cases hproc' with ⟨-, rfl⟩ | ⟨-, hold⟩
            · cases hopened
            · exact hs.opening id' proc' opened hold hopened
          · intro t session hsession hlive
            refine (hs.listed t session hsession hlive).imp (fun hmem => hmem) ?_
            rintro ⟨id', proc', opened, hproc', hrest⟩
            refine ⟨id', proc', opened, ?_, hrest⟩
            rw [DashMap.lookup_insert, if_neg]
            · exact hproc'
            · rintro rfl
              rw [hfree] at hproc'
              cases hproc'
      | _ => exact False.elim honly
  | advance id =>
      obtain ⟨proc, hproc, rfl⟩ := step_advance h
      exact indexInv_advance hn hs hproc (hkeeps proc hproc)
  | visit id hashed => exact False.elim honly
  | restart maxSessions => exact False.elim honly

/-- With no `create` under way, what is covered is listed. -/
theorem IndexInv.indexed {n : ℕ} {s : SessionState} (hs : s.IndexInv n) : s.Indexed n := by
  intro hquiet userId
  have hlisted : ∀ t ∈ s.manager.liveSessions s.now userId, t ∈ s.manager.index userId := by
    intro t ht
    obtain ⟨session, hsession, rfl, hlive⟩ := SessionManager.mem_liveSessions.mp ht
    rcases hs.listed t session hsession hlive with hmem | ⟨id, proc, _, hproc, _⟩
    · exact hmem
    · have := hs.creates id proc hproc
      rw [hquiet id proc hproc] at this
      cases this
  refine ⟨hlisted, ?_⟩
  -- Live sessions are pairwise different, so they are no more than the entries of the index.
  calc (s.manager.liveSessions s.now userId).length
      ≤ (s.manager.index userId).length :=
        (List.subperm_of_subset (s.manager.nodup_liveSessions _ _) hlisted).length_le
    _ ≤ n := hs.bounded userId

/-- No session exists at the start. -/
theorem indexInv_initial (maxSessions now : ℕ) :
    IndexInv (max maxSessions 1) (initial (.new maxSessions) now []) where
  size := rfl
  creates := by simp [initial]
  bounded := by simp [initial, SessionManager.new, SessionManager.index]
  opening := by simp [initial]
  listed := by simp [initial, SessionManager.new]

/-- In every run of `create` calls in which no index block of a user runs while another `create`
of the same user is between its index block and its insertion, whenever no `create` is under
way every live session is listed in the index of its user and no user has more than
`max_sessions_per_user` of them. -/
theorem indexed_of_runs (hashToken : String → String) (maxSessions now : ℕ)
    (as : List SessionAction) (s : SessionState)
    (hrun : (machine hashToken).Runs CreatesIndexed (initial (.new maxSessions) now []) as s) :
    s.Indexed (max maxSessions 1) :=
  (hrun.invariant (indexInv_step (by omega)) (indexInv_initial maxSessions now)).indexed

/-- Two sessions of one user with room for one: the second `create` starts while the first is
under way, but waits for its insertion. -/
def orderlyRun : List SessionAction :=
  [.call 0 (.create "u" "a" "" "" 60), .call 1 (.create "u" "b" "" "" 60),
    .advance 0, .advance 0, .advance 1, .advance 1, .advance 0, .tick 30, .advance 1, .advance 1,
    .advance 1]

/-- The index after a run of two overlapping `create` calls. -/
theorem indexed_orderlyRun :
    ∃ s, (machine id).Runs CreatesIndexed (initial (.new 1) 0 []) orderlyRun s ∧
      s.Indexed (max 1 1) := by
  obtain ⟨s, hs⟩ : ∃ s, (machine id).exec CreatesIndexed (initial (.new 1) 0 []) orderlyRun =
      some s := Option.isSome_iff_exists.mp (by decide)
  have hrun := Machine.runs_of_exec hs
  exact ⟨s, hrun, indexed_of_runs id 1 0 orderlyRun s hrun⟩

/-- Two `create` calls of one user: the second one's index block runs before the first one's
insertion. -/
def overlappingRun : List SessionAction :=
  [.call 0 (.create "u" "a" "" "" 60), .call 1 (.create "u" "b" "" "" 60),
    .advance 0, .advance 1, .advance 0, .advance 0, .advance 1, .advance 1]

/-- Without the condition the index fails: both calls have returned, both sessions are live, and
only one of them is listed. -/
theorem indexed_fails :
    ¬ ∀ (hashToken : String → String) (maxSessions now : ℕ) (as : List SessionAction)
      (s : SessionState), (machine hashToken).Runs (fun _ a => CreatesOnly a)
        (initial (.new maxSessions) now []) as s → s.Indexed (max maxSessions 1) := by
  intro hall
  have hend : ∃ s, (machine id).exec (fun _ a => CreatesOnly a) (initial (.new 1) 0 [])
      overlappingRun = some s ∧ s.procs.values = [] ∧
        "a" ∈ s.manager.liveSessions s.now "u" ∧ "a" ∉ s.manager.index "u" := by
    refine ⟨_, rfl, ?_, ?_, ?_⟩ <;> decide
  -- The claim at the state after the run says that the session is listed.
  obtain ⟨s, hs, hquiet, hlive, hunlisted⟩ := hend
  refine hunlisted ((hall id 1 0 overlappingRun s (Machine.runs_of_exec hs) ?_ "u").1 "a" hlive)
  intro id proc hproc
  have hmem : proc ∈ s.procs.values := (DashMap.mem_values_iff _ _).mpr ⟨id, hproc⟩
  rw [hquiet] at hmem
  cases hmem

end SessionState

end XiraNet

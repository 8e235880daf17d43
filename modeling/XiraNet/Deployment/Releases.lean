import XiraNet.Base
import XiraNet.Lib.DashMap
import XiraNet.Lib.Runs

/-!
# Releases

`deployment/releases.rs`: a release has a colour that `switch` flips, and `check_rollback` flips
once more for good. Each call holds the lock of its release, so each is one step. Error rates are
of type `f64` and only compared, so they are of any type with a comparison.

* `ReleaseRuns.restores_iff`: in which runs a rollback restores what was active before.
* `ReleaseRuns.restores_fails`: a release that was never switched is switched by its rollback.
-/

namespace XiraNet

/-- `ReleaseStrategy`. -/
inductive ReleaseStrategy
  | blueGreen
  | canary (percentage : ℕ)
  deriving DecidableEq, Repr

/-- `ReleaseStatus`. -/
inductive ReleaseStatus
  | active
  | rolledBack
  | completed
  deriving DecidableEq, Repr

/-- `Release`. -/
structure Release (F : Type) where
  id : String
  service : String
  strategy : ReleaseStrategy
  status : ReleaseStatus
  blueUpstream : String
  greenUpstream : String
  activeColor : String
  errorThreshold : F
  createdAt : ℕ
  switchedAt : Option ℕ
  rollbackCount : ℕ

/-- `flip_color`. -/
def flipColor (c : String) : String := if c = "blue" then "green" else "blue"

namespace Release

variable {F : Type}

/-- The upstream of the active colour. -/
def activeUpstream (rel : Release F) : String :=
  if rel.activeColor = "blue" then rel.blueUpstream else rel.greenUpstream

/-- What `switch` does to an active release. -/
def switch (rel : Release F) (now : ℕ) : Release F :=
  { rel with activeColor := flipColor rel.activeColor, switchedAt := some now }

/-- What `check_rollback` does to a release that it rolls back. -/
def rollBack (rel : Release F) (now : ℕ) : Release F :=
  { rel with
    activeColor := flipColor rel.activeColor
    rollbackCount := saturatingAddU64 rel.rollbackCount 1
    status := .rolledBack
    switchedAt := some now }

/-- The upstream that is not active. -/
def otherUpstream (rel : Release F) : String :=
  if rel.activeColor = "blue" then rel.greenUpstream else rel.blueUpstream

/-- After a switch, the upstreams have changed places. -/
theorem upstreams_switch (rel : Release F) (now : ℕ) :
    (rel.switch now).activeUpstream = rel.otherUpstream ∧
      (rel.switch now).otherUpstream = rel.activeUpstream := by
  unfold activeUpstream otherUpstream switch flipColor
  by_cases hblue : rel.activeColor = "blue"
  · simp [hblue]
  · simp [hblue]

/-- A rollback activates the other upstream. -/
theorem activeUpstream_rollBack (rel : Release F) (now : ℕ) :
    (rel.rollBack now).activeUpstream = rel.otherUpstream :=
  (rel.upstreams_switch now).1

/-- The upstreams differ as soon as those of the two colours do. -/
theorem otherUpstream_ne_iff (rel : Release F) :
    rel.otherUpstream ≠ rel.activeUpstream ↔ rel.blueUpstream ≠ rel.greenUpstream := by
  unfold activeUpstream otherUpstream
  split
  next => exact ne_comm
  next => exact Iff.rfl

end Release

/-- The releases of a `ReleaseManager`. -/
abbrev ReleaseManager (F : Type) := DashMap String (Release F)

namespace ReleaseManager

variable {F : Type} (m : ReleaseManager F)

/-- `create`, with the id and the time it draws. -/
def create (id : String) (now : ℕ) (service blue green : String) (strategy : ReleaseStrategy)
    (errorThreshold : F) : ReleaseManager F :=
  m.insert id
    { id := id
      service := service
      strategy := strategy
      status := .active
      blueUpstream := blue
      greenUpstream := green
      activeColor := "blue"
      errorThreshold := errorThreshold
      createdAt := now
      switchedAt := none
      rollbackCount := 0 }

/-- `switch`. -/
def switch (now : ℕ) (releaseId : String) : Option String × ReleaseManager F :=
  match m.lookup releaseId with
  | some rel =>
      if rel.status ≠ .active then (none, m)
      else (some (rel.switch now).activeColor, m.insert releaseId (rel.switch now))
  | none => (none, m)

/-- `active_upstream`. -/
def activeUpstream (releaseId : String) : Option String :=
  (m.lookup releaseId).map Release.activeUpstream

/-- `check_rollback`. -/
def checkRollback [LE F] [DecidableLE F] (now : ℕ) (releaseId : String) (currentErrorRate : F) :
    Bool × ReleaseManager F :=
  match m.lookup releaseId with
  | none => (false, m)
  | some rel =>
      if rel.status ≠ .active then (false, m)
      else if currentErrorRate ≤ rel.errorThreshold then (false, m)
      else (true, m.insert releaseId (rel.rollBack now))

variable {m}

/-- A switch is refused, or it changes an active release. -/
theorem switch_cases (now : ℕ) (releaseId : String) :
    m.switch now releaseId = (none, m) ∨
      ∃ rel, m.lookup releaseId = some rel ∧ rel.status = .active ∧
        m.switch now releaseId =
          (some (rel.switch now).activeColor, m.insert releaseId (rel.switch now)) := by
  unfold switch
  cases hrel : m.lookup releaseId with
  | none => exact .inl rfl
  | some rel =>
      by_cases hactive : rel.status = .active
      · exact .inr ⟨rel, rfl, hactive, if_neg (not_not.mpr hactive)⟩
      · exact .inl (if_pos hactive)

/-- A check does nothing, or it rolls an active release back whose error rate is too high. -/
theorem checkRollback_cases [LE F] [DecidableLE F] (now : ℕ) (releaseId : String)
    (currentErrorRate : F) :
    m.checkRollback now releaseId currentErrorRate = (false, m) ∧
        (∀ rel, m.lookup releaseId = some rel → rel.status = .active →
          currentErrorRate ≤ rel.errorThreshold) ∨
      ∃ rel, m.lookup releaseId = some rel ∧ rel.status = .active ∧
        ¬currentErrorRate ≤ rel.errorThreshold ∧
          m.checkRollback now releaseId currentErrorRate =
            (true, m.insert releaseId (rel.rollBack now)) := by
  unfold checkRollback
  cases hrel : m.lookup releaseId with
  | none => exact .inl ⟨rfl, nofun⟩
  | some rel =>
      by_cases hactive : rel.status = .active
      · by_cases hrate : currentErrorRate ≤ rel.errorThreshold
        · refine .inl ⟨?_, ?_⟩
          · dsimp only
            rw [if_neg (not_not.mpr hactive), if_pos hrate]
          · rintro _ ⟨⟩ -
            exact hrate
        · refine .inr ⟨rel, rfl, hactive, hrate, ?_⟩
          dsimp only
          rw [if_neg (not_not.mpr hactive), if_neg hrate]
      · refine .inl ⟨if_pos hactive, ?_⟩
        rintro _ ⟨⟩ hactive'
        exact absurd hactive' hactive

/-- What is active after a change of one release. -/
theorem activeUpstream_insert (releaseId releaseId' : String) (rel : Release F) :
    activeUpstream (AList.insert releaseId rel m) releaseId' =
      if releaseId' = releaseId then some rel.activeUpstream else m.activeUpstream releaseId' := by
  unfold activeUpstream
  rw [DashMap.lookup_insert]
  split <;> rfl

end ReleaseManager

/-- The releases with what has happened to them. -/
structure ReleaseRuns (F : Type) where
  manager : ReleaseManager F
  /-- What was active right before the last successful switch. -/
  previous : DashMap String String
  /-- The releases for which `check_rollback` has returned true, with what it was to restore: what
  was active before the last switch, or what is active if there was none. -/
  rollbacks : List (String × String)

/-- The calls that change a release. -/
inductive ReleaseAction (F : Type)
  | create (id : String) (now : ℕ) (service blue green : String) (strategy : ReleaseStrategy)
      (errorThreshold : F)
  | switch (now : ℕ) (releaseId : String)
  | checkRollback (now : ℕ) (releaseId : String) (currentErrorRate : F)

namespace ReleaseRuns

variable {F : Type}

/-- No releases. -/
def initial : ReleaseRuns F := ⟨∅, ∅, []⟩

/-- One call. -/
def step [LE F] [DecidableLE F] (s : ReleaseRuns F) : ReleaseAction F → Option (ReleaseRuns F)
  | .create id now service blue green strategy errorThreshold =>
      -- The id is a new UUID.
      if (s.manager.lookup id).isSome then none
      else some { s with
        manager := s.manager.create id now service blue green strategy errorThreshold }
  | .switch now releaseId =>
      let (color, manager) := s.manager.switch now releaseId
      some { s with
        manager
        previous :=
          if color.isSome then s.previous.put releaseId (s.manager.activeUpstream releaseId)
          else s.previous }
  | .checkRollback now releaseId currentErrorRate =>
      let (rolledBack, manager) := s.manager.checkRollback now releaseId currentErrorRate
      let restored := (s.previous.lookup releaseId).or (s.manager.activeUpstream releaseId)
      some { s with
        manager
        rollbacks :=
          if rolledBack then restored.toList.map (releaseId, ·) ++ s.rollbacks else s.rollbacks }

/-- Calls in any order. -/
def machine [LE F] [DecidableLE F] : Machine (ReleaseRuns F) (ReleaseAction F) := ⟨step⟩

/-- What was to be restored has been active since, and no release was rolled back twice. -/
structure Restores (s : ReleaseRuns F) : Prop where
  active : ∀ r ∈ s.rollbacks, s.manager.activeUpstream r.1 = some r.2
  once : (s.rollbacks.map Prod.fst).Nodup

/-- No release is rolled back that was never switched, unless both its upstreams are the same. -/
def RollsBackSwitched [LE F] (s : ReleaseRuns F) : ReleaseAction F → Prop
  | .checkRollback _ releaseId currentErrorRate =>
      ∀ rel ∈ s.manager.lookup releaseId, rel.status = .active →
        ¬currentErrorRate ≤ rel.errorThreshold →
          rel.switchedAt ≠ none ∨ rel.blueUpstream = rel.greenUpstream
  | _ => True

instance [LE F] [DecidableLE F] (s : ReleaseRuns F) (a : ReleaseAction F) :
    Decidable (s.RollsBackSwitched a) := by
  cases a <;> unfold RollsBackSwitched <;> infer_instance

/-- A rollback is for good, and an active release knows what was active before. -/
structure Inv (s : ReleaseRuns F) : Prop extends s.Restores where
  rolledBack : ∀ r ∈ s.rollbacks, ∀ rel ∈ s.manager.lookup r.1, rel.status ≠ .active
  previous : ∀ id rel, s.manager.lookup id = some rel → rel.status = .active →
    s.previous.lookup id = rel.switchedAt.map fun _ => rel.otherUpstream
  unknown : ∀ id, s.manager.lookup id = none → s.previous.lookup id = none

variable {s t : ReleaseRuns F} {a : ReleaseAction F}

/-- There are no releases at the start. -/
theorem inv_initial : Inv (initial : ReleaseRuns F) where
  active _ h := nomatch h
  once := List.nodup_nil
  rolledBack _ h := nomatch h
  previous _ _ h := nomatch h
  unknown _ _ := rfl

/-- A release that was rolled back is another one than one that is new or active. -/
theorem Inv.ne_of_rollback (hs : s.Inv) {r : String × String} (hr : r ∈ s.rollbacks) {id : String}
    (hid : ∀ rel ∈ s.manager.lookup id, rel.status = .active) : r.1 ≠ id := by
  rintro rfl
  have hactive := hs.active r hr
  obtain ⟨rel, hrel, -⟩ := Option.map_eq_some_iff.mp hactive
  exact hs.rolledBack r hr rel hrel (hid rel hrel)

/-- A release that is found is the one. -/
theorem active_of_lookup {id : String} {rel : Release F} (hrel : s.manager.lookup id = some rel)
    (hactive : rel.status = .active) : ∀ rel ∈ s.manager.lookup id, rel.status = .active := by
  intro rel' hrel'
  cases hrel.symm.trans hrel'
  exact hactive

/-- What a rollback of an active release is to restore. -/
theorem Inv.restored_iff (hs : s.Inv) {id : String} {rel : Release F}
    (hrel : s.manager.lookup id = some rel) (hactive : rel.status = .active) :
    (s.previous.lookup id).or (s.manager.activeUpstream id) = some rel.otherUpstream ↔
      rel.switchedAt ≠ none ∨ rel.blueUpstream = rel.greenUpstream := by
  rw [hs.previous id rel hrel hactive, ReleaseManager.activeUpstream, hrel]
  cases rel.switchedAt with
  | some now => simp
  | none =>
      rw [ne_self_iff_false, false_or, ← not_iff_not, ← ne_eq _ rel.greenUpstream,
        ← rel.otherUpstream_ne_iff]
      simp [eq_comm]

/-- A new or active release may be replaced as long as what was active before is kept. -/
theorem Inv.insert (hs : s.Inv) {id : String} {rel : Release F}
    {previous : DashMap String String} (hid : ∀ rel ∈ s.manager.lookup id, rel.status = .active)
    (hrel : rel.status = .active →
      previous.lookup id = rel.switchedAt.map fun _ => rel.otherUpstream)
    (hprevious : ∀ id', id' ≠ id → previous.lookup id' = s.previous.lookup id') :
    Inv { s with manager := s.manager.insert id rel, previous } := by
  -- The releases that were rolled back are left as they are.
  have hothers : ∀ r ∈ s.rollbacks, (s.manager.insert id rel).lookup r.1 = s.manager.lookup r.1 :=
    fun r hr => AList.lookup_insert_ne (hs.ne_of_rollback hr hid)
  refine { active := fun r hr => ?_, once := hs.once, rolledBack := fun r hr => ?_,
           previous := fun id' rel' hrel' hactive => ?_, unknown := fun id' hnone => ?_ }
  · rw [ReleaseManager.activeUpstream, hothers r hr]
    exact hs.active r hr
  · rw [hothers r hr]
    exact hs.rolledBack r hr
  · rcases DashMap.lookup_insert_cases hrel' with ⟨rfl, rfl⟩ | ⟨hne, hold⟩
    · exact hrel hactive
    · rw [hprevious id' hne]
      exact hs.previous id' rel' hold hactive
  · rw [DashMap.lookup_insert] at hnone
    split at hnone
    next => cases hnone
    next hne =>
      rw [hprevious id' hne]
      exact hs.unknown id' hnone

variable [LE F] [DecidableLE F]

/-- What a rollback changes. -/
theorem step_checkRollback {now : ℕ} {releaseId : String} {currentErrorRate : F}
    {rel : Release F} {upstream : String}
    (hrolled : s.manager.checkRollback now releaseId currentErrorRate =
      (true, s.manager.insert releaseId (rel.rollBack now)))
    (hrestored : (s.previous.lookup releaseId).or (s.manager.activeUpstream releaseId) =
      some upstream) :
    s.step (.checkRollback now releaseId currentErrorRate) =
      some { s with
        manager := s.manager.insert releaseId (rel.rollBack now)
        rollbacks := (releaseId, upstream) :: s.rollbacks } := by
  rw [step, hrolled, hrestored]
  rfl

/-- Every call that rolls back no release but one that was switched keeps the invariant. -/
theorem inv_step (hs : s.Inv) (hok : s.RollsBackSwitched a) (h : s.step a = some t) : t.Inv := by
  cases a with
  | create id now service blue green strategy errorThreshold =>
      obtain ⟨hnew, h⟩ := Option.ite_none_left_eq_some.mp h
      cases h
      have hnone : s.manager.lookup id = none := Option.not_isSome_iff_eq_none.mp hnew
      refine hs.insert (fun rel hrel => ?_) (fun _ => hs.unknown id hnone) fun _ _ => rfl
      rw [hnone] at hrel
      cases hrel
  | switch now releaseId =>
      rcases s.manager.switch_cases now releaseId with heq | ⟨rel, hrel, hactive, heq⟩
      · rw [step, heq] at h
        cases h
        exact hs
      · rw [step, heq] at h
        cases h
        refine hs.insert (active_of_lookup hrel hactive) (fun _ => ?_) fun id' hne => ?_
        · -- What was active is the upstream of the other colour now.
          rw [Option.isSome_some, if_pos rfl, DashMap.lookup_put, if_pos rfl,
            ReleaseManager.activeUpstream, hrel]
          exact congrArg some (rel.upstreams_switch now).2.symm
        · rw [Option.isSome_some, if_pos rfl, DashMap.lookup_put, if_neg hne]
  | checkRollback now releaseId currentErrorRate =>
      rcases s.manager.checkRollback_cases now releaseId currentErrorRate with
        ⟨heq, -⟩ | ⟨rel, hrel, hactive, hrate, heq⟩
      · rw [step, heq] at h
        cases h
        exact hs
      · have hrestored := (hs.restored_iff hrel hactive).mpr (hok rel hrel hactive hrate)
        rw [step_checkRollback heq hrestored] at h
        cases h
        have hinsert : Inv { s with manager := s.manager.insert releaseId (rel.rollBack now) } :=
          hs.insert (active_of_lookup hrel hactive) nofun fun _ _ => rfl
        refine { hinsert with active := fun r hr => ?_, once := ?_, rolledBack := fun r hr => ?_ }
        · rcases List.mem_cons.mp hr with rfl | hr
          · rw [ReleaseManager.activeUpstream_insert, if_pos rfl, rel.activeUpstream_rollBack]
          · exact hinsert.active r hr
        · -- A release that was rolled back before is not active.
          refine List.nodup_cons.mpr ⟨fun hmem => ?_, hs.once⟩
          obtain ⟨r, hr, hid⟩ := List.mem_map.mp hmem
          exact hs.ne_of_rollback hr (active_of_lookup hrel hactive) hid
        · rcases List.mem_cons.mp hr with rfl | hr
          · rw [AList.lookup_insert]
            rintro _ ⟨⟩
            exact nofun
          · exact hinsert.rolledBack r hr

/-- A rollback of a release that was never switched activates what has not been active. -/
theorem not_restores_step (hs : s.Inv) (hbad : ¬s.RollsBackSwitched a) (h : s.step a = some t) :
    ¬t.Restores := by
  cases a with
  | create => exact absurd trivial hbad
  | switch => exact absurd trivial hbad
  | checkRollback now releaseId currentErrorRate =>
      rcases s.manager.checkRollback_cases now releaseId currentErrorRate with
        ⟨-, hlow⟩ | ⟨rel, hrel, hactive, hrate, heq⟩
      · exact absurd (fun rel hrel hactive hrate => absurd (hlow rel hrel hactive) hrate) hbad
      · have hnever : ¬(rel.switchedAt ≠ none ∨ rel.blueUpstream = rel.greenUpstream) := by
          intro hswitched
          refine hbad fun rel' hrel' _ _ => ?_
          cases hrel.symm.trans hrel'
          exact hswitched
        obtain ⟨upstream, hupstream⟩ : ∃ upstream,
            (s.previous.lookup releaseId).or (s.manager.activeUpstream releaseId) =
              some upstream := by
          rw [ReleaseManager.activeUpstream, hrel]
          cases s.previous.lookup releaseId <;> exact ⟨_, rfl⟩
        rw [step_checkRollback heq hupstream] at h
        cases h
        intro hrestores
        have hactive' := hrestores.active (releaseId, upstream) List.mem_cons_self
        rw [ReleaseManager.activeUpstream_insert, if_pos rfl,
          rel.activeUpstream_rollBack] at hactive'
        have hother : rel.otherUpstream = upstream := Option.some.inj hactive'
        rw [← hother] at hupstream
        exact hnever ((hs.restored_iff hrel hactive).mp hupstream)

/-- In every run, a rollback restores what was active before the last switch exactly if no release
is rolled back that was never switched, or both its upstreams are the same. -/
theorem restores_iff {as : List (ReleaseAction F)}
    (hrun : machine.Runs Machine.unrestricted (initial : ReleaseRuns F) as s) :
    machine.Throughout Restores (initial : ReleaseRuns F) as ↔
      machine.Runs RollsBackSwitched initial as s :=
  hrun.throughout_iff (fun _ hs => hs.toRestores) (fun _ _ _ hs hok h => inv_step hs hok h)
    (fun _ _ _ hs hbad h => not_restores_step hs hbad h) inv_initial

/-- A release is switched and then rolled back. -/
def switchedRelease : List (ReleaseAction ℕ) :=
  [.create "r1" 100 "api" "http://blue.test/" "http://green.test/" .blueGreen 5, .switch 110 "r1",
    .checkRollback 120 "r1" 3, .checkRollback 130 "r1" 8, .checkRollback 140 "r1" 9,
    .switch 150 "r1"]

/-- A switched release is rolled back to what was active before. -/
theorem restores_switched : machine.Throughout Restores initial switchedRelease := by
  have hruns : machine.Runs RollsBackSwitched initial switchedRelease _ := Machine.runs_of_exec rfl
  exact (restores_iff (hruns.mono fun _ _ _ => trivial)).mpr hruns

/-- A release that was never switched leaves the upstream that it has. -/
theorem restores_fails :
    ¬∀ (F : Type) [LE F] [DecidableLE F] (as : List (ReleaseAction F)) (s : ReleaseRuns F),
      machine.Runs Machine.unrestricted initial as s → s.Restores := by
  intro hall
  have hrun : machine.Runs Machine.unrestricted (initial : ReleaseRuns ℕ)
      [.create "r1" 100 "api" "http://blue.test/" "http://green.test/" .blueGreen 5,
        .checkRollback 120 "r1" 8] _ := Machine.runs_of_exec rfl
  exact absurd ((hall ℕ _ _ hrun).active _ List.mem_cons_self) (by decide)

end ReleaseRuns

end XiraNet

import XiraNet.Lib.KeyedList
import XiraNet.Lib.Runs
import XiraNet.Observability.Incidents

/-!
# The record of an incident

The list of incidents of `observability/incidents.rs` in every run of its operations, with the time
at which each incident has last become resolved.

* `IncidentRuns.recorded_iff`: in which runs status, time and timeline of every incident agree.
* `IncidentRuns.recorded_fails`: an incident that is opened again keeps the time of its resolution.
-/

namespace XiraNet

/-- The incidents, with what has happened to them. -/
structure IncidentRuns where
  incidents : IncidentManager
  /-- When an incident has last become resolved. -/
  resolutions : String → Option ℕ

/-- The operations. -/
inductive IncidentAction
  | create (now : ℕ) (id title : String) (severity : Severity) (services : List String)
  | addUpdate (now : ℕ) (id message author : String)
  | updateStatus (now : ℕ) (id : String) (status : IncidentStatus)
  | addPostmortem (id postmortem : String)
  | resolveForService (now : ℕ) (service : String)
  deriving DecidableEq, Repr

namespace IncidentRuns

/-- No incidents. -/
def initial : IncidentRuns := ⟨[], fun _ => none⟩

/-- An operation makes an incident resolved. -/
def becomesResolved (before after : IncidentManager) (id : String) : Bool :=
  (before.any fun i => i.id = id && i.status ≠ .resolved) &&
    after.any fun i => i.id = id && i.status = .resolved

/-- The list is replaced at a time. -/
def replace (s : IncidentRuns) (now : ℕ) (after : IncidentManager) : IncidentRuns :=
  { incidents := after
    resolutions := fun id =>
      if becomesResolved s.incidents after id then some now else s.resolutions id }

/-- One operation. -/
def step (s : IncidentRuns) : IncidentAction → Option IncidentRuns
  | .create now id title severity services =>
      -- The id is a new UUID.
      if s.incidents.any (·.id = id) then none
      else some { s with incidents := s.incidents.create id now title severity services }
  | .addUpdate now id message author =>
      some { s with incidents := (s.incidents.addUpdate now id message author).2 }
  | .updateStatus now id status =>
      some (s.replace now (s.incidents.updateStatus now id status).2)
  | .addPostmortem id postmortem =>
      some { s with incidents := (s.incidents.addPostmortem id postmortem).2 }
  | .resolveForService now service =>
      some (s.replace now (s.incidents.resolveForService now service).2)

/-- Operations in any order. -/
def machine : Machine IncidentRuns IncidentAction := ⟨step⟩

/-- The timeline has grown at its end, by one entry if the status has changed. -/
structure Grows (i i' : Incident) : Prop where
  id : i'.id = i.id
  timeline : i.timeline <+: i'.timeline
  change : i'.status ≠ i.status → i'.timeline.length = i.timeline.length + 1

/-- After an operation, the time of resolution of an incident is there exactly if it is resolved,
and is then the one at which it has last become so; its timeline has grown; and the search for a
service finds an incident unless all of them are resolved. -/
structure Recorded (s : IncidentRuns) (t : IncidentRuns) : Prop where
  status : ∀ i ∈ t.incidents, i.status = .resolved ↔ i.resolvedAt.isSome
  resolvedAt : ∀ i ∈ t.incidents, i.status = .resolved →
    i.resolvedAt = t.resolutions i.id
  grows : ∀ (k : ℕ) (i : Incident), (s.incidents : List Incident)[k]? = some i →
    ∃ i', (t.incidents : List Incident)[k]? = some i' ∧ Grows i i'
  search : ∀ service, t.incidents.findActiveForService service = none ↔
    ∀ i ∈ t.incidents, service ∈ i.affectedServices → i.status = .resolved

/-- A resolved incident is not given a status, but for the one that it has in the second in which it
was resolved. -/
def LeavesResolved (s : IncidentRuns) : IncidentAction → Prop
  | .updateStatus now id status =>
      ∀ i ∈ s.incidents.find? (·.id = id), i.status = .resolved →
        status = .resolved ∧ i.resolvedAt = some now
  | _ => True

instance (s : IncidentRuns) (a : IncidentAction) : Decidable (s.LeavesResolved a) := by
  cases a <;> unfold LeavesResolved <;> infer_instance

/-- Ids are unique, and status and time of every incident agree. -/
structure Inv (s : IncidentRuns) : Prop where
  ids : (s.incidents.map (·.id)).Nodup
  status : ∀ i ∈ s.incidents, i.status = .resolved ↔ i.resolvedAt.isSome
  resolvedAt : ∀ i ∈ s.incidents, i.status = .resolved → i.resolvedAt = s.resolutions i.id

variable {s t : IncidentRuns} {a : IncidentAction}

/-- There are no incidents at the start. -/
theorem inv_initial : Inv initial := ⟨List.nodup_nil, nofun, nofun⟩

/-- The search finds an incident unless all of them are resolved. -/
theorem findActiveForService_eq_none_iff (incidents : IncidentManager) (service : String) :
    incidents.findActiveForService service = none ↔
      ∀ i ∈ incidents, service ∈ i.affectedServices → i.status = .resolved := by
  simp only [IncidentManager.findActiveForService, Option.map_eq_none_iff, List.find?_eq_none,
    Incident.isActiveFor, Bool.and_eq_true, decide_eq_true_eq, List.any_eq_true, not_and,
    exists_eq_right]
  refine forall₂_congr fun i _ => ?_
  rw [not_imp_comm, not_not]

/-- An incident stays as it was with respect to its resolution, or it becomes resolved. -/
def Settles (s t : IncidentRuns) (i i' : Incident) : Prop :=
  ((i'.status = .resolved ↔ i.status = .resolved) ∧ i'.resolvedAt = i.resolvedAt ∧
      t.resolutions i.id = s.resolutions i.id) ∨
    (i'.status = .resolved ∧ ∃ now, i'.resolvedAt = some now ∧ t.resolutions i.id = some now)

/-- A step that changes the incidents one by one. -/
theorem recorded_map {g : Incident → Incident} (hinv : Inv s) (hid : ∀ i, (g i).id = i.id)
    (ht : t.incidents = s.incidents.map g) (hgrows : ∀ i ∈ s.incidents, Grows i (g i))
    (hsettles : ∀ i ∈ s.incidents, Settles s t i (g i)) : Inv t ∧ Recorded s t := by
  have hstatus : ∀ i ∈ t.incidents, i.status = .resolved ↔ i.resolvedAt.isSome := by
    rw [ht]
    intro i' hi'
    obtain ⟨i, hi, rfl⟩ := List.mem_map.mp hi'
    obtain ⟨hsame, htime, -⟩ | ⟨hresolved, now, htime, -⟩ := hsettles i hi
    · rw [hsame, htime, hinv.status i hi]
    · simp [hresolved, htime]
  have htime : ∀ i ∈ t.incidents, i.status = .resolved → i.resolvedAt = t.resolutions i.id := by
    rw [ht]
    intro i' hi' hres
    obtain ⟨i, hi, rfl⟩ := List.mem_map.mp hi'
    rw [hid]
    obtain ⟨hsame, htime, hkept⟩ | ⟨-, now, htime, hnow⟩ := hsettles i hi
    · rw [htime, hkept, hinv.resolvedAt i hi (hsame.mp hres)]
    · rw [htime, hnow]
  have hids : (t.incidents.map (·.id)).Nodup := by
    rw [ht, KeyedList.map_key_map hid]
    exact hinv.ids
  refine ⟨⟨hids, hstatus, htime⟩, hstatus, htime, fun k i hi => ?_,
    findActiveForService_eq_none_iff _⟩
  refine ⟨g i, ?_, hgrows i (List.mem_of_getElem? hi)⟩
  rw [ht, List.getElem?_map, hi, Option.map_some]

/-- Where ids are unique, an operation makes the incidents resolved that it gives this status. -/
theorem becomesResolved_map {g : Incident → Incident} (hinv : Inv s) (hid : ∀ i, (g i).id = i.id)
    {i : Incident} (hi : i ∈ s.incidents) :
    becomesResolved s.incidents (s.incidents.map g) i.id = true ↔
      i.status ≠ .resolved ∧ (g i).status = .resolved := by
  have hsame : ∀ j ∈ s.incidents, j.id = i.id → j = i := fun j hj heq =>
    List.inj_on_of_nodup_map hinv.ids hj hi heq
  simp only [becomesResolved, List.any_map, Bool.and_eq_true, List.any_eq_true, Function.comp_apply,
    decide_eq_true_eq, hid]
  constructor
  · rintro ⟨⟨j, hj, hji, hbefore⟩, k, hk, hki, hafter⟩
    rw [hsame j hj hji] at hbefore
    rw [hsame k hk hki] at hafter
    exact ⟨hbefore, hafter⟩
  · rintro ⟨hbefore, hafter⟩
    exact ⟨⟨i, hi, rfl, hbefore⟩, i, hi, rfl, hafter⟩

/-- The time that an operation notes for an incident. -/
theorem resolutions_replace {g : Incident → Incident} (hinv : Inv s) (hid : ∀ i, (g i).id = i.id)
    (now : ℕ) {i : Incident} (hi : i ∈ s.incidents) :
    (s.replace now (s.incidents.map g)).resolutions i.id =
      if i.status ≠ .resolved ∧ (g i).status = .resolved then some now
      else s.resolutions i.id := by
  simp only [replace, becomesResolved_map hinv hid hi]

/-- Where ids are unique, an incident is changed where it is. -/
theorem modify_eq_map (hinv : Inv s) (id : String) (f : Incident → Incident) :
    (s.incidents.modify id f).2 = s.incidents.map fun i => if i.id = id then f i else i := by
  rw [← KeyedList.modify_findIdx?_eq_map hinv.ids id f, IncidentManager.modify]
  cases s.incidents.findIdx? (·.id = id) <;> rfl

/-- A new incident. -/
theorem recorded_create {now : ℕ} {id title : String} {severity : Severity}
    {services : List String} (hinv : Inv s) (hnew : ∀ i ∈ s.incidents, i.id ≠ id)
    (ht : t = { s with incidents := s.incidents.create id now title severity services }) :
    Inv t ∧ Recorded s t := by
  subst ht
  have hstatus : ∀ i ∈ s.incidents.create id now title severity services,
      i.status = .resolved ↔ i.resolvedAt.isSome := by
    intro i hi
    rcases List.mem_append.mp hi with hold | hlast
    · exact hinv.status i hold
    · obtain rfl := List.mem_singleton.mp hlast
      simp
  have htime : ∀ i ∈ s.incidents.create id now title severity services,
      i.status = .resolved → i.resolvedAt = s.resolutions i.id := by
    intro i hi hres
    rcases List.mem_append.mp hi with hold | hlast
    · exact hinv.resolvedAt i hold hres
    · obtain rfl := List.mem_singleton.mp hlast
      cases hres
  have hids : ((s.incidents.create id now title severity services).map (·.id)).Nodup := by
    rw [IncidentManager.create, List.map_append, List.nodup_append]
    refine ⟨hinv.ids, List.nodup_singleton _, ?_⟩
    rintro a ha b hb rfl
    obtain ⟨i, hi, rfl⟩ := List.mem_map.mp ha
    exact hnew i hi (by simpa using hb)
  refine ⟨⟨hids, hstatus, htime⟩, hstatus, htime, fun k i hi => ?_,
    findActiveForService_eq_none_iff _⟩
  refine ⟨i, ?_, rfl, List.prefix_rfl, fun hne => absurd rfl hne⟩
  exact List.getElem?_append_left (List.getElem?_eq_some_iff.mp hi).1 ▸ hi

/-- An incident that is left alone. -/
theorem Grows.refl (i : Incident) : Grows i i := ⟨rfl, List.prefix_rfl, fun hne => absurd rfl hne⟩

/-- A change of the incident with an id, where the change keeps the id. -/
theorem id_ite {id : String} {f : Incident → Incident} (hf : ∀ i, (f i).id = i.id) (i : Incident) :
    (if i.id = id then f i else i).id = i.id := by
  split
  · exact hf i
  · rfl

/-- An update or a postmortem: the resolutions are left alone. -/
theorem recorded_modify {id : String} {f : Incident → Incident} (hinv : Inv s)
    (ht : t = { s with incidents := (s.incidents.modify id f).2 })
    (hgrows : ∀ i, Grows i (f i)) (hstatus : ∀ i, (f i).status = i.status)
    (hresolved : ∀ i, (f i).resolvedAt = i.resolvedAt) : Inv t ∧ Recorded s t := by
  subst ht
  refine recorded_map hinv (@id_ite id _ fun i => (hgrows i).id) (modify_eq_map hinv id f)
    (fun i _ => ?_) fun i _ => ?_
  · split
    · exact hgrows i
    · exact .refl i
  · refine .inl ⟨?_, ?_, rfl⟩
    · split <;> simp [hstatus]
    · split <;> simp [hresolved]

/-- A new status for an incident that is not resolved, or that is resolved at this time. -/
theorem settles_setStatus {now : ℕ} {i : Incident} {status : IncidentStatus}
    (hok : i.status = .resolved → status = .resolved ∧ i.resolvedAt = some now)
    (ht : t.resolutions i.id =
      if i.status ≠ .resolved ∧ status = .resolved then some now else s.resolutions i.id) :
    Settles s t i (i.setStatus now status) := by
  by_cases hbefore : i.status = .resolved
  · obtain ⟨rfl, htime⟩ := hok hbefore
    rw [if_neg fun h => h.1 hbefore] at ht
    exact .inl ⟨by simp [Incident.setStatus, hbefore], by simp [Incident.setStatus, htime], ht⟩
  · by_cases hafter : status = .resolved
    · rw [if_pos ⟨hbefore, hafter⟩] at ht
      exact .inr ⟨by simp [Incident.setStatus, hafter], now,
        by simp [Incident.setStatus, hafter], ht⟩
    · rw [if_neg fun h => hafter h.2] at ht
      exact .inl ⟨by simp [Incident.setStatus, hafter, hbefore],
        by simp [Incident.setStatus, hafter], ht⟩

/-- A new status is an entry of the timeline. -/
theorem grows_setStatus (now : ℕ) (i : Incident) (status : IncidentStatus) :
    Grows i (i.setStatus now status) :=
  ⟨rfl, List.prefix_append _ _, fun _ => by simp [Incident.setStatus]⟩

/-- A change of status that meets the condition. -/
theorem recorded_updateStatus {now : ℕ} {id : String} {status : IncidentStatus} (hinv : Inv s)
    (hok : s.LeavesResolved (.updateStatus now id status))
    (ht : t = s.replace now (s.incidents.updateStatus now id status).2) :
    Inv t ∧ Recorded s t := by
  have hid := @id_ite id _ fun i => (grows_setStatus now i status).id
  have hmap := modify_eq_map hinv id fun i => i.setStatus now status
  rw [IncidentManager.updateStatus, hmap] at ht
  subst ht
  refine recorded_map hinv hid rfl (fun i _ => ?_) fun i hi => ?_
  · split
    · exact grows_setStatus now i status
    · exact .refl i
  · have hres := resolutions_replace hinv hid now hi
    split at hres
    next heq =>
      rw [if_pos heq]
      refine settles_setStatus (hok i ?_) hres
      rw [← heq]
      exact KeyedList.find?_eq_some hinv.ids hi
    next hne =>
      rw [if_neg hne]
      exact .inl ⟨Iff.rfl, rfl, by rw [hres, if_neg fun h => h.1 h.2]⟩

/-- The incidents of a service that are not resolved become so. -/
theorem recorded_resolveForService {now : ℕ} {service : String} (hinv : Inv s)
    (ht : t = s.replace now (s.incidents.resolveForService now service).2) :
    Inv t ∧ Recorded s t := by
  have hid : ∀ i : Incident,
      (if i.isActiveFor service then i.resolve now service else i).id = i.id := by
    intro i
    split <;> rfl
  subst ht
  refine recorded_map hinv hid rfl (fun i _ => ?_) fun i hi => ?_
  · split
    · exact ⟨rfl, List.prefix_append _ _, fun _ => by simp [Incident.resolve]⟩
    · exact .refl i
  · have hres := resolutions_replace hinv hid now hi
    split at hres
    next hactive =>
      have hbefore : i.status ≠ .resolved := by
        simp only [Incident.isActiveFor, Bool.and_eq_true, decide_eq_true_eq] at hactive
        exact hactive.1
      rw [if_pos hactive]
      exact .inr ⟨rfl, now, rfl, hres.trans (if_pos ⟨hbefore, rfl⟩)⟩
    next hactive =>
      rw [if_neg hactive]
      exact .inl ⟨Iff.rfl, rfl, hres.trans (if_neg fun h => h.1 h.2)⟩

/-- A step that meets the condition. -/
theorem recorded_step (hinv : Inv s) (hok : s.LeavesResolved a)
    (hstep : machine.step s a = some t) :
    Inv t ∧ Recorded s t := by
  cases a with
  | create now id title severity services =>
      simp only [machine, step, Option.ite_none_left_eq_some, List.any_eq_true, not_exists,
        not_and, decide_eq_true_eq, Option.some.injEq] at hstep
      exact recorded_create hinv hstep.1 hstep.2.symm
  | addUpdate now id message author =>
      cases hstep
      exact recorded_modify hinv rfl
        (fun i => ⟨rfl, List.prefix_append _ _, fun hne => absurd rfl hne⟩) (fun _ => rfl)
        fun _ => rfl
  | updateStatus now id status =>
      cases hstep
      exact recorded_updateStatus hinv hok rfl
  | addPostmortem id postmortem =>
      cases hstep
      exact recorded_modify hinv rfl
        (fun i => ⟨rfl, List.prefix_rfl, fun hne => absurd rfl hne⟩) (fun _ => rfl) fun _ => rfl
  | resolveForService now service =>
      cases hstep
      exact recorded_resolveForService hinv rfl

/-- A resolved incident that is opened again keeps its time, and one that is resolved again gets a
new one. -/
theorem not_recorded_step (hinv : Inv s) (hbad : ¬ s.LeavesResolved a)
    (hstep : machine.step s a = some t) : ¬ Recorded s t := by
  cases a with
  | updateStatus now id status =>
      simp only [LeavesResolved, Option.mem_def, not_forall] at hbad
      obtain ⟨i, hfind, hbefore, hbad⟩ := hbad
      obtain rfl : i.id = id := by simpa using List.find?_some hfind
      have hi := List.mem_of_find?_eq_some hfind
      have hid := @id_ite i.id _ fun j => (grows_setStatus now j status).id
      have hmap := modify_eq_map hinv i.id fun j => j.setStatus now status
      have ht : s.replace now (s.incidents.updateStatus now i.id status).2 = t := by
        simpa [machine, step] using hstep
      rw [IncidentManager.updateStatus, hmap] at ht
      have hmem : i.setStatus now status ∈ t.incidents := by
        rw [← ht]
        exact List.mem_map.mpr ⟨i, hi, if_pos rfl⟩
      have hres : t.resolutions i.id = i.resolvedAt := by
        rw [← ht, resolutions_replace hinv hid now hi, if_neg fun h => h.1 hbefore]
        exact (hinv.resolvedAt i hi hbefore).symm
      intro hrecorded
      by_cases hafter : status = .resolved
      · refine hbad ⟨hafter, ?_⟩
        have htime := hrecorded.resolvedAt _ hmem hafter
        rw [show (i.setStatus now status).id = i.id from rfl, hres] at htime
        rw [← htime]
        exact if_pos hafter
      · refine hafter ((hrecorded.status _ hmem).mpr ?_)
        rw [show (i.setStatus now status).resolvedAt = i.resolvedAt from if_neg hafter]
        exact (hinv.status i hi).mp hbefore
  | create | addUpdate | addPostmortem | resolveForService => exact absurd trivial hbad

/-- In a run the record of every incident is right after every operation exactly if no resolved
incident is given a status, but for the one it has in the second in which it was resolved. -/
theorem recorded_iff {as : List IncidentAction}
    (hrun : machine.Runs Machine.unrestricted initial as s) :
    machine.Along (fun s _ t => Recorded s t) initial as ↔
      machine.Runs LeavesResolved initial as s :=
  hrun.along_iff (I := Inv) (fun _ _ _ hinv hok hst => recorded_step hinv hok hst)
    (fun _ _ _ hinv hbad hst => not_recorded_step hinv hbad hst) inv_initial

/-- An outage that is investigated and resolved. -/
def outage : List IncidentAction :=
  [.create 5 "inc-1" "API down" .critical ["api"], .updateStatus 7 "inc-1" .identified,
    .addUpdate 8 "inc-1" "Restarted" "ops", .resolveForService 9 "api",
    .updateStatus 9 "inc-1" .resolved]

/-- The record of the outage is right after every operation. -/
theorem recorded_outage :
    machine.Along (fun s _ t => Recorded s t) initial outage := by
  have hsome : (machine.exec LeavesResolved initial outage).isSome := by decide
  obtain ⟨s, hs⟩ := Option.isSome_iff_exists.mp hsome
  have hrun := Machine.runs_of_exec hs
  exact (recorded_iff (hrun.mono fun _ _ _ => trivial)).mpr hrun

/-- An incident that is resolved and investigated again has a time of resolution. -/
theorem recorded_fails :
    ¬ ∀ as s, machine.Runs Machine.unrestricted initial as s →
      machine.Along (fun s _ t => Recorded s t) initial as := by
  intro h
  have hsome : (machine.exec Machine.unrestricted initial
      [.create 5 "inc-1" "API down" .critical ["api"], .resolveForService 9 "api",
        .updateStatus 12 "inc-1" .investigating]).isSome := by decide
  obtain ⟨s, hs⟩ := Option.isSome_iff_exists.mp hsome
  obtain ⟨-, h⟩ := h _ _ (Machine.runs_of_exec hs) _ rfl
  obtain ⟨-, h⟩ := h _ rfl
  obtain ⟨h, -⟩ := h _ rfl
  exact absurd ((h.status _ (List.mem_singleton.mpr rfl)).mpr rfl) (by decide)

end IncidentRuns

end XiraNet

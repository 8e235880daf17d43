import Mathlib.Logic.Basic

/-!
# Runs of a machine

A machine takes actions one after the other; the choices of its environment (which request
arrives, which thread moves, what the clock shows) are part of the action. A run carries a
condition `ok` on the steps it may take, so that "in every run whose steps all meet the
condition" is a quantification over `Runs`.

* `Machine.Runs.invariant`: what holds at the start and is kept by every step that meets the
  condition holds wherever a run ends.
* `Machine.Runs.throughout_iff`: where a step that breaks the condition spoils a property at once,
  the property holds throughout a run exactly if every step meets the condition.
* `Machine.Runs.along_iff`: the same for a property of steps.
* `Machine.Runs.meets_of_not`: where such a step leads to a flaw that stays, a run that ends without
  the flaw has met the condition.
* `Machine.exec` and `Machine.runs_of_exec`: a run over a decidable condition is found by
  evaluation.
-/

/-- A machine with states `σ` and actions `α`. `step s a` is `none` when the action `a` is not
enabled in `s`. -/
structure Machine (σ α : Type*) where
  /-- The state after an enabled action. -/
  step : σ → α → Option σ

namespace Machine

variable {σ α : Type*} {M : Machine σ α} {ok : σ → α → Prop}

/-- `M.Runs ok s as s'`: the actions `as` lead from `s` to `s'`, and every one of them meets
`ok` in the state in which it is taken. -/
inductive Runs (M : Machine σ α) (ok : σ → α → Prop) : σ → List α → σ → Prop
  | nil (s : σ) : Runs M ok s [] s
  | cons {s t u : σ} {a : α} {as : List α} :
      ok s a → M.step s a = some t → Runs M ok t as u → Runs M ok s (a :: as) u

/-- The condition that every step meets. -/
def unrestricted (_ : σ) (_ : α) : Prop := True

/-- The invariant rule. -/
theorem Runs.invariant {I : σ → Prop}
    (hstep : ∀ s a t, I s → ok s a → M.step s a = some t → I t)
    {s s' : σ} {as : List α} (hrun : M.Runs ok s as s') (hs : I s) : I s' := by
  induction hrun with
  | nil => exact hs
  | cons hok hst _ ih => exact ih (hstep _ _ _ hs hok hst)

/-- A run meets every weaker condition. -/
theorem Runs.mono {ok' : σ → α → Prop} {s s' : σ} {as : List α}
    (hrun : M.Runs ok s as s') (h : ∀ s a, ok s a → ok' s a) : M.Runs ok' s as s' := by
  induction hrun with
  | nil s => exact .nil s
  | cons hok hst _ ih => exact .cons (h _ _ hok) hst ih

/-- A run can be continued. -/
theorem Runs.append {s t u : σ} {as bs : List α} (hrun : M.Runs ok s as t)
    (hrest : M.Runs ok t bs u) : M.Runs ok s (as ++ bs) u := by
  induction hrun with
  | nil => exact hrest
  | cons hok hst _ ih => exact .cons hok hst (ih hrest)

/-- `M.Throughout P s as`: `P` holds in `s` and in every state that the actions `as` pass. -/
def Throughout (M : Machine σ α) (P : σ → Prop) : σ → List α → Prop
  | s, [] => P s
  | s, a :: as => P s ∧ ∀ t, M.step s a = some t → Throughout M P t as

/-- What holds throughout a run holds at its start. -/
theorem Throughout.head {P : σ → Prop} {s : σ} {as : List α} (h : M.Throughout P s as) : P s := by
  cases as with
  | nil => exact h
  | cons a as => exact h.1

/-- A property that an invariant implies holds throughout a run that keeps the invariant. -/
theorem Runs.throughout {I P : σ → Prop} (hI : ∀ s, I s → P s)
    (hstep : ∀ s a t, I s → ok s a → M.step s a = some t → I t)
    {s s' : σ} {as : List α} (hrun : M.Runs ok s as s') (hs : I s) : M.Throughout P s as := by
  induction hrun with
  | nil s => exact hI s hs
  | cons hok hst _ ih =>
      refine ⟨hI _ hs, fun t hst' => ?_⟩
      cases hst.symm.trans hst'
      exact ih (hstep _ _ _ hs hok hst)

/-- A property that an invariant implies, and that a step breaking the condition spoils, holds
throughout a run exactly if every step of the run meets the condition. -/
theorem Runs.throughout_iff {I P : σ → Prop} (hI : ∀ s, I s → P s)
    (hstep : ∀ s a t, I s → ok s a → M.step s a = some t → I t)
    (hbad : ∀ s a t, I s → ¬ ok s a → M.step s a = some t → ¬ P t)
    {s s' : σ} {as : List α} (hrun : M.Runs unrestricted s as s') (hs : I s) :
    M.Throughout P s as ↔ M.Runs ok s as s' := by
  induction hrun with
  | nil s => exact ⟨fun _ => .nil s, fun _ => hI s hs⟩
  | @cons s t u a as _ hst _ ih =>
      constructor
      · intro h
        by_cases hok : ok s a
        · exact .cons hok hst ((ih (hstep s a t hs hok hst)).mp (h.2 t hst))
        -- The property is spoiled right after the step.
        · exact absurd (h.2 t hst).head (hbad s a t hs hok hst)
      · intro h
        cases h with
        | cons hok hst' hrest =>
            cases hst.symm.trans hst'
            refine ⟨hI s hs, fun t' hst'' => ?_⟩
            cases hst.symm.trans hst''
            exact (ih (hstep s a t hs hok hst)).mpr hrest

/-- The same for the runs whose steps meet a condition of their own. -/
theorem Runs.throughout_and_iff {base : σ → α → Prop} {I P : σ → Prop} (hI : ∀ s, I s → P s)
    (hstep : ∀ s a t, I s → base s a → ok s a → M.step s a = some t → I t)
    (hbad : ∀ s a t, I s → base s a → ¬ ok s a → M.step s a = some t → ¬ P t)
    {s s' : σ} {as : List α} (hrun : M.Runs base s as s') (hs : I s) :
    M.Throughout P s as ↔ M.Runs (fun s a => base s a ∧ ok s a) s as s' := by
  induction hrun with
  | nil s => exact ⟨fun _ => .nil s, fun _ => hI s hs⟩
  | @cons s t u a as hbase hst _ ih =>
      constructor
      · intro h
        by_cases hok : ok s a
        · exact .cons ⟨hbase, hok⟩ hst ((ih (hstep s a t hs hbase hok hst)).mp (h.2 t hst))
        · exact absurd (h.2 t hst).head (hbad s a t hs hbase hok hst)
      · intro h
        cases h with
        | cons hok hst' hrest =>
            cases hst.symm.trans hst'
            refine ⟨hI s hs, fun t' hst'' => ?_⟩
            cases hst.symm.trans hst''
            exact (ih (hstep s a t hs hok.1 hok.2 hst)).mpr hrest

/-- What holds throughout a run holds at its end. -/
theorem Throughout.last {P : σ → Prop} {s s' : σ} {as : List α} (h : M.Throughout P s as)
    (hrun : M.Runs ok s as s') : P s' := by
  induction hrun with
  | nil => exact h
  | cons _ hst _ ih => exact ih (h.2 _ hst)

/-- `M.Along Q s as`: `Q` holds of every step that the actions `as` take from `s`. -/
def Along (M : Machine σ α) (Q : σ → α → σ → Prop) : σ → List α → Prop
  | _, [] => True
  | s, a :: as => ∀ t, M.step s a = some t → Q s a t ∧ Along M Q t as

/-- A property of steps that those meeting the condition have, and those breaking it have not,
holds along a run exactly if every step of the run meets the condition. -/
theorem Runs.along_iff {I : σ → Prop} {Q : σ → α → σ → Prop}
    (hstep : ∀ s a t, I s → ok s a → M.step s a = some t → I t ∧ Q s a t)
    (hbad : ∀ s a t, I s → ¬ ok s a → M.step s a = some t → ¬ Q s a t)
    {s s' : σ} {as : List α} (hrun : M.Runs unrestricted s as s') (hs : I s) :
    M.Along Q s as ↔ M.Runs ok s as s' := by
  induction hrun with
  | nil s => exact ⟨fun _ => .nil s, fun _ => trivial⟩
  | @cons s t u a as _ hst _ ih =>
      constructor
      · intro h
        by_cases hok : ok s a
        · exact .cons hok hst ((ih (hstep s a t hs hok hst).1).mp (h t hst).2)
        · exact absurd (h t hst).1 (hbad s a t hs hok hst)
      · intro h
        cases h with
        | cons hok hst' hrest =>
            cases hst.symm.trans hst'
            intro t' hst''
            cases hst.symm.trans hst''
            obtain ⟨ht, hQ⟩ := hstep s a t hs hok hst
            exact ⟨hQ, (ih ht).mpr hrest⟩

/-- Where a step that breaks the condition leads to a flaw that stays, a run without the flaw at its
end has met the condition in every step. -/
theorem Runs.meets_of_not {I D : σ → Prop}
    (hstep : ∀ s a t, I s → ok s a → M.step s a = some t → I t)
    (hbad : ∀ s a t, I s → ¬ ok s a → M.step s a = some t → D t)
    (hkeep : ∀ s a t, D s → M.step s a = some t → D t)
    {s s' : σ} {as : List α} (hrun : M.Runs unrestricted s as s') (hs : I s) (hend : ¬ D s') :
    M.Runs ok s as s' := by
  induction hrun with
  | nil s => exact .nil s
  | @cons s t u a as _ hst hrest ih =>
      by_cases hok : ok s a
      · exact .cons hok hst (ih (hstep s a t hs hok hst) hend)
      · exact absurd (hrest.invariant (fun _ _ _ hD _ h => hkeep _ _ _ hD h)
          (hbad s a t hs hok hst)) hend

/-- Evaluate a list of actions, stopping at one that is not enabled or breaks the condition. -/
def exec (M : Machine σ α) (ok : σ → α → Prop) [∀ s a, Decidable (ok s a)] (s : σ) :
    List α → Option σ
  | [] => some s
  | a :: as => if ok s a then (M.step s a).bind fun t => exec M ok t as else none

/-- What `exec` evaluates to is reached by a run. -/
theorem runs_of_exec [∀ s a, Decidable (ok s a)] {s s' : σ} {as : List α}
    (h : M.exec ok s as = some s') : M.Runs ok s as s' := by
  induction as generalizing s with
  | nil =>
      cases h
      exact .nil _
  | cons a as ih =>
      by_cases hok : ok s a
      · simp only [exec, hok, if_true, Option.bind_eq_some_iff] at h
        obtain ⟨t, hst, hrest⟩ := h
        exact .cons hok hst (ih hrest)
      · simp [exec, hok] at h

/-- A run is what `exec` evaluates to. -/
theorem exec_of_runs [∀ s a, Decidable (ok s a)] {s s' : σ} {as : List α}
    (hrun : M.Runs ok s as s') : M.exec ok s as = some s' := by
  induction hrun with
  | nil => rfl
  | cons hok hst _ ih => simp only [exec, hok, if_true, hst, Option.bind_some, ih]

instance : ∀ (s : σ) (a : α), Decidable (unrestricted s a) :=
  fun _ _ => inferInstanceAs (Decidable True)

end Machine

import Mathlib.Data.List.Basic

/-!
# Runs recorded step by step

A run is the list of its steps, each a label with the state after it.  A record is kept along the
run, and what is asked of a step may depend on the record so far.

* `Steps` — a run is made of steps of the system; `endOf` — where it ends; `Steps.append` — runs one
  after the other;
* `Along` — a property of every step, judged with the record;
* `Along.congr` — two properties agree along a run that agree at every step, where an invariant of
  the record and the state is at hand that the first of them leaves behind;
* `through` — the record and the state at the end.

Nothing here knows any particular system.
-/

namespace RecordedRuns

variable {σ ι γ : Type}

/-- Every step of the run is a step of the system. -/
def Steps (step : σ → ι → σ → Prop) : σ → List (ι × σ) → Prop
  | _, [] => True
  | s, (i, s') :: rest => step s i s' ∧ Steps step s' rest

theorem Steps.map {κ : Type} {step : σ → ι → σ → Prop} {step' : σ → κ → σ → Prop} {f : ι → κ}
    (hstep : ∀ s i s', step s i s' → step' s (f i) s') {s : σ} {run : List (ι × σ)}
    (h : Steps step s run) : Steps step' s (run.map (Prod.map f id)) := by
  induction run generalizing s with
  | nil => exact trivial
  | cons first rest ih => exact ⟨hstep _ _ _ h.1, ih h.2⟩

/-- The state at the end of a run. -/
def endOf : σ → List (ι × σ) → σ
  | s, [] => s
  | _, (_, s') :: rest => endOf s' rest

theorem endOf_map {κ : Type} (f : ι → κ) (s : σ) (run : List (ι × σ)) :
    endOf s (run.map (Prod.map f id)) = endOf s run := by
  induction run generalizing s with
  | nil => rfl
  | cons first rest ih => exact ih first.2

/-- A run may be followed by a run that begins where it ends. -/
theorem Steps.append {step : σ → ι → σ → Prop} {later : List (ι × σ)} {s : σ}
    {run : List (ι × σ)} (h : Steps step s run) (hlater : Steps step (endOf s run) later) :
    Steps step s (run ++ later) := by
  induction run generalizing s with
  | nil => exact hlater
  | cons first rest ih => exact ⟨h.1, ih h.2 hlater⟩

/-- A property holds of every step of a run, with the record as it is before the step. -/
inductive Along (record : γ → σ → ι → σ → γ) (holds : γ → σ → ι → σ → Prop) :
    γ → σ → List (ι × σ) → Prop
  | nil {g : γ} {s : σ} : Along record holds g s []
  | cons {g : γ} {s s' : σ} {i : ι} {rest : List (ι × σ)} (first : holds g s i s')
      (later : Along record holds (record g s i s') s' rest) :
      Along record holds g s ((i, s') :: rest)

/-- The record and the state at the end of a run. -/
def through (record : γ → σ → ι → σ → γ) : γ → σ → List (ι × σ) → γ × σ
  | g, s, [] => (g, s)
  | g, s, (i, s') :: rest => through record (record g s i s') s' rest

variable {record : γ → σ → ι → σ → γ} {step : σ → ι → σ → Prop} {P Q : γ → σ → ι → σ → Prop}
  {I : γ → σ → Prop} {g : γ} {s : σ} {run : List (ι × σ)}

theorem Along.congr
    (hiff : ∀ g s i s', I g s → step s i s' → (P g s i s' ↔ Q g s i s'))
    (hnext : ∀ g s i s', I g s → step s i s' → P g s i s' → I (record g s i s') s')
    (hsteps : Steps step s run) (hinv : I g s) :
    Along record P g s run ↔ Along record Q g s run := by
  induction run generalizing g s with
  | nil => exact iff_of_true .nil .nil
  | cons first rest ih =>
      obtain ⟨i, s'⟩ := first
      obtain ⟨hstep, hrest⟩ := hsteps
      have hfirst := hiff g s i s' hinv hstep
      constructor
      · intro h
        cases h with
        | cons hp hlater =>
            exact .cons (hfirst.mp hp) ((ih hrest (hnext g s i s' hinv hstep hp)).mp hlater)
      · intro h
        cases h with
        | cons hq hlater =>
            have hp := hfirst.mpr hq
            exact .cons hp ((ih hrest (hnext g s i s' hinv hstep hp)).mpr hlater)

/-- What every step leaves behind holds at the end. -/
theorem Along.through (hnext : ∀ g s i s', P g s i s' → I (record g s i s') s')
    (h : Along record P g s run) (hinv : I g s) :
    I (through record g s run).1 (through record g s run).2 := by
  induction h with
  | nil => exact hinv
  | cons first later ih => exact ih (hnext _ _ _ _ first)

end RecordedRuns

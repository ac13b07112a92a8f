import Mathlib.Logic.Basic

/-!
# Runs of a transition system whose steps meet a condition

A transition system is a relation `step : σ → ι → σ → Prop`, where a label says what the
environment chose.  A run may be restricted to steps that meet a condition on the state before
the step and on its label.

* `Reach step meets s₀ s` — `s` is reached from `s₀` by steps that all meet the condition;
* `Reach.invariant` — what holds at the start and survives each such step holds in every state
  reached;
* `Reach.weaken` — a run under a condition is a run under a weaker one;
* `Reach.trans`, `Reach.of_foldlM` — runs one after the other, and a list of steps as a run.

Nothing here knows any particular system.
-/

namespace GuardedRuns

variable {σ ι : Type}

/-- The states reached by steps that all meet the condition. -/
inductive Reach (step : σ → ι → σ → Prop) (meets : σ → ι → Prop) (s₀ : σ) : σ → Prop where
  | start : Reach step meets s₀ s₀
  | next {s s' : σ} {label : ι} (h : Reach step meets s₀ s) (hmeets : meets s label)
      (hstep : step s label s') : Reach step meets s₀ s'

/-- The condition that every step meets. -/
def Anyhow (_ : σ) (_ : ι) : Prop := True

variable {step : σ → ι → σ → Prop} {meets meets' : σ → ι → Prop} {s₀ s s' : σ}

/-- An invariant of the steps that meet the condition holds in every state reached. -/
theorem Reach.invariant {I : σ → Prop} (hstart : I s₀)
    (hstep : ∀ s label s', I s → meets s label → step s label s' → I s')
    (h : Reach step meets s₀ s) : I s := by
  induction h with
  | start => exact hstart
  | next _ hmeets hs ih => exact hstep _ _ _ ih hmeets hs

theorem Reach.weaken (hweaker : ∀ s label, meets s label → meets' s label)
    (h : Reach step meets s₀ s) : Reach step meets' s₀ s := by
  induction h with
  | start => exact Reach.start
  | next _ hmeets hs ih => exact Reach.next ih (hweaker _ _ hmeets) hs

theorem Reach.trans (h : Reach step meets s₀ s) (h' : Reach step meets s s') :
    Reach step meets s₀ s' := by
  induction h' with
  | start => exact h
  | next _ hmeets hs ih => exact Reach.next ih hmeets hs

/-- Steps computed one after the other are a run. -/
theorem Reach.of_foldlM {next : σ → ι → Option σ}
    (hnext : ∀ s label s', next s label = some s' → step s label s') (labels : List ι)
    (hmeets : ∀ label ∈ labels, ∀ s, meets s label) (h : labels.foldlM next s = some s') :
    Reach step meets s s' := by
  induction labels generalizing s with
  | nil =>
    cases h
    exact .start
  | cons label labels ih =>
    rw [List.foldlM_cons, Option.bind_eq_bind, Option.bind_eq_some_iff] at h
    obtain ⟨middle, hfirst, hrest⟩ := h
    have hone : Reach step meets s middle :=
      .next .start (hmeets label List.mem_cons_self s) (hnext s label middle hfirst)
    exact hone.trans (ih (fun l hl => hmeets l (List.mem_cons_of_mem label hl)) hrest)

end GuardedRuns

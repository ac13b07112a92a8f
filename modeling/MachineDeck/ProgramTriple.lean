import Mathlib.Logic.Basic

/-!
# Triples for programs that may raise

A program over a state `σ` that may raise an exception of type `ε` is an `EStateM ε σ α`: the
state reached when an exception is raised is kept, as it is when an imperative program raises in
the middle of a sequence of effects.  This file gives such programs a Hoare logic with two
postconditions, one for a returned value and one for a raised exception.

* `Triple P m Q E` — from a state satisfying `P`, a run of `m` that returns ends in `Q` and a run
  that raises ends in `E`;
* `Triple.bind`, `Triple.tryCatch`, `Triple.get_bind`, `Triple.conseq` — the structural rules;
* `Triple.forEach`, `Triple.startingAt`, `Triple.exits` — between a triple and its instances at
  known states;
* `Keeps I m` — a program keeps an invariant at both exits;
* `run_bind` and its companions — execution of a program step by step, by `simp`.

Nothing here knows any particular program.
-/

namespace ProgramTriple

variable {ε σ α β : Type}

/-- `Q` of a returned value and its state, `E` of a raised exception and its state. -/
def Ends (Q : α → σ → Prop) (E : ε → σ → Prop) : EStateM.Result ε σ α → Prop
  | .ok a s => Q a s
  | .error e s => E e s

/-- From `P`, the program returns into `Q` or raises into `E`. -/
def Triple (P : σ → Prop) (m : EStateM ε σ α) (Q : α → σ → Prop) (E : ε → σ → Prop) : Prop :=
  ∀ s, P s → Ends Q E (m s)

/-- The state a run ends in, whether it returns or raises. -/
def finalState : EStateM.Result ε σ α → σ
  | .ok _ s => s
  | .error _ s => s

/-- Whether a run returned. -/
def returned : EStateM.Result ε σ α → Bool
  | .ok _ _ => true
  | .error _ _ => false

/-! ### Reading a triple off a run -/

theorem Triple.of_ok {P : σ → Prop} {m : EStateM ε σ α} {Q : α → σ → Prop} {E : ε → σ → Prop}
    {s s' : σ} {a : α} (h : Triple P m Q E) (hs : P s) (hrun : m s = .ok a s') : Q a s' := by
  have hend := h s hs
  rwa [hrun] at hend

theorem Triple.of_error {P : σ → Prop} {m : EStateM ε σ α} {Q : α → σ → Prop} {E : ε → σ → Prop}
    {s s' : σ} {e : ε} (h : Triple P m Q E) (hs : P s) (hrun : m s = .error e s') : E e s' := by
  have hend := h s hs
  rwa [hrun] at hend

/-! ### Structural rules -/

theorem Triple.conseq {P P' : σ → Prop} {m : EStateM ε σ α} {Q Q' : α → σ → Prop}
    {E E' : ε → σ → Prop} (h : Triple P m Q E) (hP : ∀ s, P' s → P s)
    (hQ : ∀ a s, Q a s → Q' a s) (hE : ∀ e s, E e s → E' e s) : Triple P' m Q' E' := by
  intro s hs
  have hend := h s (hP s hs)
  cases hrun : m s with
  | ok a s' => rw [hrun] at hend; exact hQ a s' hend
  | error e s' => rw [hrun] at hend; exact hE e s' hend

theorem Triple.bind {P : σ → Prop} {m : EStateM ε σ α} {k : α → EStateM ε σ β}
    {R : α → σ → Prop} {Q : β → σ → Prop} {E : ε → σ → Prop} (hm : Triple P m R E)
    (hk : ∀ a, Triple (R a) (k a) Q E) : Triple P (m >>= k) Q E := by
  intro s hs
  have hend := hm s hs
  change Ends Q E (EStateM.bind m k s)
  cases hrun : m s with
  | ok a s' =>
      rw [hrun] at hend
      simpa only [EStateM.bind, hrun] using hk a s' hend
  | error e s' =>
      simp only [EStateM.bind, hrun]
      rwa [hrun] at hend

/-- The handler starts from the state the exception was raised in. -/
theorem Triple.tryCatch {P : σ → Prop} {m : EStateM ε σ α} {h : ε → EStateM ε σ α}
    {Q : α → σ → Prop} {R E : ε → σ → Prop} (hm : Triple P m Q R)
    (hh : ∀ e, Triple (R e) (h e) Q E) : Triple P (tryCatch m h) Q E := by
  intro s hs
  have hend := hm s hs
  change Ends Q E (EStateM.tryCatch m h s)
  cases hrun : m s with
  | ok a s' =>
      delta EStateM.tryCatch
      simp only [hrun]
      rwa [hrun] at hend
  | error e s' =>
      delta EStateM.tryCatch
      simp only [hrun]
      rw [hrun] at hend
      exact hh e s' hend

theorem Triple.pure {P : σ → Prop} {Q : α → σ → Prop} {E : ε → σ → Prop} {a : α}
    (h : ∀ s, P s → Q a s) : Triple P (Pure.pure a : EStateM ε σ α) Q E := h

theorem Triple.throw {P : σ → Prop} {Q : α → σ → Prop} {E : ε → σ → Prop} {e : ε}
    (h : ∀ s, P s → E e s) : Triple P (throw e : EStateM ε σ α) Q E := h

theorem Triple.modify {P : σ → Prop} {Q : Unit → σ → Prop} {E : ε → σ → Prop} {f : σ → σ}
    (h : ∀ s, P s → Q () (f s)) : Triple P (modify f : EStateM ε σ Unit) Q E := h

/-- A triple used at one known state. -/
theorem Triple.startingAt {P : σ → Prop} {m : EStateM ε σ α} {Q : α → σ → Prop}
    {E : ε → σ → Prop} {s₀ : σ} (h : Triple P m Q E) (hs : P s₀) :
    Triple (fun s => s = s₀) m Q E := by
  intro s heq
  rw [heq]
  exact h s₀ hs

/-- Reading the state: the continuation starts from the very state that was read. -/
theorem Triple.get_bind {P : σ → Prop} {k : σ → EStateM ε σ β} {Q : β → σ → Prop}
    {E : ε → σ → Prop} (h : ∀ s₀, P s₀ → Triple (fun s => s = s₀) (k s₀) Q E) :
    Triple P (MonadState.get >>= k) Q E := fun s hs => h s hs s rfl

/-- Two facts about one program hold together. -/
theorem Triple.and {P P' : σ → Prop} {m : EStateM ε σ α} {Q Q' : α → σ → Prop}
    {E E' : ε → σ → Prop} (h : Triple P m Q E) (h' : Triple P' m Q' E') :
    Triple (fun s => P s ∧ P' s) m (fun a s => Q a s ∧ Q' a s) (fun e s => E e s ∧ E' e s) := by
  intro s hs
  have hend := h s hs.1
  have hend' := h' s hs.2
  cases hrun : m s with
  | ok a s' => rw [hrun] at hend hend'; exact ⟨hend, hend'⟩
  | error e s' => rw [hrun] at hend hend'; exact ⟨hend, hend'⟩

/-- A fact that is not about the state. -/
theorem Triple.of_and {P : σ → Prop} {φ : Prop} {m : EStateM ε σ α} {Q : α → σ → Prop}
    {E : ε → σ → Prop} (h : φ → Triple P m Q E) : Triple (fun s => P s ∧ φ) m Q E :=
  fun s hs => h hs.2 s hs.1

/-- A triple checked at each starting state by itself. -/
theorem Triple.forEach {P : σ → Prop} {m : EStateM ε σ α} {Q : α → σ → Prop} {E : ε → σ → Prop}
    (h : ∀ s, P s → Triple (fun t => t = s) m Q E) : Triple P m Q E := fun s hs => h s hs s rfl

/-- A triple about both exits is a fact about the run. -/
theorem Triple.exits {m : EStateM ε σ α} {s : σ} {R : EStateM.Result ε σ α → Prop}
    (h : Triple (fun t => t = s) m (fun a t => R (.ok a t)) (fun e t => R (.error e t))) :
    R (m s) := by
  have hend := h s rfl
  cases hrun : m s with
  | ok a t => rw [hrun] at hend; exact hend
  | error e t => rw [hrun] at hend; exact hend

/-- A program that does not raise returns. -/
theorem Triple.returns {m : EStateM ε σ α} {s : σ} {Q : α → σ → Prop}
    (h : Triple (fun t => t = s) m Q (fun _ _ => False)) : ∃ a t, m s = .ok a t ∧ Q a t := by
  have hend := h s rfl
  cases hrun : m s with
  | ok a t =>
      rw [hrun] at hend
      exact ⟨a, t, rfl, hend⟩
  | error e t =>
      rw [hrun] at hend
      exact hend.elim

/-! ### Invariants of a program -/

/-- The program keeps an invariant, whether it returns or raises. -/
def Keeps (I : σ → Prop) (m : EStateM ε σ α) : Prop := Triple I m (fun _ => I) fun _ => I

theorem Keeps.bind {I : σ → Prop} {m : EStateM ε σ α} {k : α → EStateM ε σ β} (hm : Keeps I m)
    (hk : ∀ a, Keeps I (k a)) : Keeps I (m >>= k) := Triple.bind hm hk

theorem Keeps.get_bind {I : σ → Prop} {k : σ → EStateM ε σ β} (h : ∀ s, I s → Keeps I (k s)) :
    Keeps I (MonadState.get >>= k) := fun s hs => h s hs s hs

theorem Keeps.pure {I : σ → Prop} (a : α) : Keeps I (Pure.pure a : EStateM ε σ α) := fun _ h => h

theorem Keeps.throw {I : σ → Prop} (e : ε) : Keeps I (throw e : EStateM ε σ α) := fun _ h => h

theorem Keeps.modify {I : σ → Prop} {f : σ → σ} (h : ∀ s, I s → I (f s)) :
    Keeps I (modify f : EStateM ε σ Unit) := h

theorem Keeps.modifyGet {I : σ → Prop} {f : σ → α × σ} (h : ∀ s, I s → I (f s).2) :
    Keeps I (modifyGet f : EStateM ε σ α) := h

theorem Keeps.finalState {I : σ → Prop} {m : EStateM ε σ α} {s : σ} (h : Keeps I m) (hs : I s) :
    I (finalState (m s)) := by
  have hend := h s hs
  cases hrun : m s with
  | ok a s' => rwa [hrun] at hend
  | error e s' => rwa [hrun] at hend

/-! ### Running a program step by step -/

@[simp] theorem run_pure (a : α) (s : σ) : (Pure.pure a : EStateM ε σ α) s = .ok a s := rfl

@[simp] theorem run_throw (e : ε) (s : σ) :
    (MonadExcept.throw e : EStateM ε σ α) s = .error e s := rfl

@[simp] theorem run_get (s : σ) : (MonadState.get : EStateM ε σ σ) s = .ok s s := rfl

@[simp] theorem run_modify (f : σ → σ) (s : σ) :
    (modify f : EStateM ε σ PUnit) s = .ok ⟨⟩ (f s) := rfl

@[simp] theorem run_bind (m : EStateM ε σ α) (k : α → EStateM ε σ β) (s : σ) :
    (m >>= k) s = match m s with
      | .ok a s' => k a s'
      | .error e s' => .error e s' := rfl

end ProgramTriple

import MachineDeck.DeployModel

/-!
# Rules for the operations of `deploy`

One rule for each way `deploy` runs an operation, so that a proof about the script never looks at
an outcome again: `perform_ends` and `bestEffort_triple` in general, `perform_changing`,
`perform_replacing` and `perform_looking` for the three kinds of effect.  Postconditions for
exceptions speak of the operation that raised; a killed process reaches no handler.
-/

namespace MachineDeck.Deploy

open ProgramTriple

section
variable {Bytes Content Server : Type}

/-! ### Rules for operations -/

/-- A postcondition for exceptions: `K` of the operation that raised; nothing for a kill. -/
def onRaise (K : Operation → Progress Bytes → Prop) : Halt → Progress Bytes → Prop
  | .raised op, p => K op p
  | .killed _, _ => True

/-- One postcondition for each way the operation can end. -/
theorem perform_ends {I J : Progress Bytes → Prop} {E : Halt → Progress Bytes → Prop}
    {call : Call Bytes} {op : Operation} {effect : OpOutcome → Progress Bytes → Progress Bytes}
    (hdone : call.outcome op = .done → ∀ p, I p → J (effect .done p))
    (hraised : call.outcome op = .raised → ∀ p, I p → E (.raised op) (effect .raised p))
    (hkilled : call.outcome op = .killed → ∀ p, I p → E (.killed op) (effect .killed p)) :
    Triple I (perform call op effect) (fun _ => J) E := by
  intro p hp
  cases hout : call.outcome op with
  | done =>
      have hrun : perform call op effect p = .ok () (effect .done p) := by
        simp only [perform, hout]
        rfl
      rw [hrun]
      exact hdone hout p hp
  | raised =>
      have hrun : perform call op effect p = .error (.raised op) (effect .raised p) := by
        simp only [perform, hout]
        rfl
      rw [hrun]
      exact hraised hout p hp
  | killed =>
      have hrun : perform call op effect p = .error (.killed op) (effect .killed p) := by
        simp only [perform, hout]
        rfl
      rw [hrun]
      exact hkilled hout p hp

theorem perform_triple {I J : Progress Bytes → Prop} {K : Operation → Progress Bytes → Prop}
    {call : Call Bytes} {op : Operation} {effect : OpOutcome → Progress Bytes → Progress Bytes}
    (hdone : call.outcome op = .done → ∀ p, I p → J (effect .done p))
    (hraised : call.outcome op = .raised → ∀ p, I p → K op (effect .raised p)) :
    Triple I (perform call op effect) (fun _ => J) (onRaise K) :=
  perform_ends hdone hraised fun _ _ _ => trivial

/-- An operation whose effect keeps `I`, however it ends. -/
theorem perform_always {I : Progress Bytes → Prop} {E : Halt → Progress Bytes → Prop}
    {call : Call Bytes} {op : Operation} {effect : OpOutcome → Progress Bytes → Progress Bytes}
    (hkeep : ∀ outcome p, I p → I (effect outcome p)) (hexit : ∀ halt p, I p → E halt p) :
    Triple I (perform call op effect) (fun _ => I) E :=
  perform_ends (fun _ p hp => hkeep .done p hp)
    (fun _ p hp => hexit _ _ (hkeep .raised p hp)) (fun _ p hp => hexit _ _ (hkeep .killed p hp))

/-- The same of an operation whose exceptions are swallowed. -/
theorem bestEffort_ends {I J : Progress Bytes → Prop} {E : Halt → Progress Bytes → Prop}
    {call : Call Bytes} {op : Operation} {effect : OpOutcome → Progress Bytes → Progress Bytes}
    (hreturned : call.outcome op ≠ .killed → ∀ p, I p → J (effect (call.outcome op) p))
    (hkilled : call.outcome op = .killed → ∀ p, I p → E (.killed op) (effect .killed p)) :
    Triple I (bestEffort call op effect) (fun _ => J) E := by
  intro p hp
  cases hout : call.outcome op with
  | done =>
      have hrun : bestEffort call op effect p = .ok () (effect (call.outcome op) p) := by
        simp only [bestEffort, hout]
        rfl
      rw [hrun]
      exact hreturned (by rw [hout]; decide) p hp
  | raised =>
      have hrun : bestEffort call op effect p = .ok () (effect (call.outcome op) p) := by
        simp only [bestEffort, hout]
        rfl
      rw [hrun]
      exact hreturned (by rw [hout]; decide) p hp
  | killed =>
      have hrun : bestEffort call op effect p = .error (.killed op) (effect .killed p) := by
        simp only [bestEffort, hout]
        rfl
      rw [hrun]
      exact hkilled hout p hp

theorem bestEffort_always {I : Progress Bytes → Prop} {E : Halt → Progress Bytes → Prop}
    {call : Call Bytes} {op : Operation} {effect : OpOutcome → Progress Bytes → Progress Bytes}
    (hkeep : ∀ outcome p, I p → I (effect outcome p)) (hexit : ∀ halt p, I p → E halt p) :
    Triple I (bestEffort call op effect) (fun _ => I) E :=
  bestEffort_ends (fun _ p hp => hkeep _ p hp) (fun _ p hp => hexit _ _ (hkeep .killed p hp))

theorem bestEffort_triple {I J : Progress Bytes → Prop}
    {K : Operation → Progress Bytes → Prop} {call : Call Bytes} {op : Operation}
    {effect : OpOutcome → Progress Bytes → Progress Bytes}
    (h : ∀ p, I p → J (effect (call.outcome op) p)) :
    Triple I (bestEffort call op effect) (fun _ => J) (onRaise K) :=
  bestEffort_ends (fun _ => h) fun _ _ _ => trivial

/-- A change of the files leaves either the changed files or the old ones. -/
theorem changing_cases (call : Call Bytes) (op : Operation) (f : World Bytes → World Bytes)
    (outcome : OpOutcome) (p : Progress Bytes) :
    changing call op f outcome p = { p with world := f p.world } ∨
      changing call op f outcome p = p := by
  cases outcome with
  | done => exact Or.inl rfl
  | raised =>
      cases happ : call.applied op with
      | true => exact Or.inl (by simp only [changing, happ]; rfl)
      | false => exact Or.inr (by simp only [changing, happ]; rfl)
  | killed =>
      cases happ : call.applied op with
      | true => exact Or.inl (by simp only [changing, happ]; rfl)
      | false => exact Or.inr (by simp only [changing, happ]; rfl)

/-- A removal leaves something of that directory or nothing, and all the rest. -/
theorem removing_eq (call : Call Bytes) (op : Operation) (name : String) (outcome : OpOutcome)
    (p : Progress Bytes) :
    ∃ dir, removing call op name outcome p =
      { p with world := { p.world with releases := Function.update p.world.releases name dir } } := by
  cases outcome with
  | done => exact ⟨_, rfl⟩
  | raised => exact ⟨_, rfl⟩
  | killed => exact ⟨_, rfl⟩

theorem perform_removing {I : Progress Bytes → Prop} {K : Operation → Progress Bytes → Prop}
    {call : Call Bytes} {op : Operation} {name : String}
    (hf : ∀ p dir, I p → I { p with
      world := { p.world with releases := Function.update p.world.releases name dir } })
    (hK : ∀ p, I p → K op p) :
    Triple I (perform call op (removing call op name)) (fun _ => I) (onRaise K) := by
  have hkeep : ∀ outcome p, I p → I (removing call op name outcome p) := by
    intro outcome p hp
    obtain ⟨dir, h⟩ := removing_eq call op name outcome p
    rw [h]
    exact hf p dir hp
  exact perform_triple (fun _ p hp => hkeep .done p hp)
    (fun _ p hp => hK _ (hkeep .raised p hp))

/-- An assertion on the files that a change keeps is kept by the operation, and holds where it
raises. -/
theorem perform_changing {I : Progress Bytes → Prop} {K : Operation → Progress Bytes → Prop}
    {call : Call Bytes} {op : Operation} {f : World Bytes → World Bytes}
    (hf : ∀ p, I p → I { p with world := f p.world }) (hK : ∀ p, I p → K op p) :
    Triple I (perform call op (changing call op f)) (fun _ => I) (onRaise K) := by
  have hkeep : ∀ outcome p, I p → I (changing call op f outcome p) := by
    intro outcome p hp
    rcases changing_cases call op f outcome p with h | h
    · rw [h]
      exact hf p hp
    · rw [h]
      exact hp
  exact perform_triple (fun _ p hp => hkeep .done p hp)
    (fun _ p hp => hK _ (hkeep .raised p hp))

theorem perform_replacing {I : Progress Bytes → Prop}
    {K : Operation → Progress Bytes → Prop} {call : Call Bytes} {op : Operation}
    {f : World Bytes → World Bytes} (hf : ∀ p, I p → I { p with world := f p.world })
    (hK : ∀ p, I p → K op p) :
    Triple I (perform call op (replacing call op f)) (fun _ => I) (onRaise K) :=
  perform_triple (fun _ p hp => hf p hp) (fun _ p hp => hK p hp)

theorem perform_looking {I : Progress Bytes → Prop} {K : Operation → Progress Bytes → Prop}
    {call : Call Bytes} {op : Operation} (hK : ∀ p, I p → K op p) :
    Triple I (perform call op looking) (fun _ => I) (onRaise K) :=
  perform_triple (fun _ _ hp => hp) (fun _ p hp => hK p hp)

end

end MachineDeck.Deploy

import MachineDeck.ProgramTriple

/-!
# Programs that only delete

A program over a state in which values are looked up by keys, and which takes entries away and does
nothing else.  What it is asked to take away is a condition on a key and on the value that is there.

* `Prunes`, `Clears` — every entry is as it was, or it was asked for and is gone; every entry that
  was asked for is gone;
* `Deletes` — a program that returns has taken away exactly what was asked for, and a program that
  raises a part of it;
* `Deletes.bind`, `Deletes.forM`, `Deletes.when` — requests are put together as programs are.

Nothing here knows any particular program.
-/

namespace Deletions

open ProgramTriple

variable {ε σ κ υ α β γ : Type} {look : σ → κ → Option υ}

def Prunes (look : σ → κ → Option υ) (asked : κ → υ → Prop) (s s' : σ) : Prop :=
  ∀ k, look s' k = look s k ∨ ∃ v, look s k = some v ∧ asked k v ∧ look s' k = none

def Clears (look : σ → κ → Option υ) (asked : κ → υ → Prop) (s s' : σ) : Prop :=
  ∀ k v, look s k = some v → asked k v → look s' k = none

/-- From `s`, the program takes away what is asked for: all of it where it returns. -/
def Deletes (look : σ → κ → Option υ) (asked : κ → υ → Prop) (m : EStateM ε σ α) (s : σ) : Prop :=
  Ends (fun _ s' => Prunes look asked s s' ∧ Clears look asked s s')
    (fun _ s' => Prunes look asked s s') (m s)

/-! ### Requests in a row -/

section Requests

variable {asked asked' : κ → υ → Prop} {s s' s'' : σ} {m : EStateM ε σ α} {k : α → EStateM ε σ β}

theorem Prunes.refl (asked : κ → υ → Prop) (s : σ) : Prunes look asked s s := fun _ => .inl rfl

/-- What is gone stays gone. -/
theorem Prunes.gone (h : Prunes look asked s s') {key : κ} (hkey : look s key = none) :
    look s' key = none := by
  rcases h key with hsame | ⟨v, hv, -, -⟩
  · rw [hsame, hkey]
  · rw [hkey] at hv
    cases hv

theorem Prunes.mono (h : Prunes look asked s s') (hasked : ∀ k v, asked k v → asked' k v) :
    Prunes look asked' s s' := by
  intro key
  rcases h key with hsame | ⟨v, hv, hask, hgone⟩
  · exact .inl hsame
  · exact .inr ⟨v, hv, hasked key v hask, hgone⟩

theorem Prunes.trans (h : Prunes look asked s s') (h' : Prunes look asked' s' s'') :
    Prunes look (fun k v => asked k v ∨ asked' k v) s s'' := by
  have hlater : Prunes look (fun k v => asked k v ∨ asked' k v) s' s'' := h'.mono fun _ _ => .inr
  intro key
  rcases h key with hsame | ⟨v, hv, hask, hgone⟩
  · rw [← hsame]
    exact hlater key
  · exact .inr ⟨v, hv, .inl hask, h'.gone hgone⟩

theorem Clears.trans (h : Clears look asked s s') (hprunes : Prunes look asked s s')
    (h' : Clears look asked' s' s'') (hprunes' : Prunes look asked' s' s'') :
    Clears look (fun k v => asked k v ∨ asked' k v) s s'' := by
  intro key v hv hask
  rcases hask with hask | hask
  · exact hprunes'.gone (h key v hv hask)
  · rcases hprunes key with hsame | ⟨_, -, -, hgone⟩
    · exact h' key v (hsame.trans hv) hask
    · exact hprunes'.gone hgone

theorem Deletes.bind (hm : Deletes look asked m s) (hk : ∀ a s', Deletes look asked' (k a) s') :
    Deletes look (fun key v => asked key v ∨ asked' key v) (m >>= k) s := by
  unfold Deletes at hm ⊢
  rw [run_bind]
  cases hrun : m s with
  | ok a s' =>
    rw [hrun] at hm
    obtain ⟨hprunes, hclears⟩ := hm
    have hrest := hk a s'
    unfold Deletes at hrest
    show Ends _ _ (k a s')
    cases hrun' : k a s' with
    | ok b s'' =>
      rw [hrun'] at hrest
      exact ⟨hprunes.trans hrest.1, hclears.trans hprunes hrest.2 hrest.1⟩
    | error e s'' =>
      rw [hrun'] at hrest
      exact hprunes.trans hrest
  | error e s' =>
    rw [hrun] at hm
    exact hm.mono fun _ _ => .inl

/-- A request may be put in other words. -/
theorem Deletes.congr (h : Deletes look asked m s)
    (hasked : ∀ k v, look s k = some v → (asked k v ↔ asked' k v)) : Deletes look asked' m s := by
  have hprunes {s' : σ} (h : Prunes look asked s s') : Prunes look asked' s s' := by
    intro key
    rcases h key with hsame | ⟨v, hv, hask, hgone⟩
    · exact .inl hsame
    · exact .inr ⟨v, hv, (hasked key v hv).mp hask, hgone⟩
  unfold Deletes at h ⊢
  cases hrun : m s with
  | ok a s' =>
    rw [hrun] at h
    exact ⟨hprunes h.1, fun key v hv hask => h.2 key v hv ((hasked key v hv).mpr hask)⟩
  | error e s' =>
    rw [hrun] at h
    exact hprunes h

theorem Deletes.pure (a : α) : Deletes look (fun _ _ => False) (Pure.pure a : EStateM ε σ α) s :=
  ⟨Prunes.refl _ s, fun _ _ _ hask => hask.elim⟩

/-- A program that raises has taken away nothing of what it was asked for. -/
theorem Deletes.throw (e : ε) : Deletes look asked (throw e : EStateM ε σ α) s := Prunes.refl asked s

theorem Deletes.get_bind {k : σ → EStateM ε σ β} (h : Deletes look asked (k s) s) :
    Deletes look asked (MonadState.get >>= k) s := h

theorem Deletes.modify {f : σ → σ} (hkept : ∀ k, look (f s) k = look s k ∨
      ∃ v, look s k = some v ∧ asked k v ∧ look (f s) k = none)
    (hgone : ∀ k v, look s k = some v → asked k v → look (f s) k = none) :
    Deletes look asked (modify f : EStateM ε σ Unit) s := ⟨hkept, hgone⟩

/-- A program that is run under a condition. -/
theorem Deletes.when {c : Prop} [Decidable c] {m : EStateM ε σ Unit} (h : c → Deletes look asked m s) :
    Deletes look (fun key v => c ∧ asked key v) (if c then m else Pure.pure ()) s := by
  by_cases hc : c
  · rw [if_pos hc]
    exact (h hc).congr fun _ _ _ => (and_iff_right hc).symm
  · rw [if_neg hc]
    exact (Deletes.pure ()).congr fun _ _ _ => ⟨False.elim, fun hask => hc hask.1⟩

/-- One program after the other, each with its own request. -/
theorem Deletes.forM {each : γ → κ → υ → Prop} {f : γ → EStateM ε σ PUnit}
    (h : ∀ x s, Deletes look (each x) (f x) s) (xs : List γ) (s : σ) :
    Deletes look (fun key v => ∃ x ∈ xs, each x key v) (xs.forM f) s := by
  induction xs generalizing s with
  | nil => exact (Deletes.pure ()).congr fun _ _ _ => by simp
  | cons x xs ih =>
    have hboth := (h x s).bind fun _ s' => ih s'
    exact hboth.congr fun _ _ _ => by simp

/-! ### What a run leaves -/

/-- A run that returns has taken away what was asked for, and nothing else. -/
theorem Deletes.of_ok {a : α} (h : Deletes look asked m s) (hrun : m s = .ok a s') :
    (∀ key v, look s key = some v → asked key v → look s' key = none) ∧
      ∀ key, (∀ v, look s key = some v → ¬ asked key v) → look s' key = look s key := by
  unfold Deletes at h
  rw [hrun] at h
  refine ⟨h.2, fun key hkept => ?_⟩
  rcases h.1 key with hsame | ⟨v, hv, hask, -⟩
  · exact hsame
  · exact absurd hask (hkept v hv)

/-- However a run ends, what was not asked for is there. -/
theorem Deletes.kept (h : Deletes look asked m s) {key : κ}
    (hkept : ∀ v, look s key = some v → ¬ asked key v) :
    look (finalState (m s)) key = look s key := by
  have hprunes : Prunes look asked s (finalState (m s)) := by
    unfold Deletes at h
    cases hrun : m s with
    | ok a s' =>
      rw [hrun] at h
      exact h.1
    | error e s' =>
      rw [hrun] at h
      exact h
  rcases hprunes key with hsame | ⟨v, hv, hask, -⟩
  · exact hsame
  · exact absurd hask (hkept v hv)

end Requests

end Deletions

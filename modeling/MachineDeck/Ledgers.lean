import Mathlib.Data.List.Basic

/-!
# Ledgers

A ledger is a list of entries, each with a key of its own.  An entry is entered at the end and is
open; it is settled later, once, in its place.  Entries are never taken out or moved.

* `Settles`, `Grows` — an entry that is as it was or was open and is settled; a ledger after any
  number of entries and settlements;
* `Grows.refl`, `Grows.trans` — what happens in a row;
* `Grows.enter`, `Grows.settle` — the two operations;
* `Grows.mem`, `Grows.keys` — what is left of an earlier ledger.

Nothing here knows any particular entries.
-/

namespace Ledgers

variable {ε κ : Type} (key : ε → κ) (done : ε → Prop)

/-- The entry is as it was, or it was open and is settled under its key. -/
def Settles (entry entry' : ε) : Prop :=
  entry' = entry ∨ ¬ done entry ∧ done entry' ∧ key entry' = key entry

/-- Every entry is in its place, settled or as it was, and new ones stand behind. -/
inductive Grows : List ε → List ε → Prop where
  | new (entries : List ε) : Grows [] entries
  | cons {entry entry' : ε} {rest rest' : List ε} (first : Settles key done entry entry')
      (behind : Grows rest rest') : Grows (entry :: rest) (entry' :: rest')

variable {key done} {entries entries' entries'' : List ε}

theorem Settles.key_eq {entry entry' : ε} (h : Settles key done entry entry') :
    key entry' = key entry := by
  rcases h with rfl | ⟨-, -, hkey⟩
  · rfl
  · exact hkey

theorem Settles.trans {entry entry' entry'' : ε} (h : Settles key done entry entry')
    (h' : Settles key done entry' entry'') : Settles key done entry entry'' := by
  rcases h with rfl | ⟨hopen, hdone, hkey⟩
  · exact h'
  · rcases h' with rfl | ⟨hopen', -, -⟩
    · exact Or.inr ⟨hopen, hdone, hkey⟩
    · exact absurd hdone hopen'

/-- A settled entry stays as it is. -/
theorem Settles.of_done {entry entry' : ε} (h : Settles key done entry entry')
    (hdone : done entry) : entry' = entry := by
  rcases h with h | ⟨hopen, -, -⟩
  · exact h
  · exact absurd hdone hopen

/-- Entries with more entries behind them. -/
theorem Grows.append (entries new : List ε) : Grows key done entries (entries ++ new) := by
  induction entries with
  | nil => exact Grows.new new
  | cons entry rest ih => exact Grows.cons (Or.inl rfl) ih

theorem Grows.refl (entries : List ε) : Grows key done entries entries := by
  have h := @Grows.append ε κ key done entries []
  rwa [List.append_nil] at h

theorem Grows.trans (h : Grows key done entries entries')
    (h' : Grows key done entries' entries'') : Grows key done entries entries'' := by
  induction h generalizing entries'' with
  | new entries => exact Grows.new entries''
  | cons first behind ih =>
    cases h' with
    | cons first' behind' => exact Grows.cons (first.trans first') (ih behind')

/-! ### The operations -/

theorem Grows.enter (entries : List ε) (entry : ε) : Grows key done entries (entries ++ [entry]) :=
  Grows.append entries [entry]

/-- Settling the entry of a key, where it is open. -/
theorem Grows.settle [DecidableEq κ] {k : κ} {f : ε → ε}
    (hf : ∀ entry ∈ entries, key entry = k → ¬ done entry ∧ done (f entry) ∧ key (f entry) = k) :
    Grows key done entries (entries.map fun entry => if key entry = k then f entry else entry) := by
  induction entries with
  | nil => exact Grows.new _
  | cons entry rest ih =>
    refine Grows.cons ?_ (ih fun e he => hf e (List.mem_cons_of_mem _ he))
    show Settles key done entry (if key entry = k then f entry else entry)
    by_cases hkey : key entry = k
    · obtain ⟨hopen, hdone, hkey'⟩ := hf entry List.mem_cons_self hkey
      rw [if_pos hkey]
      exact Or.inr ⟨hopen, hdone, hkey'.trans hkey.symm⟩
    · rw [if_neg hkey]
      exact Or.inl rfl

/-! ### What is left -/

theorem Grows.mem (h : Grows key done entries entries') {entry : ε} (hentry : entry ∈ entries) :
    ∃ entry' ∈ entries', Settles key done entry entry' := by
  induction h with
  | new => cases hentry
  | @cons first first' rest rest' hfirst _ ih =>
    rcases List.mem_cons.mp hentry with rfl | hrest
    · exact ⟨first', List.mem_cons_self, hfirst⟩
    · obtain ⟨entry', hmem, hsettles⟩ := ih hrest
      exact ⟨entry', List.mem_cons_of_mem _ hmem, hsettles⟩

/-- A settled entry of an earlier ledger is in the later one. -/
theorem Grows.mem_of_done (h : Grows key done entries entries') {entry : ε}
    (hentry : entry ∈ entries) (hdone : done entry) : entry ∈ entries' := by
  obtain ⟨entry', hmem, hsettles⟩ := h.mem hentry
  rwa [hsettles.of_done hdone] at hmem

/-- The keys of an earlier ledger are the first keys of the later one. -/
theorem Grows.keys (h : Grows key done entries entries') :
    entries.map key <+: entries'.map key := by
  induction h with
  | new => exact List.nil_prefix
  | cons first _ ih =>
    rw [List.map_cons, List.map_cons, first.key_eq]
    exact List.prefix_cons_inj _ |>.mpr ih

end Ledgers

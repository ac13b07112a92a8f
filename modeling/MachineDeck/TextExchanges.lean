import MachineDeck.RegexText
import MachineDeck.Utf8Cut
import Mathlib.Algebra.GroupWithZero.Nat
import Mathlib.Algebra.Ring.Int.Defs

/-!
# What replacing does to the size of a text

* `weigh` — the size of a text where each character has a weight, such as its bytes in UTF-8;
* `Exchange`, `growth` — a piece with what is put in its place, and the weight that this adds;
* `replacedBy`, `substituted` — the exchanges of a replacement, and of a substitution;
* `weigh_replaceAll`, `weigh_sub` — the outcome is as much heavier.
-/

namespace TextExchanges

open MarkedText RegexText Utf8Text

/-! ### Weights -/

def weigh (w : Char → ℕ) (text : List Char) : ℕ := (text.map w).sum

theorem byteSize_eq (text : List Char) : byteSize text = weigh Char.utf8Size text := rfl

@[simp] theorem weigh_nil (w : Char → ℕ) : weigh w [] = 0 := rfl

theorem weigh_cons (w : Char → ℕ) (c : Char) (text : List Char) :
    weigh w (c :: text) = w c + weigh w text := by
  rw [weigh, List.map_cons, List.sum_cons]
  rfl

theorem weigh_append (w : Char → ℕ) (text text' : List Char) :
    weigh w (text ++ text') = weigh w text + weigh w text' := by
  rw [weigh, List.map_append, List.sum_append]
  rfl

/-- A piece of a text, and what is put in its place. -/
abbrev Exchange := List Char × List Char

/-- The weight that the exchanges add, in all. -/
def growth (w : Char → ℕ) (exchanges : List Exchange) : ℤ :=
  (exchanges.map fun e => (weigh w e.2 : ℤ) - weigh w e.1).sum

variable {w : Char → ℕ}

@[simp] theorem growth_nil : growth w [] = 0 := rfl

@[simp] theorem growth_cons (e : Exchange) (exchanges : List Exchange) :
    growth w (e :: exchanges) = (weigh w e.2 : ℤ) - weigh w e.1 + growth w exchanges := by
  rw [growth, List.map_cons, List.sum_cons]
  rfl

@[simp] theorem growth_append (exchanges exchanges' : List Exchange) :
    growth w (exchanges ++ exchanges') = growth w exchanges + growth w exchanges' := by
  rw [growth, List.map_append, List.sum_append]
  rfl

/-! ### Replacements -/

/-- How often a text is replaced; the first so many characters belong to an occurrence already. -/
def occurrencesFrom (old : List Char) : ℕ → List Char → ℕ
  | _, [] => 0
  | n + 1, _ :: rest => occurrencesFrom old n rest
  | 0, c :: rest =>
    if old.isPrefixOf (c :: rest) then occurrencesFrom old (old.length - 1) rest + 1
    else occurrencesFrom old 0 rest

/-- The exchanges of `text.replace(old, new)`. -/
def replacedBy (old new text : List Char) : List Exchange :=
  List.replicate (occurrencesFrom old 0 text) (old, new)

theorem occurrencesFrom_skip (old : List Char) (n : ℕ) (text : List Char) :
    occurrencesFrom old n text = occurrencesFrom old 0 (text.drop n) := by
  induction n generalizing text with
  | zero => rw [List.drop_zero]
  | succ n ih =>
    cases text with
    | nil => rfl
    | cons c text => exact ih text

theorem occurrences_append {old : List Char} (hold : old ≠ []) (rest : List Char) :
    occurrencesFrom old 0 (old ++ rest) = occurrencesFrom old 0 rest + 1 := by
  cases old with
  | nil => exact absurd rfl hold
  | cons c old =>
    have hstart : (c :: old).isPrefixOf (c :: (old ++ rest)) = true :=
      List.isPrefixOf_iff_prefix.mpr (List.prefix_append (c :: old) rest)
    rw [List.cons_append, occurrencesFrom, if_pos hstart, occurrencesFrom_skip, List.length_cons,
      Nat.add_sub_cancel, List.drop_left]

theorem occurrences_cons {old : List Char} {c : Char} {rest : List Char}
    (h : ¬ old.IsPrefix (c :: rest)) :
    occurrencesFrom old 0 (c :: rest) = occurrencesFrom old 0 rest := by
  rw [occurrencesFrom, if_neg fun hstart => h (List.isPrefixOf_iff_prefix.mp hstart)]

/-- **A replacement makes a text heavier** by what its exchanges add. -/
theorem weigh_replaceAll {old : List Char} (hold : old ≠ []) (new text : List Char) :
    (weigh w (replaceAll old new text) : ℤ) = weigh w text + growth w (replacedBy old new text) := by
  induction text using replace_induction hold with
  | nil => rfl
  | found rest ih =>
    rw [replaceAll_append hold, replacedBy, occurrences_append hold, List.replicate_succ, growth_cons,
      weigh_append, weigh_append, ← replacedBy]
    push_cast
    omega
  | kept c rest hstart ih =>
    rw [replaceAll_cons hstart, replacedBy, occurrences_cons hstart, weigh_cons,
      weigh_cons w c rest, ← replacedBy]
    push_cast
    omega

/-! ### Substitutions -/

section Substitutions

variable (isWord : Char → Bool) (p : Pattern) (replace : Place → List Char → List Char)

/-- The exchanges of `p.sub(replace, text)`. -/
def substituted (text : List Char) : List Exchange :=
  (matchesOf isWord p text).map fun m => (m.2, replace m.1 m.2)

/-- **A substitution makes a text heavier** by what its exchanges add. -/
theorem weigh_sub (text : List Char) :
    (weigh w (sub isWord p replace text) : ℤ) =
      weigh w text + growth w (substituted isWord p replace text) := by
  have hwithin (n : ℕ) (before text : List Char) :
      (weigh w (subWithin isWord p replace n before text) : ℤ) = weigh w text +
        growth w ((matchesWithin isWord p n before text).map fun m => (m.2, replace m.1 m.2)) := by
    induction n generalizing before text with
    | zero => simp [subWithin, matchesWithin]
    | succ n ih =>
      cases text with
      | nil => simp [subWithin, matchesWithin]
      | cons c rest =>
        rw [subWithin, matchesWithin]
        cases hrun : run isWord p ⟨before, c :: rest, []⟩ with
        | nil =>
          simp only
          rw [weigh_cons, weigh_cons w c rest]
          push_cast
          rw [ih]
          omega
        | cons found others =>
          simp only
          by_cases hshorter : found.rest.length ≤ rest.length
          · have hmem : found ∈ run isWord p ⟨before, c :: rest, []⟩ := hrun ▸ List.mem_cons_self
            have happend := until_append hmem
            simp only at happend
            rw [if_pos hshorter, if_pos hshorter, List.map_cons, growth_cons, weigh_append]
            have hsize := congrArg (weigh w) happend
            rw [weigh_append] at hsize
            push_cast
            rw [ih, hsize]
            push_cast
            omega
          · rw [if_neg hshorter, if_neg hshorter, weigh_cons,
              weigh_cons w c rest]
            push_cast
            rw [ih]
            omega
  exact hwithin _ _ _

end Substitutions

end TextExchanges

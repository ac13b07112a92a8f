import Mathlib.Data.List.Basic
import Mathlib.Data.List.Forall2

/-!
# Lists without repeats

* `firsts` — a list without what occurred before: `dict.fromkeys`;
* `foldl_addNew`, `foldlM_addNew` — a loop that appends what is not there yet computes it, also
  one that may raise.
-/

namespace FirstOccurrences

variable {α : Type} [DecidableEq α]

/-- What is new in a list behind what has been seen. -/
def newOnes (seen : List α) : List α → List α
  | [] => []
  | a :: l => if a ∈ seen then newOnes seen l else a :: newOnes (seen ++ [a]) l

def firsts (l : List α) : List α := newOnes [] l

def addNew (seen : List α) (a : α) : List α := if a ∈ seen then seen else seen ++ [a]

theorem foldl_newOnes (l seen : List α) : l.foldl addNew seen = seen ++ newOnes seen l := by
  induction l generalizing seen with
  | nil => simp [newOnes]
  | cons a l ih =>
    rw [List.foldl_cons, ih, newOnes, addNew]
    by_cases ha : a ∈ seen
    · rw [if_pos ha, if_pos ha]
    · rw [if_neg ha, if_neg ha, List.append_assoc, List.singleton_append]

/-- The loop that appends what is not there yet. -/
theorem foldl_addNew (l : List α) : l.foldl addNew [] = firsts l := foldl_newOnes l []

theorem foldlM_addNew {ε β : Type} {step : List α → β → Except ε (List α)} {l : List β}
    {found : List α}
    (h : List.Forall₂ (fun b a => ∀ seen, step seen b = .ok (addNew seen a)) l found) :
    l.foldlM step [] = .ok (firsts found) := by
  rw [← foldl_addNew]
  generalize ([] : List α) = seen
  induction h generalizing seen with
  | nil => rfl
  | cons hstep _ ih =>
    rw [List.foldlM_cons, hstep seen]
    exact ih (addNew seen _)

theorem newOnes_sublist (l seen : List α) : (newOnes seen l).Sublist l := by
  induction l generalizing seen with
  | nil => exact List.Sublist.refl []
  | cons a l ih =>
    rw [newOnes]
    split_ifs
    · exact (ih seen).cons a
    · exact (ih (seen ++ [a])).cons_cons a

theorem firsts_sublist (l : List α) : (firsts l).Sublist l := newOnes_sublist l []

theorem mem_newOnes {a : α} (l seen : List α) : a ∈ seen ∨ a ∈ newOnes seen l ↔ a ∈ seen ∨ a ∈ l := by
  induction l generalizing seen with
  | nil => rfl
  | cons b l ih =>
    rw [newOnes]
    by_cases hb : b ∈ seen
    · rw [if_pos hb, ih seen, List.mem_cons]
      constructor
      · rintro (h | h)
        · exact .inl h
        · exact .inr (.inr h)
      · rintro (h | rfl | h)
        · exact .inl h
        · exact .inl hb
        · exact .inr h
    · have hrest := ih (seen ++ [b])
      rw [List.mem_append, List.mem_singleton, or_assoc, or_assoc] at hrest
      rw [if_neg hb, List.mem_cons, List.mem_cons]
      exact hrest

theorem mem_firsts {a : α} {l : List α} : a ∈ firsts l ↔ a ∈ l := by
  have hmem := mem_newOnes (a := a) l []
  simp only [List.not_mem_nil, false_or] at hmem
  exact hmem

theorem newOnes_of_nodup {l seen : List α} (h : l.Nodup) (hseen : ∀ a ∈ l, a ∉ seen) :
    newOnes seen l = l := by
  induction l generalizing seen with
  | nil => rfl
  | cons a l ih =>
    obtain ⟨ha, hl⟩ := List.nodup_cons.mp h
    rw [newOnes, if_neg (hseen a List.mem_cons_self)]
    congr 1
    apply ih hl
    intro b hb hmem
    rcases List.mem_append.mp hmem with hmem | hmem
    · exact hseen b (List.mem_cons_of_mem a hb) hmem
    · rw [List.mem_singleton.mp hmem] at hb
      exact ha hb

theorem firsts_of_nodup {l : List α} (h : l.Nodup) : firsts l = l :=
  newOnes_of_nodup h (by simp)

theorem nodup_newOnes (l seen : List α) :
    (newOnes seen l).Nodup ∧ ∀ a ∈ newOnes seen l, a ∉ seen := by
  induction l generalizing seen with
  | nil => exact ⟨List.nodup_nil, by simp [newOnes]⟩
  | cons a l ih =>
    rw [newOnes]
    by_cases ha : a ∈ seen
    · rw [if_pos ha]
      exact ih seen
    · obtain ⟨hnodup, hnew⟩ := ih (seen ++ [a])
      rw [if_neg ha]
      refine ⟨List.nodup_cons.mpr ⟨fun h => hnew a h (by simp), hnodup⟩, ?_⟩
      intro b hb hseen
      rcases List.mem_cons.mp hb with rfl | hb
      · exact ha hseen
      · exact hnew b hb (List.mem_append_left _ hseen)

theorem nodup_firsts (l : List α) : (firsts l).Nodup := (nodup_newOnes l []).1

/-- A mapped list that comes out as it went in has kept each of its elements. -/
theorem map_eq_self {f : α → α} {l : List α} (h : firsts (l.map f) = l) : ∀ a ∈ l, f a = a := by
  have hsublist := firsts_sublist (l.map f)
  rw [h] at hsublist
  have hwhole : l.map f = l.map id := by
    rw [List.map_id]
    exact (hsublist.eq_of_length_le (Nat.le_of_eq (List.length_map f))).symm
  exact List.map_inj_left.mp hwhole

end FirstOccurrences

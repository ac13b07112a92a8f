import MachineDeck.LineText
import Mathlib.Data.List.Basic
import Mathlib.Tactic.SplitIfs

/-!
# Texts in which pieces have been exchanged for markers

* `Spliced word text out` — `out` is `text` with pieces exchanged for markers that share no
  character with `word`; it composes (`Spliced.append`, `Spliced.trans`);
* `Spliced.isInfix` — such an exchange does not bring `word` about;
* `replaceAll` — Python's `str.replace`; `replaceAll_spliced`, and `not_isInfix_replaceAll` — a text
  that has been replaced is gone;
* `OnlyAt`, `replaceAll_once` — a text that occurs at one place is replaced there.
-/

namespace MarkedText

open scoped LineText

/-- A marker is some text without the characters of `word`. -/
def Foreign (word marker : List Char) : Prop := marker ≠ [] ∧ ∀ c ∈ marker, c ∉ word

instance (word marker : List Char) : Decidable (Foreign word marker) :=
  inferInstanceAs (Decidable (_ ∧ _))

inductive Spliced (word : List Char) : List Char → List Char → Prop where
  | nil : Spliced word [] []
  | keep (c : Char) {text out : List Char} (h : Spliced word text out) :
      Spliced word (c :: text) (c :: out)
  | mark (piece : List Char) {marker : List Char} (hmarker : Foreign word marker)
      {text out : List Char} (h : Spliced word text out) :
      Spliced word (piece ++ text) (marker ++ out)

section Spliced

variable {word text out : List Char}

theorem Spliced.refl (text : List Char) : Spliced word text text := by
  induction text with
  | nil => exact .nil
  | cons c text ih => exact .keep c ih

theorem Spliced.append {text' out' : List Char} (h : Spliced word text out)
    (h' : Spliced word text' out') : Spliced word (text ++ text') (out ++ out') := by
  induction h with
  | nil => exact h'
  | keep c _ ih => exact .keep c ih
  | mark piece hmarker _ ih =>
    rw [List.append_assoc, List.append_assoc]
    exact .mark piece hmarker ih

theorem Spliced.marked (piece : List Char) {marker : List Char} (hmarker : Foreign word marker) :
    Spliced word piece marker := by
  have hmark := Spliced.mark piece hmarker .nil
  rwa [List.append_nil, List.append_nil] at hmark

/-- A beginning kept, and what is behind it exchanged. -/
theorem Spliced.behind (front : List Char) (h : Spliced word text out) :
    Spliced word (front ++ text) (front ++ out) :=
  (Spliced.refl front).append h

/-! ### One exchange after another -/

/-- What the first character that comes out was. -/
theorem Spliced.uncons {c : Char} (h : Spliced word text (c :: out)) :
    ∃ piece rest, text = piece ++ rest ∧ Spliced word rest out ∧ (piece = [c] ∨ c ∉ word) := by
  generalize houts : c :: out = outs at h
  cases h with
  | nil => cases houts
  | keep d h =>
    obtain ⟨rfl, rfl⟩ := List.cons.inj houts
    exact ⟨[c], _, rfl, h, .inl rfl⟩
  | mark piece hmarker h =>
    rename_i marker rest kept
    cases marker with
    | nil => exact absurd rfl hmarker.1
    | cons d marker =>
      obtain ⟨rfl, rfl⟩ := List.cons.inj houts
      refine ⟨piece, rest, rfl, ?_, .inr (hmarker.2 c List.mem_cons_self)⟩
      -- what is left of the marker is put in between
      rcases eq_or_ne marker [] with rfl | hne
      · exact h
      · exact .mark [] ⟨hne, fun d hd => hmarker.2 d (List.mem_cons_of_mem _ hd)⟩ h

theorem Spliced.of_nil (h : Spliced word text []) : text = [] := by
  generalize houts : ([] : List Char) = outs at h
  cases h with
  | nil => rfl
  | keep c h => cases houts
  | mark piece hmarker h => exact absurd (List.append_eq_nil_iff.mp houts.symm).1 hmarker.1

theorem Spliced.split {first second : List Char} (h : Spliced word text (first ++ second)) :
    ∃ front back, text = front ++ back ∧ Spliced word back second := by
  induction first generalizing text with
  | nil => exact ⟨[], text, rfl, h⟩
  | cons c first ih =>
    obtain ⟨piece, rest, rfl, hrest, -⟩ := h.uncons
    obtain ⟨front, back, rfl, hback⟩ := ih hrest
    exact ⟨piece ++ front, back, by rw [List.append_assoc], hback⟩

theorem Spliced.trans {last : List Char} (h : Spliced word text out) (h' : Spliced word out last) :
    Spliced word text last := by
  induction h' generalizing text with
  | nil => exact h
  | keep c _ ih =>
    obtain ⟨piece, rest, rfl, hrest, hc⟩ := h.uncons
    rcases hc with rfl | hc
    · exact .keep c (ih hrest)
    · have hmarker : Foreign word [c] := ⟨List.cons_ne_nil c [], by simpa using hc⟩
      exact .mark piece hmarker (ih hrest)
  | mark piece hmarker _ ih =>
    obtain ⟨front, back, rfl, hback⟩ := h.split
    exact .mark front hmarker (ih hback)

/-! ### What was not there does not come out -/

/-- Characters of `word` at the beginning of what comes out were there before. -/
theorem Spliced.isPrefix {piece : List Char} (h : Spliced word text out)
    (hpiece : ∀ c ∈ piece, c ∈ word) (hout : piece.IsPrefix out) : piece.IsPrefix text := by
  induction piece generalizing text out with
  | nil => exact List.nil_prefix
  | cons c piece ih =>
    obtain ⟨tail, rfl⟩ := hout
    obtain ⟨front, rest, rfl, hrest, hc⟩ := h.uncons
    rcases hc with rfl | hc
    · exact List.cons_prefix_cons.mpr ⟨rfl, ih hrest
        (fun d hd => hpiece d (List.mem_cons_of_mem _ hd)) (List.prefix_append piece tail)⟩
    · exact absurd (hpiece c List.mem_cons_self) hc

/-- **`word` comes out** only where it was before. -/
theorem Spliced.isInfix (h : Spliced word text out) (hout : word.IsInfix out) :
    word.IsInfix text := by
  obtain ⟨before, behind, rfl⟩ := hout
  rw [List.append_assoc] at h
  obtain ⟨front, back, rfl, hback⟩ := h.split
  obtain ⟨tail, rfl⟩ := hback.isPrefix (fun _ hc => hc) (List.prefix_append word behind)
  exact ⟨front, tail, by rw [List.append_assoc]⟩

end Spliced

/-! ### Replacing a text -/

/-- The first so many characters belong to a text that has been replaced. -/
def replaceFrom (old new : List Char) : ℕ → List Char → List Char
  | _, [] => []
  | n + 1, _ :: rest => replaceFrom old new n rest
  | 0, c :: rest =>
    if old.isPrefixOf (c :: rest) then new ++ replaceFrom old new (old.length - 1) rest
    else c :: replaceFrom old new 0 rest

/-- `text.replace(old, new)`, for a text that is not empty. -/
def replaceAll (old new text : List Char) : List Char := replaceFrom old new 0 text

theorem replaceFrom_skip (old new : List Char) (n : ℕ) (text : List Char) :
    replaceFrom old new n text = replaceFrom old new 0 (text.drop n) := by
  induction n generalizing text with
  | zero => rw [List.drop_zero]
  | succ n ih =>
    cases text with
    | nil => rfl
    | cons c text => exact ih text

/-- Where the text stands, it is exchanged for the new one. -/
theorem replaceAll_append {old : List Char} (hold : old ≠ []) (new rest : List Char) :
    replaceAll old new (old ++ rest) = new ++ replaceAll old new rest := by
  cases old with
  | nil => exact absurd rfl hold
  | cons c old =>
    have hstart : (c :: old).isPrefixOf (c :: (old ++ rest)) = true :=
      List.isPrefixOf_iff_prefix.mpr (List.prefix_append (c :: old) rest)
    rw [replaceAll, List.cons_append, replaceFrom, if_pos hstart, replaceFrom_skip,
      List.length_cons, Nat.add_sub_cancel, List.drop_left, replaceAll]

/-- Elsewhere the text is kept. -/
theorem replaceAll_cons {old : List Char} {c : Char} {rest : List Char}
    (h : ¬ old.IsPrefix (c :: rest)) (new : List Char) :
    replaceAll old new (c :: rest) = c :: replaceAll old new rest := by
  rw [replaceAll, replaceFrom, if_neg fun hstart => h (List.isPrefixOf_iff_prefix.mp hstart),
    replaceAll]

/-- Cases as the replacement goes along. -/
theorem replace_induction {old : List Char} (hold : old ≠ []) {motive : List Char → Prop}
    (nil : motive [])
    (found : ∀ rest, motive rest → motive (old ++ rest))
    (kept : ∀ c rest, ¬ old.IsPrefix (c :: rest) → motive rest → motive (c :: rest))
    (text : List Char) : motive text := by
  induction hlength : text.length using Nat.strongRecOn generalizing text with
  | ind n ih =>
    by_cases hstart : old.IsPrefix text
    · obtain ⟨rest, rfl⟩ := hstart
      have hpositive : 0 < old.length := List.length_pos_of_ne_nil hold
      rw [List.length_append] at hlength
      exact found rest (ih rest.length (by omega) rest rfl)
    · cases text with
      | nil => exact nil
      | cons c rest =>
        rw [List.length_cons] at hlength
        exact kept c rest hstart (ih rest.length (by omega) rest rfl)

theorem replaceAll_spliced {word old new : List Char} (hold : old ≠ []) (hnew : Foreign word new)
    (text : List Char) : Spliced word text (replaceAll old new text) := by
  induction text using replace_induction hold with
  | nil => exact .nil
  | found rest ih =>
    rw [replaceAll_append hold]
    exact .mark old hnew ih
  | kept c rest hstart ih =>
    rw [replaceAll_cons hstart]
    exact .keep c ih

/-- The text that is replaced stands nowhere in the outcome. -/
theorem not_isInfix_replaceAll {old new : List Char} (hold : old ≠ []) (hnew : Foreign old new)
    (text : List Char) : ¬ old.IsInfix (replaceAll old new text) := by
  induction text using replace_induction hold with
  | nil => exact fun h => hold (List.infix_nil.mp h)
  | found rest ih =>
    rw [replaceAll_append hold]
    intro hoccurs
    -- an occurrence over the marker would have one of its characters
    have hmarker : ∀ marker : List Char, (∀ c ∈ marker, c ∉ old) →
        ¬ old.IsInfix (marker ++ replaceAll old new rest) := by
      intro marker hforeign
      induction marker with
      | nil => exact ih
      | cons c marker ihm =>
        rw [List.cons_append, List.infix_cons_iff]
        rintro (hstart | hlater)
        · cases old with
          | nil => exact hold rfl
          | cons d old =>
            obtain ⟨rfl, -⟩ := List.cons_prefix_cons.mp hstart
            exact hforeign d List.mem_cons_self List.mem_cons_self
        · exact ihm (fun d hd => hforeign d (List.mem_cons_of_mem _ hd)) hlater
    exact hmarker new hnew.2 hoccurs
  | kept c rest hstart ih =>
    rw [replaceAll_cons hstart, List.infix_cons_iff]
    rintro (hfirst | hlater)
    · -- at the beginning it would have been there before
      have hsplice : Spliced old (c :: rest) (c :: replaceAll old new rest) :=
        .keep c (replaceAll_spliced hold hnew rest)
      exact hstart (hsplice.isPrefix (fun _ hd => hd) hfirst)
    · exact ih hlater

/-! ### Texts that occur nowhere, or at one place -/

theorem replaceAll_absent {old text : List Char} (h : ¬ old.IsInfix text) (new : List Char) :
    replaceAll old new text = text := by
  induction text with
  | nil => rfl
  | cons c text ih =>
    rw [List.infix_cons_iff, not_or] at h
    rw [replaceAll_cons h.1, ih h.2]

/-- A text occurs at that place or nowhere. -/
def OnlyAt (needle : List Char) (n : ℕ) (text : List Char) : Prop :=
  ∀ i < text.length, needle.IsPrefix (text.drop i) → i = n

instance (needle : List Char) (n : ℕ) (text : List Char) : Decidable (OnlyAt needle n text) :=
  inferInstanceAs (Decidable (∀ i < text.length, _ → _))

theorem OnlyAt.of_isInfix {needle text : List Char} {n : ℕ} (hneedle : needle ≠ [])
    (h : OnlyAt needle n text) (hoccurs : needle.IsInfix text) : needle.IsPrefix (text.drop n) := by
  obtain ⟨before, behind, rfl⟩ := hoccurs
  have hdrop : (before ++ needle ++ behind).drop before.length = needle ++ behind := by
    rw [List.append_assoc, List.drop_left]
  have hlength : before.length < (before ++ needle ++ behind).length := by
    have hpositive := List.length_pos_of_ne_nil hneedle
    rw [List.length_append, List.length_append]
    omega
  have hplace := h before.length hlength (hdrop ▸ List.prefix_append needle behind)
  rw [← hplace, hdrop]
  exact List.prefix_append needle behind

/-- Behind characters of another kind a text can only stand at once. -/
theorem onlyAt_replicate {needle put : List Char} {c : Char} (hneedle : needle ≠ []) (hc : c ∉ needle)
    (hlength : put.length ≤ needle.length) (n : ℕ) :
    OnlyAt needle n (List.replicate n c ++ put) := by
  intro i _ hstart
  rcases Nat.lt_trichotomy i n with hi | hi | hi
  · obtain ⟨k, rfl⟩ := Nat.exists_eq_add_of_lt hi
    have hdrop : (List.replicate (i + k + 1) c ++ put).drop i =
        c :: (List.replicate k c ++ put) := by
      rw [List.drop_append_of_le_length (by rw [List.length_replicate]; omega),
        List.drop_replicate]
      have hleft : i + k + 1 - i = k + 1 := by omega
      rw [hleft, List.replicate_succ, List.cons_append]
    rw [hdrop] at hstart
    cases needle with
    | nil => exact absurd rfl hneedle
    | cons d needle =>
      obtain ⟨rfl, -⟩ := List.cons_prefix_cons.mp hstart
      exact absurd List.mem_cons_self hc
  · exact hi
  · have hshort := hstart.length_le
    have hpositive := List.length_pos_of_ne_nil hneedle
    rw [List.length_drop, List.length_append, List.length_replicate] at hshort
    omega

/-- Nor is there one that is longer than what stands behind them. -/
theorem length_le_of_isInfix_replicate {needle put : List Char} {c : Char} {n : ℕ}
    (hc : c ∉ needle) (h : needle.IsInfix (List.replicate n c ++ put)) :
    needle.length ≤ put.length := by
  have hkept := (h.sublist.filter (· != c)).length_le
  have hneedle : needle.filter (· != c) = needle := by
    apply List.filter_eq_self.mpr
    intro d hd
    exact bne_iff_ne.mpr fun hsame => hc (hsame ▸ hd)
  have hreplicate : (List.replicate n c).filter (· != c) = [] :=
    List.filter_replicate_of_neg (by simp)
  rw [hneedle, List.filter_append, hreplicate, List.nil_append] at hkept
  exact Nat.le_trans hkept (List.length_filter_le _ _)

theorem replaceAll_once {old : List Char} (hold : old ≠ []) {front rest : List Char}
    (h : ∀ i < front.length, ¬ old.IsPrefix ((front ++ old ++ rest).drop i)) (new : List Char) :
    replaceAll old new (front ++ old ++ rest) = front ++ new ++ replaceAll old new rest := by
  induction front with
  | nil => exact replaceAll_append hold new rest
  | cons c front ih =>
    have hfirst : ¬ old.IsPrefix (c :: (front ++ old ++ rest)) := h 0 (Nat.succ_pos _)
    have hlater := ih fun i hi => h (i + 1) (Nat.succ_lt_succ hi)
    rw [List.cons_append, List.cons_append, replaceAll_cons hfirst, hlater]
    rfl

end MarkedText

import MachineDeck.JsonText
import Mathlib.Data.List.Infix

/-!
# Where a JSON text ends

What the reader of JSON makes of a text with more text behind it.

* `fence`, `readMagnitude_fence` — a character no number goes on with ends every number;
* `readScalar_append` — a scalar is read the same way whatever stands behind its fence;
* `Machine.step_append` — and so is every token;
* `loads_append` — behind the text of an array or an object only blanks may follow;
* `loads_cut` — the text of an array or an object, cut where no token ends, is no JSON.
-/

namespace JsonText

/-! ### Numbers -/

/-- A character no number goes on with. -/
def fence (c : Char) : Bool :=
  !c.isDigit && c != '.' && c != 'e' && c != 'E' && c != '+' && c != '-'

theorem fence_iff {c : Char} : fence c = true ↔
    c.isDigit = false ∧ c ≠ '.' ∧ c ≠ 'e' ∧ c ≠ 'E' ∧ c ≠ '+' ∧ c ≠ '-' := by
  simp [fence, and_assoc]

/-- What was read, with more text behind the rest. -/
def behind (more : List Char) (read : α × List Char) : α × List Char := (read.1, read.2 ++ more)

section Fenced

variable {b : Char} (hb : fence b = true) (more : List Char)

include hb

theorem spanDigits_fence (text : List Char) :
    spanDigits (text ++ b :: more) = behind (b :: more) (spanDigits text) := by
  have hdigit := (fence_iff.mp hb).1
  induction text with
  | nil => simp [spanDigits, behind, hdigit]
  | cons c cs ih =>
      cases hc : c.isDigit with
      | false => simp [spanDigits, behind, hc]
      | true =>
          simp only [spanDigits, behind, Prod.mk.injEq] at ih
          simp [spanDigits, behind, hc, ih.1, ih.2]

theorem readWhole_fence (text : List Char) :
    readWhole (text ++ b :: more) = (readWhole text).map (behind (b :: more)) := by
  have hdigit := (fence_iff.mp hb).1
  cases text with
  | nil =>
      have hzero : b ≠ '0' := fun h => by rw [h] at hdigit; cases hdigit
      rw [List.nil_append, readWhole, if_neg (by simp [hdigit])]
      · rfl
      · exact hzero
  | cons c cs =>
      by_cases hzero : c = '0'
      · rw [hzero]
        rfl
      · have hspan := spanDigits_fence hb more (c :: cs)
        rw [List.cons_append] at hspan ⊢
        rw [readWhole, readWhole, hspan]
        · split_ifs <;> rfl
        · exact hzero
        · exact hzero

theorem readFraction_fence (text : List Char) :
    readFraction (text ++ b :: more) = behind (b :: more) (readFraction text) := by
  obtain ⟨hdigit, hpoint, -⟩ := fence_iff.mp hb
  cases text with
  | nil =>
      rw [List.nil_append, readFraction]
      · rfl
      · intro _ _ h
        exact hpoint (List.cons.inj h).1
  | cons c cs =>
      by_cases hc : c = '.'
      · cases cs with
        | nil =>
            show readFraction (c :: b :: more) = behind (b :: more) (readFraction [c])
            rw [hc, readFraction, if_neg (by simp [hdigit])]
            rfl
        | cons d ds =>
            show readFraction (c :: d :: (ds ++ b :: more)) = _
            rw [hc, readFraction, readFraction, ← List.cons_append, spanDigits_fence hb]
            split_ifs <;> rfl
      · rw [List.cons_append, readFraction, readFraction]
        · rfl
        all_goals
          intro _ _ h
          exact hc (List.cons.inj h).1

theorem readSign_fence (text : List Char) :
    readSign (text ++ b :: more) = behind (b :: more) (readSign text) := by
  obtain ⟨-, -, -, -, hplus, hminus⟩ := fence_iff.mp hb
  cases text with
  | nil =>
      rw [List.nil_append, readSign]
      · rfl
      all_goals
        intro _ h
        have hhead := (List.cons.inj h).1
        contradiction
  | cons c cs =>
      by_cases hc : c = '-'
      · rw [hc]
        rfl
      · by_cases hc' : c = '+'
        · rw [hc']
          rfl
        · rw [List.cons_append, readSign, readSign]
          · rfl
          all_goals
            intro _ h
            have hhead := (List.cons.inj h).1
            contradiction

theorem readExponent_fence (text : List Char) :
    readExponent (text ++ b :: more) = behind (b :: more) (readExponent text) := by
  obtain ⟨-, -, he, hE, -⟩ := fence_iff.mp hb
  cases text with
  | nil => simp [readExponent, behind, he, hE]
  | cons c cs =>
      by_cases hc : c = 'e' ∨ c = 'E'
      · rw [List.cons_append, readExponent, readExponent, if_pos hc, if_pos hc,
          readSign_fence hb]
        simp only [behind, spanDigits_fence hb]
        cases spanDigits (readSign cs).2 with
        | mk digits rest => cases digits <;> rfl
      · rw [List.cons_append, readExponent, readExponent, if_neg hc, if_neg hc]
        rfl

theorem readMagnitude_fence (negative : Bool) (text : List Char) :
    readMagnitude negative (text ++ b :: more) =
      (readMagnitude negative text).map (behind (b :: more)) := by
  simp only [readMagnitude, readWhole_fence hb]
  cases readWhole text with
  | none => rfl
  | some read =>
      obtain ⟨whole, rest⟩ := read
      simp only [Option.map_some, behind, Option.bind_eq_bind, Option.bind_some,
        readFraction_fence hb, readExponent_fence hb]
      split_ifs <;> rfl

theorem beginsNumber_fence (text : List Char) :
    beginsNumber (text ++ b :: more) = beginsNumber text := by
  have hminus := (fence_iff.mp hb).2.2.2.2.2
  have hwhole (text : List Char) : (readWhole (text ++ b :: more)).isSome =
      (readWhole text).isSome := by
    rw [readWhole_fence hb, Option.isSome_map]
  cases text with
  | nil =>
      have hbare : beginsNumber (b :: more) = (readWhole (b :: more)).isSome :=
        beginsNumber.eq_2 _ fun _ h => hminus (List.cons.inj h).1
      exact hbare.trans (hwhole [])
  | cons c cs =>
      by_cases hc : c = '-'
      · rw [hc]
        exact hwhole cs
      · rw [List.cons_append, beginsNumber.eq_2 _ fun _ h => hc (List.cons.inj h).1,
          beginsNumber.eq_2 _ fun _ h => hc (List.cons.inj h).1]
        exact hwhole (c :: cs)

end Fenced

/-! ### What a number leaves -/

theorem readFraction_suffix (text : List Char) : (readFraction text).2 <:+ text := by
  unfold readFraction
  split
  · rename_i c rest
    split_ifs
    · exact (List.dropWhile_suffix _).trans (List.suffix_cons _ _)
    · exact List.suffix_rfl
  · exact List.suffix_rfl

theorem readSign_suffix (text : List Char) : (readSign text).2 <:+ text := by
  unfold readSign
  split
  · exact List.suffix_cons _ _
  · exact List.suffix_cons _ _
  · exact List.suffix_rfl

theorem readExponent_suffix (text : List Char) : (readExponent text).2 <:+ text := by
  cases text with
  | nil => exact List.suffix_rfl
  | cons c cs =>
      have hspan : (spanDigits (readSign cs).2).2 <:+ c :: cs :=
        ((List.dropWhile_suffix _).trans (readSign_suffix cs)).trans (List.suffix_cons _ _)
      rw [readExponent]
      split_ifs
      · cases hread : spanDigits (readSign cs).2 with
        | mk digits rest =>
            rw [hread] at hspan
            simp only [hread]
            cases digits with
            | nil => exact List.suffix_rfl
            | cons d ds => exact hspan
      · exact List.suffix_rfl

theorem readWhole_suffix {text digits rest : List Char}
    (h : readWhole text = some (digits, rest)) : rest <:+ text := by
  unfold readWhole at h
  split at h
  · cases h
    exact List.suffix_cons _ _
  · split_ifs at h
    cases h
    exact List.dropWhile_suffix _
  · cases h

theorem readMagnitude_suffix {negative : Bool} {text rest : List Char} {v : Json}
    (h : readMagnitude negative text = some (v, rest)) : rest <:+ text := by
  obtain ⟨⟨whole, tail⟩, hwhole, h⟩ := Option.bind_eq_some_iff.mp h
  have hrest : rest = (readExponent (readFraction tail).2).2 := by
    simp only at h
    split_ifs at h <;> cases h <;> rfl
  rw [hrest]
  exact ((readExponent_suffix _).trans (readFraction_suffix tail)).trans (readWhole_suffix hwhole)

/-- A number that ends in front of a fence is read the same way whatever stands behind it. -/
theorem readMagnitude_append {negative : Bool} {text rest : List Char} {v : Json}
    (h : readMagnitude negative text = some (v, rest)) {more : List Char}
    (hfence : ∀ c, (rest ++ more).head? = some c → fence c = true) :
    readMagnitude negative (text ++ more) = some (v, rest ++ more) := by
  cases rest with
  | nil =>
      cases more with
      | nil => rw [List.append_nil, List.append_nil, h]
      | cons c cs => rw [readMagnitude_fence (hfence c rfl), h, Option.map_some]; rfl
  | cons c cs =>
      have hc : fence c = true := hfence c rfl
      obtain ⟨front, rfl⟩ := readMagnitude_suffix h
      -- without the fence and what is behind it, the number is read to its end
      rw [readMagnitude_fence hc] at h
      obtain ⟨⟨w, rest⟩, hfront, heq⟩ := Option.map_eq_some_iff.mp h
      rw [List.append_assoc, List.cons_append, readMagnitude_fence hc, hfront]
      simp only [behind, Prod.mk.injEq] at heq
      obtain ⟨rfl, hrest⟩ := heq
      rw [List.append_left_eq_self.mp hrest]
      rfl

/-! ### Words and strings -/

theorem readWord_append {word : String} {value v : Json} {text rest : List Char}
    (h : readWord word value text = some (v, rest)) (more : List Char) :
    readWord word value (text ++ more) = some (v, rest ++ more) := by
  obtain ⟨tail, htail, heq⟩ := Option.map_eq_some_iff.mp h
  obtain ⟨rfl, rfl⟩ := Prod.mk.inj heq
  unfold afterWord at htail
  split_ifs at htail with hfront
  obtain ⟨tail', rfl⟩ := List.isPrefixOf_iff_prefix.mp hfront
  cases htail
  have hmore : word.toList.isPrefixOf (word.toList ++ (tail' ++ more)) = true :=
    List.isPrefixOf_iff_prefix.mpr (List.prefix_append _ _)
  rw [readWord, afterWord, List.append_assoc, if_pos hmore, List.drop_left, List.drop_left]
  rfl

/-- What a string goes on with: its closing quote or a character. -/
def GoesOn (text : List Char) : Prop := text.head? = some '"' ∨ (readChar text).isSome = true

theorem readLowSurrogate_append {text rest : List Char} {n : ℕ}
    (h : readLowSurrogate text = some (n, rest)) (more : List Char) :
    readLowSurrogate (text ++ more) = some (n, rest ++ more) := by
  unfold readLowSurrogate at h
  split at h
  · simp only [List.cons_append, readLowSurrogate]
    split at h
    · split_ifs at h with hlow
      cases h
      simp only [if_pos hlow]
    · cases h
  · cases h

/-- No escape is cut short where a string goes on. -/
theorem readLowSurrogate_none {text : List Char} (h : GoesOn text)
    (hnone : readLowSurrogate text = none) (more : List Char) :
    readLowSurrogate (text ++ more) = none := by
  by_cases hescape : ∃ rest, text = '\\' :: 'u' :: rest
  · obtain ⟨rest, rfl⟩ := hescape
    rcases rest with _ | ⟨a, _ | ⟨b, _ | ⟨c, _ | ⟨d, rest⟩⟩⟩⟩
    · simp [GoesOn, readChar, readShortEscape] at h
    · simp [GoesOn, readChar, readShortEscape] at h
    · simp [GoesOn, readChar, readShortEscape] at h
    · simp [GoesOn, readChar, readShortEscape] at h
    · simp only [readLowSurrogate] at hnone
      simp only [List.cons_append, readLowSurrogate]
      split at hnone
      · split_ifs at hnone with hlow
        simp only [if_neg hlow]
      · rfl
  · apply readLowSurrogate.eq_2
    intro _ _ _ _ _ heq
    rcases text with _ | ⟨c, _ | ⟨d, tail⟩⟩
    · simp [GoesOn, readChar] at h
    · rw [(List.cons.inj heq).1] at h
      simp [GoesOn, readChar] at h
    · obtain ⟨hc, htail⟩ := List.cons.inj heq
      exact hescape ⟨tail, by rw [hc, (List.cons.inj htail).1]⟩

theorem readEscaped_append {text : List Char} {n : ℕ} (h : GoesOn (readEscaped n text).2)
    (more : List Char) : readEscaped n (text ++ more) = behind more (readEscaped n text) := by
  unfold readEscaped at h ⊢
  split_ifs at h ⊢
  · cases hlow : readLowSurrogate text with
    | none =>
        rw [hlow] at h
        rw [readLowSurrogate_none h hlow]
        rfl
    | some low =>
        simp only [readLowSurrogate_append hlow, behind]
  · rfl
  · rfl

/-- A character is read the same way when the string goes on behind it. -/
theorem readChar_append {text rest : List Char} {c : Char} (h : readChar text = some (c, rest))
    (hrest : GoesOn rest) (more : List Char) :
    readChar (text ++ more) = some (c, rest ++ more) := by
  unfold readChar at h
  split at h
  · obtain ⟨n, hn, heq⟩ := Option.map_eq_some_iff.mp h
    have hunit := readEscaped_append (by rw [heq]; exact hrest) more
    simp only [List.cons_append, readChar, hn, Option.map_some, hunit, heq]
    rfl
  · rename_i e rest' hlong
    obtain ⟨d, hd, heq⟩ := Option.map_eq_some_iff.mp h
    cases heq
    have hu : e ≠ 'u' := fun hu => by rw [hu] at hd; cases hd
    rw [List.cons_append, List.cons_append, readChar.eq_2, hd]
    · rfl
    · intro _ _ _ _ _ hu' _
      exact hu hu'
  · split_ifs at h with hc
    cases h
    have hslash : c ≠ '\\' := fun heq => hc (.inl heq)
    rw [List.cons_append, readChar.eq_3, if_neg hc]
    · intro _ _ _ _ _ heq
      exact absurd heq hslash
    · intro _ _ heq
      exact absurd heq hslash
  · cases h

theorem goesOn_of_readUntil {n : ℕ} {text : List Char} {read : List Char × List Char}
    (h : asciiChar.readUntil '"' n text = some read) : GoesOn text := by
  cases text with
  | nil => cases n <;> cases h
  | cons c cs =>
      cases n with
      | zero => cases h
      | succ n =>
          rw [PrefixCode.readUntil] at h
          split_ifs at h with hquote
          · exact .inl (by rw [hquote]; rfl)
          · obtain ⟨⟨a, middle⟩, hchar, -⟩ := Option.bind_eq_some_iff.mp h
            exact .inr (Option.isSome_of_eq_some hchar)

theorem readUntil_append {n n' : ℕ} {text symbols rest : List Char}
    (h : asciiChar.readUntil '"' n text = some (symbols, rest)) (hn : n ≤ n') (more : List Char) :
    asciiChar.readUntil '"' n' (text ++ more) = some (symbols, rest ++ more) := by
  induction n generalizing n' text symbols with
  | zero => cases text <;> cases h
  | succ n ih =>
      obtain ⟨n', rfl⟩ := Nat.exists_eq_add_of_le hn
      cases text with
      | nil => cases h
      | cons c cs =>
          rw [Nat.add_right_comm, List.cons_append, PrefixCode.readUntil]
          rw [PrefixCode.readUntil] at h
          split_ifs at h ⊢ with hquote
          · cases h
            rfl
          · obtain ⟨⟨a, middle⟩, hchar, h⟩ := Option.bind_eq_some_iff.mp h
            obtain ⟨⟨symbols', rest'⟩, htail, h⟩ := Option.bind_eq_some_iff.mp h
            cases h
            have hread : asciiChar.read (c :: (cs ++ more)) = some (a, middle ++ more) :=
              readChar_append hchar (goesOn_of_readUntil htail) more
            have hgo := ih htail (Nat.le_add_right n n')
            rw [hread]
            simp only [Option.bind_eq_bind, Option.bind_some, hgo]
            rfl

theorem quotedString_append {text s rest : List Char}
    (h : quotedString.read text = some (s, rest)) (more : List Char) :
    quotedString.read (text ++ more) = some (s, rest ++ more) := by
  cases text with
  | nil => cases h
  | cons c cs =>
      simp only [quotedString, PrefixCode.delimited, List.cons_append] at h ⊢
      split_ifs at h ⊢ with hquote
      exact readUntil_append h (by rw [List.length_append]; omega) more

/-! ### Tokens -/

/-- A scalar is read the same way whatever stands behind its fence. -/
theorem readScalar_append {text rest more : List Char} {v : Json}
    (h : readScalar text = some (v, rest))
    (hfence : ∀ c, (rest ++ more).head? = some c → fence c = true) :
    readScalar (text ++ more) = some (v, rest ++ more) := by
  unfold readScalar at h
  split at h
  · obtain ⟨⟨s, tail⟩, htail, heq⟩ := Option.map_eq_some_iff.mp h
    cases heq
    have hread := quotedString_append htail more
    rw [List.cons_append] at hread ⊢
    rw [readScalar, hread]
    rfl
  iterate 6
    · exact readWord_append h more
  · rename_i rest' hword
    have hmagnitude := readMagnitude_append h hfence
    rw [List.cons_append, readScalar.eq_8]
    · exact hmagnitude
    · intro _ heq
      cases rest' with
      | nil => cases h
      | cons c cs => exact hword cs (by rw [(List.cons.inj heq).1])
  · rename_i hquote hn ht hf hN hI hword hminus
    have hmagnitude := readMagnitude_append h hfence
    cases text with
    | nil => cases h
    | cons c cs =>
        rw [readScalar.eq_9]
        · exact hmagnitude
        all_goals
          intro _ heq
          obtain ⟨rfl, -⟩ := List.cons.inj heq
          first
          | exact hquote cs rfl
          | exact hn cs rfl
          | exact ht cs rfl
          | exact hf cs rfl
          | exact hN cs rfl
          | exact hI cs rfl
          | exact hminus cs rfl

theorem readWhole_head {text : List Char} (h : (readWhole text).isSome = true) :
    ∃ c cs, text = c :: cs ∧ c.isDigit = true := by
  unfold readWhole at h
  split at h
  · exact ⟨_, _, rfl, by decide⟩
  · split_ifs at h with hdigit
    · exact ⟨_, _, rfl, hdigit⟩
    · cases h
  · cases h

/-- A number with too many digits is no scalar, whatever stands behind its fence. -/
theorem readScalar_digits {text : List Char} {b : Char} (hb : fence b = true)
    (hnumber : beginsNumber text = true) (h : readScalar text = none) (more : List Char) :
    readScalar (text ++ b :: more) = none := by
  cases text with
  | nil => cases hnumber
  | cons c cs =>
      by_cases hminus : c = '-'
      · subst hminus
        obtain ⟨d, ds, rfl, hd⟩ := readWhole_head hnumber
        have hplain (tail : List Char) :
            readScalar ('-' :: d :: tail) = readMagnitude true (d :: tail) := by
          apply readScalar.eq_8
          intro _ heq
          rw [(List.cons.inj heq).1] at hd
          cases hd
        rw [hplain] at h
        rw [List.cons_append, List.cons_append, hplain, ← List.cons_append,
          readMagnitude_fence hb, h]
        rfl
      · have hwhole : (readWhole (c :: cs)).isSome = true := by
          rwa [beginsNumber.eq_2 _ fun _ heq => hminus (List.cons.inj heq).1] at hnumber
        obtain ⟨d, ds, heq, hd⟩ := readWhole_head hwhole
        obtain ⟨rfl, rfl⟩ := List.cons.inj heq
        have hplain (tail : List Char) : readScalar (c :: tail) = readMagnitude false (c :: tail) := by
          apply readScalar.eq_9
          all_goals
            intro _ heq
            rw [(List.cons.inj heq).1] at hd
            cases hd
        rw [hplain] at h
        rw [List.cons_append, hplain, ← List.cons_append, readMagnitude_fence hb, h]
        rfl

/-! ### The reader -/

/-- The machine with more text to read. -/
def Machine.append (m : Machine) (more : List Char) : Machine := { m with text := m.text ++ more }

theorem skip_append {text : List Char} (h : skip text ≠ []) (more : List Char) :
    skip (text ++ more) = skip text ++ more := by
  rw [skip, List.dropWhile_append, if_neg (by simpa [skip] using h)]
  rfl

theorem skip_append_blank {text : List Char} (h : skip text = []) (more : List Char) :
    skip (text ++ more) = skip more := by
  rw [skip, List.dropWhile_append, if_pos (by simpa [skip] using h)]
  rfl

def Json.isScalar : Json → Bool
  | .arr _ => false
  | .obj _ => false
  | _ => true

theorem readScalar_isScalar {text rest : List Char} {v : Json}
    (h : readScalar text = some (v, rest)) : v.isScalar = true := by
  have hword {word : String} {value : Json} (hvalue : value.isScalar = true)
      (h : readWord word value text = some (v, rest)) : v.isScalar = true := by
    obtain ⟨_, -, heq⟩ := Option.map_eq_some_iff.mp h
    cases heq
    exact hvalue
  have hmagnitude {negative : Bool} {digits : List Char}
      (h : readMagnitude negative digits = some (v, rest)) : v.isScalar = true := by
    obtain ⟨_, -, h⟩ := Option.bind_eq_some_iff.mp h
    simp only at h
    split_ifs at h <;> cases h <;> rfl
  unfold readScalar at h
  split at h
  · obtain ⟨_, -, heq⟩ := Option.map_eq_some_iff.mp h
    cases heq
    rfl
  iterate 6
    · exact hword rfl h
  · exact hmagnitude h
  · exact hmagnitude h

/-- A scalar that was just read ends in front of a fence. -/
def Machine.Fenced (m : Machine) (more : List Char) : Prop :=
  ∀ v, m.mode = .done v → v.isScalar = true →
    ∀ c, (m.text ++ more).head? = some c → fence c = true

section Tokens

variable {limit : ℕ} {m m' : Machine} {more : List Char}

theorem valueStep_append {stack : List Frame} {text : List Char}
    (h : valueStep limit stack text = .ok m') (hfence : m'.Fenced more) :
    valueStep limit stack (text ++ more) = .ok (m'.append more) := by
  unfold valueStep at h
  split at h
  · split_ifs at h with hdeep
    cases h
    simp only [List.cons_append, valueStep, if_neg hdeep, Machine.append]
  · split_ifs at h with hdeep
    cases h
    simp only [List.cons_append, valueStep, if_neg hdeep, Machine.append]
  · rename_i harr hobj
    split at h
    · rename_i v rest hscalar
      cases h
      have hread := readScalar_append hscalar (hfence v rfl (readScalar_isScalar hscalar))
      cases text with
      | nil => cases hscalar
      | cons c cs =>
          rw [valueStep, hread]
          · rfl
          · intro _ heq
            exact harr cs (by rw [(List.cons.inj heq).1])
          · intro _ heq
            exact hobj cs (by rw [(List.cons.inj heq).1])
    · cases h

theorem nameStep_append {stack : List Frame} {members : List (String × Json)} {text : List Char}
    (h : nameStep stack members text = .ok m') (more : List Char) :
    nameStep stack members (text ++ more) = .ok (m'.append more) := by
  unfold nameStep at h ⊢
  split at h
  · rename_i name rest hname
    rw [quotedString_append hname]
    split at h
    · rename_i rest' hcolon
      cases h
      have hne : skip rest ≠ [] := by rw [hcolon]; exact List.cons_ne_nil _ _
      have hskip := skip_append hne more
      rw [hcolon] at hskip
      simp only [hskip, List.cons_append, Machine.append]
    · cases h
  · cases h

theorem closeStep_append {frame : Frame} {stack : List Frame} {value : Json} {text : List Char}
    (h : closeStep frame stack value text = .ok m') (more : List Char) :
    closeStep frame stack value (text ++ more) = .ok (m'.append more) := by
  unfold closeStep at h
  split at h
  iterate 4
    · cases h
      rfl
  · cases h

theorem step_first {stack : List Frame} {text cs : List Char} {c : Char} (h : skip text = c :: cs)
    (hc : c ≠ ']') : Machine.step limit ⟨stack, .first, text⟩ =
      (valueStep limit (.arr [] :: stack) (c :: cs)).map .inl := by
  simp only [Machine.step, h]
  split
  · contradiction
  · rename_i heq
    exact absurd (List.cons.inj heq).1 hc
  · rfl
  · contradiction
  · contradiction
  · contradiction

theorem step_name {stack : List Frame} {members : List (String × Json)} {first : Bool}
    {text cs : List Char} {c : Char} (h : skip text = c :: cs)
    (hc : c ≠ '\x7d' ∨ first = false ∨ members ≠ []) :
    Machine.step limit ⟨stack, .name members first, text⟩ =
      (nameStep stack members (c :: cs)).map .inl := by
  simp only [Machine.step, h]
  split
  · contradiction
  · contradiction
  · contradiction
  · rename_i hmode heq
    cases hmode
    rcases hc with hc | hc | hc
    · exact absurd (List.cons.inj heq).1 hc
    · cases hc
    · exact absurd rfl hc
  · rename_i hmode _
    cases hmode
    rfl
  · contradiction

/-- A token that is read ends where it ends whatever stands behind it. -/
theorem Machine.step_append (h : m.step limit = .ok (.inl m')) (hfence : m'.Fenced more) :
    (m.append more).step limit = .ok (.inl (m'.append more)) := by
  obtain ⟨stack, mode, text⟩ := m
  show Machine.step limit ⟨stack, mode, text ++ more⟩ = _
  cases hskip : skip text with
  | nil =>
      simp only [Machine.step, hskip] at h
      cases mode with
      | value => cases h
      | first => cases h
      | name members first => cases first <;> cases members <;> cases h
      | done value =>
          cases stack with
          | nil => cases h
          | cons frame stack => cases frame <;> cases h
  | cons c cs =>
      have hmore : skip (text ++ more) = c :: (cs ++ more) := by
        rw [skip_append (by rw [hskip]; exact List.cons_ne_nil _ _), hskip, List.cons_append]
      cases mode with
      | value =>
          simp only [Machine.step, hskip] at h
          simp only [Machine.step, hmore, ← List.cons_append,
            valueStep_append (ok_of_map h) hfence]
          rfl
      | first =>
          by_cases hc : c = ']'
          · subst hc
            simp only [Machine.step, hskip] at h
            simp only [Machine.step, hmore]
            cases h
            rfl
          · rw [step_first hskip hc] at h
            rw [step_first hmore hc, ← List.cons_append,
              valueStep_append (ok_of_map h) hfence]
            rfl
      | name members first =>
          by_cases hc : c ≠ '\x7d' ∨ first = false ∨ members ≠ []
          · rw [step_name hskip hc] at h
            rw [step_name hmore hc, ← List.cons_append, nameStep_append (ok_of_map h)]
            rfl
          · push Not at hc
            obtain ⟨rfl, hfirst, rfl⟩ := hc
            obtain rfl : first = true := by simpa using hfirst
            simp only [Machine.step, hskip] at h
            simp only [Machine.step, hmore]
            cases h
            rfl
      | done value =>
          cases stack with
          | nil =>
              simp only [Machine.step, hskip] at h
              cases h
          | cons frame stack =>
              simp only [Machine.step, hskip] at h
              simp only [Machine.step, hmore, ← List.cons_append, closeStep_append (ok_of_map h)]
              rfl

/-! ### Whole texts -/

/-- The text of an array or of an object follows. -/
def Opens (text : List Char) : Prop :=
  (skip text).head? = some '[' ∨ (skip text).head? = some '\x7b'

/-- The machine is inside an array or an object, at the beginning of one or behind a value. -/
def Machine.Nested (m : Machine) : Prop := m.stack = [] → m.mode = .value → Opens m.text

theorem valueStep_nested {stack : List Frame} {text : List Char}
    (h : valueStep limit stack text = .ok m') : m'.mode ≠ .value := by
  unfold valueStep at h
  split at h
  · split_ifs at h
    cases h
    exact Mode.noConfusion
  · split_ifs at h
    cases h
    exact Mode.noConfusion
  · split at h
    · cases h
      exact Mode.noConfusion
    · cases h

/-- Inside, after every token. -/
theorem Machine.step_nested (h : m.step limit = .ok (.inl m')) : m'.Nested := by
  intro hstack hmode
  exfalso
  obtain ⟨stack, mode, text⟩ := m
  unfold Machine.step at h
  simp only at h
  split at h
  · exact valueStep_nested (ok_of_map h) hmode
  · cases h
    cases hmode
  · exact valueStep_nested (ok_of_map h) hmode
  · cases h
    cases hmode
  · have hname := ok_of_map h
    unfold nameStep at hname
    split at hname
    · split at hname
      · cases hname
        cases hstack
      · cases hname
    · cases hname
  · split at h
    · cases h
    · cases h
    · have hclose := ok_of_map h
      unfold closeStep at hclose
      split at hclose <;> cases hclose
      · cases hstack
      · cases hmode
      · cases hmode
      · cases hmode

theorem valueStep_scalar {stack : List Frame} {text : List Char}
    (h : valueStep limit stack text = .ok m') {v : Json} (hmode : m'.mode = .done v) :
    m'.stack = stack ∧ text.head? ≠ some '[' ∧ text.head? ≠ some '\x7b' := by
  unfold valueStep at h
  split at h
  · split_ifs at h
    cases h
    cases hmode
  · split_ifs at h
    cases h
    cases hmode
  · rename_i harr hobj
    split at h
    · cases h
      refine ⟨rfl, fun hhead => ?_, fun hhead => ?_⟩
      · exact harr _ (List.cons_head?_tail hhead).symm
      · exact hobj _ (List.cons_head?_tail hhead).symm
    · cases h

/-- A scalar is read inside an array or an object. -/
theorem Machine.step_scalar (h : m.step limit = .ok (.inl m')) (hnested : m.Nested) {v : Json}
    (hmode : m'.mode = .done v) (hv : v.isScalar = true) : m'.stack ≠ [] := by
  intro hstack
  obtain ⟨stack, mode, text⟩ := m
  unfold Machine.step at h
  simp only at h
  split at h
  · obtain ⟨hsame, harr, hobj⟩ := valueStep_scalar (ok_of_map h) hmode
    exact (hnested (hsame.symm.trans hstack) rfl).elim harr hobj
  · cases h
    cases hmode
    cases hv
  · obtain ⟨hsame, -, -⟩ := valueStep_scalar (ok_of_map h) hmode
    rw [hstack] at hsame
    cases hsame
  · cases h
    cases hmode
    cases hv
  · have hname := ok_of_map h
    unfold nameStep at hname
    split at hname
    · split at hname
      · cases hname
        cases hmode
      · cases hname
    · cases hname
  · split at h
    · cases h
    · cases h
    · have hclose := ok_of_map h
      unfold closeStep at hclose
      split at hclose <;> cases hclose <;> cases hmode <;> cases hv

theorem fence_of_isSpace {c : Char} (h : isSpace c = true) : fence c = true := by
  simp only [isSpace, Bool.or_eq_true, beq_iff_eq] at h
  rcases h with ((rfl | rfl) | rfl) | rfl <;> decide

/-- Behind a value, what begins with no fence is no JSON. -/
theorem Machine.run_unfenced {v : Json} {c : Char} (hmode : m.mode = .done v)
    (hhead : m.text.head? = some c) (hc : fence c = false) : m.run limit = .error .invalid := by
  obtain ⟨stack, mode, text⟩ := m
  obtain ⟨cs, rfl⟩ : ∃ cs, text = c :: cs := ⟨_, (List.cons_head?_tail hhead).symm⟩
  have hspace : isSpace c = false := by
    by_contra hspace
    rw [fence_of_isSpace (by simpa using hspace)] at hc
    cases hc
  apply Machine.run_error
  cases hmode
  simp only [Machine.step, skip_cons hspace]
  cases stack with
  | nil => rfl
  | cons frame stack =>
      have hclose : closeStep frame stack v (c :: cs) = .error .invalid := by
        unfold closeStep
        split <;> first | rfl | (rename_i heq; rw [(List.cons.inj heq).1] at hc; cases hc)
      simp only [hclose]
      rfl

theorem Machine.fenced_of_run {v : Json} (h : m.run limit = .ok v)
    (hstack : ∀ v, m.mode = .done v → v.isScalar = true → m.stack ≠ []) : m.Fenced more := by
  intro w hmode hw c hc
  cases htext : m.text with
  | nil =>
      have hinside := hstack w hmode hw
      obtain ⟨stack, mode, text⟩ := m
      cases hmode
      cases htext
      cases stack with
      | nil => exact absurd rfl hinside
      | cons frame stack =>
          rw [Machine.run_error (e := .invalid) (by cases frame <;> rfl)] at h
          cases h
  | cons d ds =>
      by_contra hfence
      rw [htext] at hc
      cases hc
      rw [Machine.run_unfenced hmode (by rw [htext]; rfl) (by simpa using hfence)] at h
      cases h

theorem Machine.step_done {v : Json} (h : m.step limit = .ok (.inr v)) :
    m.stack = [] ∧ m.mode = .done v ∧ skip m.text = [] := by
  have hmap (x : Except LoadsError Machine) : x.map Sum.inl ≠ .ok (Sum.inr v) := by
    cases x <;> exact nofun
  obtain ⟨stack, mode, text⟩ := m
  unfold Machine.step at h
  simp only at h
  split at h
  · exact absurd h (hmap _)
  · cases h
  · exact absurd h (hmap _)
  · cases h
  · exact absurd h (hmap _)
  · split at h
    · rename_i hskip
      cases h
      exact ⟨rfl, rfl, hskip⟩
    · cases h
    · exact absurd h (hmap _)

/-- **Behind an array or an object only blanks may follow.** -/
theorem Machine.run_append {v : Json} (h : m.run limit = .ok v) (hnested : m.Nested)
    (more : List Char) :
    (m.append more).run limit = if skip more = [] then .ok v else .error .invalid := by
  induction hlength : m.text.length using Nat.strongRecOn generalizing m with
  | ind n ih =>
      cases hstep : m.step limit with
      | error e =>
          rw [Machine.run_error hstep] at h
          cases h
      | ok next =>
          cases next with
          | inl m' =>
              have hrun := h
              rw [Machine.run_step hstep] at hrun
              have hfence : m'.Fenced more :=
                Machine.fenced_of_run hrun fun _ => Machine.step_scalar hstep hnested
              rw [Machine.run_step (Machine.step_append hstep hfence)]
              exact ih _ (hlength ▸ Machine.step_length hstep) hrun (Machine.step_nested hstep) rfl
          | inr w =>
              rw [Machine.run_done hstep] at h
              cases h
              obtain ⟨hstack, hmode, hblank⟩ := Machine.step_done hstep
              obtain ⟨stack, mode, text⟩ := m
              cases hstack
              cases hmode
              have hskip : skip (text ++ more) = skip more := skip_append_blank hblank more
              split_ifs with hmore
              · apply Machine.run_done
                simp only [Machine.step, Machine.append, hskip, hmore]
              · apply Machine.run_error
                obtain ⟨c, cs, hcs⟩ := List.exists_cons_of_ne_nil hmore
                simp only [Machine.step, Machine.append, hskip, hcs]

theorem valueStep_cut {b : Char} (hb : fence b = true) {stack : List Frame} {text : List Char}
    {e : LoadsError} (h : valueStep limit stack text = .error e) (more : List Char) :
    e = .invalid ∨ valueStep limit stack (text ++ b :: more) = .error e := by
  unfold valueStep at h
  split at h
  · split_ifs at h with hdeep
    right
    simp only [List.cons_append, valueStep, if_pos hdeep, h]
  · split_ifs at h with hdeep
    right
    simp only [List.cons_append, valueStep, if_pos hdeep, h]
  · rename_i harr hobj
    split at h
    · cases h
    · rename_i hscalar
      cases hnumber : beginsNumber text with
      | false =>
          rw [hnumber] at h
          cases h
          exact .inl rfl
      | true =>
          have hread := readScalar_digits hb hnumber hscalar more
          have hdigits := (beginsNumber_fence hb more text).trans hnumber
          rw [hnumber] at h
          right
          cases text with
          | nil => cases hnumber
          | cons c cs =>
              rw [valueStep, hread, hdigits]
              · exact h
              · intro _ heq
                exact harr cs (by rw [(List.cons.inj heq).1])
              · intro _ heq
                exact hobj cs (by rw [(List.cons.inj heq).1])

theorem error_of_map {x : Except LoadsError Machine} {e : LoadsError}
    (h : x.map (Sum.inl (β := Json)) = .error e) : x = .error e := by
  cases x with
  | error e => cases h; rfl
  | ok m => cases h

theorem nameStep_error {stack : List Frame} {members : List (String × Json)} {text : List Char}
    {e : LoadsError} (h : nameStep stack members text = .error e) : e = .invalid := by
  unfold nameStep at h
  split at h
  · split at h
    · cases h
    · cases h
      rfl
  · cases h
    rfl

theorem closeStep_error {frame : Frame} {stack : List Frame} {value : Json} {text : List Char}
    {e : LoadsError} (h : closeStep frame stack value text = .error e) : e = .invalid := by
  unfold closeStep at h
  split at h <;> cases h
  rfl

/-- A text that is cut in front of a fence is no JSON, or fails as all of the text does. -/
theorem Machine.step_cut {b : Char} (hb : fence b = true) {e : LoadsError}
    (h : m.step limit = .error e) :
    e = .invalid ∨ (m.append (b :: more)).step limit = .error e := by
  obtain ⟨stack, mode, text⟩ := m
  show _ ∨ Machine.step limit ⟨stack, mode, text ++ b :: more⟩ = _
  cases hskip : skip text with
  | nil =>
      left
      simp only [Machine.step, hskip] at h
      cases mode with
      | value => cases h; rfl
      | first => cases h; rfl
      | name members first => cases first <;> cases members <;> cases h <;> rfl
      | done value =>
          cases stack with
          | nil => cases h
          | cons frame stack => exact closeStep_error (error_of_map h)
  | cons c cs =>
      have hmore : skip (text ++ b :: more) = c :: (cs ++ b :: more) := by
        rw [skip_append (by rw [hskip]; exact List.cons_ne_nil _ _), hskip, List.cons_append]
      cases mode with
      | value =>
          simp only [Machine.step, hskip] at h
          refine (valueStep_cut hb (error_of_map h) more).imp id fun hcut => ?_
          simp only [Machine.step, hmore, ← List.cons_append, hcut]
          rfl
      | first =>
          by_cases hc : c = ']'
          · subst hc
            simp only [Machine.step, hskip] at h
            cases h
          · rw [step_first hskip hc] at h
            refine (valueStep_cut hb (error_of_map h) more).imp id fun hcut => ?_
            rw [step_first hmore hc, ← List.cons_append, hcut]
            rfl
      | name members first =>
          by_cases hc : c ≠ '\x7d' ∨ first = false ∨ members ≠ []
          · rw [step_name hskip hc] at h
            exact .inl (nameStep_error (error_of_map h))
          · push Not at hc
            obtain ⟨rfl, hfirst, rfl⟩ := hc
            obtain rfl : first = true := by simpa using hfirst
            simp only [Machine.step, hskip] at h
            cases h
      | done value =>
          left
          simp only [Machine.step, hskip] at h
          cases stack with
          | nil => cases h; rfl
          | cons frame stack => exact closeStep_error (error_of_map h)

/-- **A text cut in front of a fence** that is no blank is no JSON, where all of it is. -/
theorem Machine.run_cut {b : Char} (hb : fence b = true) (hspace : isSpace b = false) {v : Json}
    (h : (m.append (b :: more)).run limit = .ok v) : m.run limit = .error .invalid := by
  induction hlength : m.text.length using Nat.strongRecOn generalizing m with
  | ind n ih =>
      cases hstep : m.step limit with
      | error e =>
          rw [Machine.run_error hstep]
          rcases Machine.step_cut hb hstep with rfl | hmore
          · rfl
          · rw [Machine.run_error hmore] at h
            cases h
      | ok next =>
          cases next with
          | inl m' =>
              rw [Machine.run_step hstep]
              by_cases hfence : m'.Fenced (b :: more)
              · rw [Machine.run_step (Machine.step_append hstep hfence)] at h
                exact ih _ (hlength ▸ Machine.step_length hstep) h rfl
              · simp only [Machine.Fenced] at hfence
                push Not at hfence
                obtain ⟨w, hmode, -, c, hhead, hc⟩ := hfence
                have hc : fence c = false := by simpa using hc
                cases htext : m'.text with
                | nil =>
                    rw [htext] at hhead
                    cases hhead
                    rw [hb] at hc
                    cases hc
                | cons d ds =>
                    rw [htext] at hhead
                    exact Machine.run_unfenced hmode (by rw [htext]; exact hhead) hc
          | inr w =>
              obtain ⟨hstack, hmode, hblank⟩ := Machine.step_done hstep
              obtain ⟨stack, mode, text⟩ := m
              cases hstack
              cases hmode
              have hskip : skip (text ++ b :: more) = b :: more := by
                rw [skip_append_blank hblank, skip_cons hspace]
              have herror : Machine.step limit (Machine.append ⟨[], .done w, text⟩ (b :: more)) =
                  .error .invalid := by
                simp only [Machine.step, Machine.append, hskip]
              rw [Machine.run_error herror] at h
              cases h

theorem opens_of_loads {text : String} {v : Json} (h : loads limit text = .ok v)
    (hv : v.isScalar = false) : Opens text.toList := by
  by_contra hopens
  simp only [Opens, not_or] at hopens
  unfold loads at h
  split_ifs at h
  cases hread : valueStep limit [] (skip text.toList) with
  | error e =>
      have hstep : Machine.step limit ⟨[], .value, text.toList⟩ = .error e := by
        simp only [Machine.step, hread]
        rfl
      rw [Machine.run_error hstep] at h
      cases h
  | ok m' =>
      have hstep : Machine.step limit ⟨[], .value, text.toList⟩ = .ok (.inl m') := by
        simp only [Machine.step, hread]
        rfl
      rw [Machine.run_step hstep] at h
      unfold valueStep at hread
      split at hread
      · rename_i hskip
        exact hopens.1 (by rw [hskip]; rfl)
      · rename_i hskip
        exact hopens.2 (by rw [hskip]; rfl)
      · split at hread
        · rename_i w rest hscalar
          cases hread
          cases hblank : skip rest with
          | nil =>
              have hdone : Machine.step limit ⟨[], .done w, rest⟩ = .ok (.inr w) := by
                simp only [Machine.step, hblank]
              rw [Machine.run_done hdone] at h
              cases h
              rw [readScalar_isScalar hscalar] at hv
              cases hv
          | cons c cs =>
              have herror : Machine.step limit ⟨[], .done w, rest⟩ = .error .invalid := by
                simp only [Machine.step, hblank]
              rw [Machine.run_error herror] at h
              cases h
        · cases hread

end Tokens

/-- Behind the text of an array or an object only blanks may follow. -/
theorem loads_append {limit : ℕ} {text : String} {v : Json} (h : loads limit text = .ok v)
    (hopens : Opens text.toList) (more : String) :
    loads limit (text ++ more) =
      if skip more.toList = [] then .ok v else .error .invalid := by
  unfold loads at h ⊢
  split_ifs at h with hmark
  have hne : text.toList ≠ [] := by
    intro hnil
    rw [hnil] at hopens
    rcases hopens with h | h <;> cases h
  rw [String.toList_append, List.head?_append_of_ne_nil _ hne, if_neg hmark]
  exact Machine.run_append h (fun _ _ => hopens) more.toList

/-- A text that is cut in front of a fence, where all of it is read. -/
theorem loads_cut {limit : ℕ} {text more : String} {b : Char} (hb : fence b = true)
    (hspace : isSpace b = false) {v : Json}
    (h : loads limit (text ++ String.ofList (b :: more.toList)) = .ok v) :
    loads limit text = .error .invalid := by
  unfold loads at h ⊢
  rw [String.toList_append, String.toList_ofList] at h
  split_ifs at h with hmark
  split_ifs with hmark'
  · rfl
  · exact Machine.run_cut (m := ⟨[], .value, text.toList⟩) hb hspace h

end JsonText

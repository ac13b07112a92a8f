import MachineDeck.JsonText
import MachineDeck.LineText
import MachineDeck.Traversals
import Mathlib.Algebra.Group.Nat.Defs
import Mathlib.Data.Nat.Log

/-!
# `int` of a JSON value

* `intOfText` — of a text: blanks at its ends, a sign, digits with single underscores between
  them; Unicode's decimal digits are a parameter;
* `doubleTruncated` — of a number that is not an integer: the nearest double, cut to an integer;
* `pythonInt` — of any value, with the exception where there is none.
-/

namespace PythonNumber

open JsonText (Json Decimal)
open LineText (strip)

/-! ### Texts -/

/-- The digits between single underscores. -/
def digitGroups (decimalDigit : Char → Option ℕ) (text : List Char) : Option (List ℕ) := do
  let groups ← (text.splitOn '_').mapM fun group =>
    if group.isEmpty then none else group.mapM decimalDigit
  let digits := groups.flatten
  if JsonText.intMaxStrDigits < digits.length then none else some digits

def intOfText (decimalDigit : Char → Option ℕ) (text : List Char) : Option ℤ :=
  let (negative, digits) := JsonText.readSign (strip text)
  (digitGroups decimalDigit digits).map fun digits =>
    JsonText.signed negative (digits.foldl (fun value d => value * 10 + d) 0)

/-- A character that is part of no number. -/
def Foreign (decimalDigit : Char → Option ℕ) (c : Char) : Prop :=
  decimalDigit c = none ∧ LineText.isSpace c = false ∧ c ≠ '_' ∧ c ≠ '+' ∧ c ≠ '-'

theorem digitGroups_foreign {decimalDigit : Char → Option ℕ} {text : List Char} {c : Char}
    (hc : c ∈ text) (hne : c ≠ '_') (hnone : decimalDigit c = none) :
    digitGroups decimalDigit text = none := by
  have hjoin : ['_'].intercalate (text.splitOn '_') = text := List.intercalate_splitOn '_'
  rw [← hjoin] at hc
  rcases LineText.mem_intercalate_list hc with hc | ⟨group, hgroup, hc⟩
  · exact absurd (List.mem_singleton.mp hc) hne
  rw [digitGroups]
  cases hmap : (text.splitOn '_').mapM fun group =>
      if group.isEmpty then none else group.mapM decimalDigit with
  | none => rfl
  | some groups =>
      have hread := Traversals.isSome_of_mapM hmap hgroup
      obtain ⟨digits, hdigits⟩ := Option.isSome_iff_exists.mp hread
      split_ifs at hdigits
      have hdigit := Traversals.isSome_of_mapM hdigits hc
      rw [hnone] at hdigit
      cases hdigit

theorem intOfText_foreign {decimalDigit : Char → Option ℕ} {text : List Char} {c : Char}
    (hc : c ∈ text) (h : Foreign decimalDigit c) : intOfText decimalDigit text = none := by
  obtain ⟨hnone, hspace, hne, hplus, hminus⟩ := h
  have hstrip : c ∈ strip text := (LineText.mem_stripBy hspace).mpr hc
  have hrest : c ∈ (JsonText.readSign (strip text)).2 := by
    unfold JsonText.readSign
    split
    · rename_i rest hsign
      rw [hsign] at hstrip
      exact (List.mem_cons.mp hstrip).resolve_left hminus
    · rename_i rest hsign
      rw [hsign] at hstrip
      exact (List.mem_cons.mp hstrip).resolve_left hplus
    · exact hstrip
  rw [intOfText]
  simp only [digitGroups_foreign hrest hne hnone, Option.map_none]

/-- A few plain digits are read as their number. -/
theorem intOfText_digits {decimalDigit : Char → Option ℕ} {text : List Char} (hne : text ≠ [])
    (hlength : text.length ≤ JsonText.intMaxStrDigits) (hdigits : ∀ c ∈ text, c.isDigit = true)
    (hread : ∀ c ∈ text, decimalDigit c = some (c.toNat - 48)) :
    intOfText decimalDigit text = some (JsonText.digitsValue text : ℤ) := by
  have hchar (c : Char) (hc : c.isDigit = true) : 48 ≤ c.toNat ∧ c.toNat ≤ 57 := by
    simpa [Char.isDigit, UInt32.le_iff_toNat_le] using hc
  have hspace : ∀ c ∈ text, LineText.isSpace c = false := by
    intro c hc
    have hvalue := hchar c (hdigits c hc)
    simp only [LineText.isSpace, Bool.or_eq_false_iff, Bool.and_eq_false_iff, decide_eq_false_iff_not,
      beq_eq_false_iff_ne]
    omega
  have hstrip : strip text = text := LineText.stripBy_of_plain hspace
  have hsign : JsonText.readSign text = (false, text) := by
    unfold JsonText.readSign
    split
    · exact absurd (hdigits '-' List.mem_cons_self) (by decide)
    · exact absurd (hdigits '+' List.mem_cons_self) (by decide)
    · rfl
  have hone : text.splitOn '_' = [text] := by
    refine List.splitOn_eq_singleton fun hmem => ?_
    exact absurd (hdigits '_' hmem) (by decide)
  have hempty : text.isEmpty = false := by simpa using hne
  have hgroups : digitGroups decimalDigit text = some (text.map fun c => c.toNat - 48) := by
    rw [digitGroups, hone]
    simp only [List.mapM_cons, List.mapM_nil, hempty, Bool.false_eq_true, if_false,
      Traversals.mapM_eq_some hread, Option.bind_eq_bind, Option.bind_some, Option.pure_def,
      List.flatten_cons, List.flatten_nil, List.append_nil, List.length_map]
    rw [if_neg (by omega)]
  rw [intOfText, hstrip, hsign]
  simp only [hgroups, Option.map_some, JsonText.signed, List.foldl_map]
  rfl

/-! ### Doubles -/

/-- The nearest natural number to a quotient, the even one of two. -/
def nearest (num den : ℕ) : ℕ :=
  let q := num / den
  let twice := 2 * (num % den)
  if twice < den then q else if den < twice then q + 1 else q + q % 2

/-- `num / den` as a fraction of `2 ^ k`. -/
def scaled (num den : ℕ) (k : ℤ) : ℕ × ℕ :=
  if 0 ≤ k then (num, den * 2 ^ k.toNat) else (num * 2 ^ (-k).toNat, den)

/-- The power of two by which the quotient is cut to 53 binary digits. -/
def binaryExponent (num den : ℕ) : ℤ :=
  let k : ℤ := Nat.log2 num - Nat.log2 den - 52
  let (n, d) := scaled num den k
  if n < 2 ^ 52 * d then k - 1 else k

/-- The double nearest to a positive quotient, cut to a natural number; none where it is infinite.
-/
def truncatedQuotient (num den : ℕ) : Option ℕ :=
  let k := binaryExponent num den
  let (n, d) := scaled num den k
  let digits := nearest n d
  if 0 ≤ k then
    if 2 ^ 1024 ≤ digits * 2 ^ k.toNat then none else some (digits * 2 ^ k.toNat)
  else some (digits / 2 ^ (-k).toNat)

/-- Numbers too large or too small for any double are told by their decimal length. -/
def truncatedMagnitude (mantissa : ℕ) (exponent : ℤ) : Option ℕ :=
  let length : ℤ := Nat.log 10 mantissa + exponent
  if mantissa = 0 ∨ length < -400 then some 0
  else if 400 < length then none
  else if 0 ≤ exponent then truncatedQuotient (mantissa * 10 ^ exponent.toNat) 1
  else truncatedQuotient mantissa (10 ^ (-exponent).toNat)

inductive IntError where
  | typeError
  | valueError
  | overflowError
  deriving DecidableEq, Repr

def doubleTruncated : Decimal → Except IntError ℤ
  | .infinity _ => .error .overflowError
  | .nan => .error .valueError
  | .finite mantissa exponent =>
    match truncatedMagnitude mantissa.natAbs exponent with
    | none => .error .overflowError
    | some n => .ok (JsonText.signed (decide (mantissa < 0)) n)

/-! ### Values -/

def pythonInt (decimalDigit : Char → Option ℕ) : Json → Except IntError ℤ
  | .null => .error .typeError
  | .bool value => .ok (if value then 1 else 0)
  | .int value => .ok value
  | .decimal value => doubleTruncated value
  | .str text =>
    match intOfText decimalDigit text.toList with
    | some value => .ok value
    | none => .error .valueError
  | .arr _ => .error .typeError
  | .obj _ => .error .typeError

def asciiDigit (c : Char) : Option ℕ := if c.isDigit then some (c.toNat - 48) else none

example : pythonInt asciiDigit (.str " 1_000 ") = .ok 1000 := by decide +kernel
example : doubleTruncated (.finite (-99999999999999999999) (-19)) = .ok (-10) := by decide +kernel
example : doubleTruncated (.finite 1 309) = .error .overflowError := by decide +kernel

end PythonNumber

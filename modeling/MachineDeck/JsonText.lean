import MachineDeck.HexDigits
import MachineDeck.PrefixCode
import Mathlib.Data.Int.Notation
import Mathlib.Tactic.SplitIfs

/-!
# JSON text

Reading and writing JSON the way Python's `json` module does.

* `Json` — JSON values; a decimal keeps the digits it was written with;
* `asciiChar` — the words of the characters of a string, everything outside printable ASCII
  escaped; an escaped lone surrogate, which is no character, is read as U+FFFD;
* `readNumber`, `readScalar` — numbers, strings and literals;
* `Machine`, `Machine.step`, `Machine.run` — the reader, one token at a time, with the open arrays
  and objects on a stack that holds at most `limit` of them;
* `loads`, `dumpsStrings` — whole texts, `loads_dumpsStrings` — an object of strings is read back.
-/

namespace JsonText

open HexDigits

/-- What is not an integer: `mantissa * 10 ^ exponent`, or one of the words Python adds. -/
inductive Decimal where
  | finite (mantissa exponent : ℤ)
  | infinity (negative : Bool)
  | nan
  deriving DecidableEq, Repr

inductive Json where
  | null
  | bool (value : Bool)
  | int (value : ℤ)
  | decimal (value : Decimal)
  | str (value : String)
  | arr (items : List Json)
  | obj (members : List (String × Json))
  deriving Repr

/-- The member of a name; of several, the last one counts. -/
def member? (members : List (String × Json)) (name : String) : Option Json :=
  (members.reverse.find? fun m => m.1 == name).map Prod.snd

/-! ### The characters of a string -/

/-- A 16-bit unit as four digits. -/
def hexUnit (n : ℕ) : List Char :=
  [hexDigit (n / 4096 % 16), hexDigit (n / 256 % 16), hexDigit (n / 16 % 16), hexDigit (n % 16)]

def readUnit (a b c d : Char) : Option ℕ := do
  let a ← hexValue a
  let b ← hexValue b
  let c ← hexValue c
  let d ← hexValue d
  return ((a * 16 + b) * 16 + c) * 16 + d

theorem readUnit_hexUnit {n : ℕ} (hn : n < 65536) :
    readUnit (hexDigit (n / 4096 % 16)) (hexDigit (n / 256 % 16)) (hexDigit (n / 16 % 16))
      (hexDigit (n % 16)) = some n := by
  have hdigit (m : ℕ) : hexValue (hexDigit (m % 16)) = some (m % 16) :=
    hexValue_hexDigit _ (Nat.mod_lt _ (by decide))
  simp only [readUnit, hdigit, Option.bind_eq_bind, Option.bind_some, Option.pure_def]
  congr 1
  omega

/-- The escapes of one letter. -/
def shortEscape : Char → Option Char
  | '"' => some '"'
  | '\\' => some '\\'
  | '\n' => some 'n'
  | '\r' => some 'r'
  | '\t' => some 't'
  | '\x0c' => some 'f'
  | '\x08' => some 'b'
  | _ => none

def readShortEscape : Char → Option Char
  | '"' => some '"'
  | '\\' => some '\\'
  | '/' => some '/'
  | 'n' => some '\n'
  | 'r' => some '\r'
  | 't' => some '\t'
  | 'f' => some '\x0c'
  | 'b' => some '\x08'
  | _ => none

theorem readShortEscape_of_shortEscape {c e : Char} (h : shortEscape c = some e) :
    readShortEscape e = some c := by
  unfold shortEscape at h
  split at h <;> cases h <;> rfl

theorem shortEscape_ne_u {c e : Char} (h : shortEscape c = some e) : e ≠ 'u' := by
  unfold shortEscape at h
  split at h <;> cases h <;> decide

def unitEscape (n : ℕ) : List Char := '\\' :: 'u' :: hexUnit n

/-- Printable ASCII stands for itself, other characters are written as one or two units. -/
def writeChar (c : Char) : List Char :=
  match shortEscape c with
  | some e => ['\\', e]
  | none =>
    if 32 ≤ c.toNat ∧ c.toNat ≤ 126 then [c]
    else if c.toNat < 65536 then unitEscape c.toNat
    else unitEscape (55296 + (c.toNat - 65536) / 1024) ++
      unitEscape (56320 + (c.toNat - 65536) % 1024)

/-- The second half of a surrogate pair, where one follows. -/
def readLowSurrogate : List Char → Option (ℕ × List Char)
  | '\\' :: 'u' :: a :: b :: c :: d :: rest =>
    match readUnit a b c d with
    | some n => if 56320 ≤ n ∧ n < 57344 then some (n, rest) else none
    | none => none
  | _ => none

/-- The character a unit stands for, with the unit after it where the two are a pair. -/
def readEscaped (n : ℕ) (rest : List Char) : Char × List Char :=
  if 55296 ≤ n ∧ n < 56320 then
    match readLowSurrogate rest with
    | some (low, rest) => (Char.ofNat (65536 + (n - 55296) * 1024 + (low - 56320)), rest)
    | none => ('\uFFFD', rest)
  else if 56320 ≤ n ∧ n < 57344 then ('\uFFFD', rest)
  else (Char.ofNat n, rest)

/-- One character of a string: an escape, or anything that is not a control character. -/
def readChar : List Char → Option (Char × List Char)
  | '\\' :: 'u' :: a :: b :: c :: d :: rest =>
    (readUnit a b c d).map fun n => readEscaped n rest
  | '\\' :: e :: rest => (readShortEscape e).map fun c => (c, rest)
  | c :: rest => if c = '\\' ∨ c.toNat < 32 then none else some (c, rest)
  | [] => none

theorem readChar_unitEscape {n : ℕ} (hn : n < 65536) (rest : List Char) :
    readChar (unitEscape n ++ rest) = some (readEscaped n rest) := by
  simp [unitEscape, hexUnit, readChar, readUnit_hexUnit hn]

theorem readLowSurrogate_unitEscape {n : ℕ} (hlow : 56320 ≤ n) (hn : n < 57344)
    (rest : List Char) : readLowSurrogate (unitEscape n ++ rest) = some (n, rest) := by
  simp [unitEscape, hexUnit, readLowSurrogate, readUnit_hexUnit (by omega : n < 65536), hlow, hn]

theorem toNat_not_surrogate (c : Char) : c.toNat < 55296 ∨ 57343 < c.toNat := by
  rcases c.valid with hc | hc
  · exact Or.inl hc
  · exact Or.inr hc.1

theorem toNat_lt (c : Char) : c.toNat < 1114112 := by
  rcases c.valid with hc | hc
  · exact Nat.lt_trans hc (by decide)
  · exact hc.2

theorem readChar_writeChar (c : Char) (rest : List Char) :
    readChar (writeChar c ++ rest) = some (c, rest) := by
  unfold writeChar
  cases hshort : shortEscape c with
  | some e =>
      have hu := shortEscape_ne_u hshort
      simp [readChar, hu, readShortEscape_of_shortEscape hshort]
  | none =>
      have hslash : c ≠ '\\' := fun h => by rw [h] at hshort; cases hshort
      by_cases hascii : 32 ≤ c.toNat ∧ c.toNat ≤ 126
      · have hcontrol : ¬ c.toNat < 32 := by omega
        simp [hascii, readChar, hslash, hcontrol]
      by_cases hbasic : c.toNat < 65536
      · have hno := toNat_not_surrogate c
        simp only [hascii, if_false, hbasic, if_true]
        rw [readChar_unitEscape hbasic, readEscaped, if_neg (by omega), if_neg (by omega),
          Char.ofNat_toNat]
      · have hlt := toNat_lt c
        simp only [hascii, if_false, hbasic]
        rw [List.append_assoc, readChar_unitEscape (by omega), readEscaped, if_pos (by omega),
          readLowSurrogate_unitEscape (by omega) (by omega)]
        have hvalue : 65536 + (55296 + (c.toNat - 65536) / 1024 - 55296) * 1024 +
            (56320 + (c.toNat - 65536) % 1024 - 56320) = c.toNat := by omega
        simp only [hvalue, Char.ofNat_toNat]

theorem writeChar_ne_nil (c : Char) : writeChar c ≠ [] := by
  unfold writeChar unitEscape
  split
  · exact List.cons_ne_nil _ _
  · split_ifs <;> simp

/-- The words of the characters of a string. -/
def asciiChar : PrefixCode Char Char where
  encode := writeChar
  read := readChar
  encode_ne_nil := writeChar_ne_nil
  read_encode := readChar_writeChar

theorem asciiChar_head (c : Char) : (asciiChar.encode c).head? ≠ some '"' := by
  show (writeChar c).head? ≠ some '"'
  unfold writeChar unitEscape
  cases hshort : shortEscape c with
  | some e => simp
  | none =>
      have hquote : c ≠ '"' := fun h => by rw [h] at hshort; cases hshort
      simp only
      split_ifs <;> simp [hquote]

/-- A string in its quotes. -/
def quotedString : PrefixCode (List Char) Char := asciiChar.delimited '"' '"' asciiChar_head

/-! ### Numbers and literals -/

def spanDigits (text : List Char) : List Char × List Char :=
  (text.takeWhile Char.isDigit, text.dropWhile Char.isDigit)

def digitsValue (digits : List Char) : ℕ :=
  digits.foldl (fun value c => value * 10 + (c.toNat - 48)) 0

/-- The digits before the point: a single zero, or no leading zero. -/
def readWhole : List Char → Option (List Char × List Char)
  | '0' :: rest => some (['0'], rest)
  | c :: rest => if c.isDigit then some (spanDigits (c :: rest)) else none
  | [] => none

/-- The digits after the point, none where no digit follows it. -/
def readFraction : List Char → List Char × List Char
  | '.' :: c :: rest => if c.isDigit then spanDigits (c :: rest) else ([], '.' :: c :: rest)
  | text => ([], text)

def readSign : List Char → Bool × List Char
  | '-' :: rest => (true, rest)
  | '+' :: rest => (false, rest)
  | text => (false, text)

def signed (negative : Bool) (n : ℕ) : ℤ := if negative then -(n : ℤ) else n

/-- The power of ten, none where no digit follows the letter. -/
def readExponent : List Char → Option ℤ × List Char
  | e :: rest =>
    if e = 'e' ∨ e = 'E' then
      let (negative, digits) := readSign rest
      match spanDigits digits with
      | ([], _) => (none, e :: rest)
      | (digits, rest) => (some (signed negative (digitsValue digits)), rest)
    else (none, e :: rest)
  | [] => (none, [])

/-- The digits Python's `int` takes from a text at most. -/
def intMaxStrDigits : ℕ := 4300

/-- A number without its sign. -/
def readMagnitude (negative : Bool) (text : List Char) : Option (Json × List Char) := do
  let (whole, rest) ← readWhole text
  let (fraction, rest) := readFraction rest
  let (exponent, rest) := readExponent rest
  if fraction = [] ∧ exponent = none then
    if intMaxStrDigits < whole.length then none
    else return (.int (signed negative (digitsValue whole)), rest)
  else
    return (.decimal (.finite (signed negative (digitsValue (whole ++ fraction)))
      (exponent.getD 0 - fraction.length)), rest)

/-- The rest of a text behind a word. -/
def afterWord (word text : List Char) : Option (List Char) :=
  if word.isPrefixOf text then some (text.drop word.length) else none

def readWord (word : String) (value : Json) (text : List Char) : Option (Json × List Char) :=
  (afterWord word.toList text).map fun rest => (value, rest)

/-- A value that holds no other value. -/
def readScalar (text : List Char) : Option (Json × List Char) :=
  match text with
  | '"' :: _ => (quotedString.read text).map fun (s, rest) => (.str (String.ofList s), rest)
  | 'n' :: _ => readWord "null" .null text
  | 't' :: _ => readWord "true" (.bool true) text
  | 'f' :: _ => readWord "false" (.bool false) text
  | 'N' :: _ => readWord "NaN" (.decimal .nan) text
  | 'I' :: _ => readWord "Infinity" (.decimal (.infinity false)) text
  | '-' :: 'I' :: _ => readWord "-Infinity" (.decimal (.infinity true)) text
  | '-' :: rest => readMagnitude true rest
  | _ => readMagnitude false text

/-- Where a number begins here and is not read, it is an integer with too many digits. -/
def beginsNumber : List Char → Bool
  | '-' :: rest => (readWhole rest).isSome
  | text => (readWhole text).isSome

/-! ### What reading consumes -/

theorem readEscaped_length (n : ℕ) (rest : List Char) :
    (readEscaped n rest).2.length ≤ rest.length := by
  unfold readEscaped
  split_ifs
  · cases hlow : readLowSurrogate rest with
    | none => exact Nat.le_refl _
    | some low =>
        unfold readLowSurrogate at hlow
        split at hlow
        · split at hlow
          · split_ifs at hlow
            cases hlow
            simp only [List.length_cons]
            omega
          · cases hlow
        · cases hlow
  · exact Nat.le_refl _
  · exact Nat.le_refl _

theorem readChar_length {text rest : List Char} {c : Char} (h : readChar text = some (c, rest)) :
    rest.length < text.length := by
  unfold readChar at h
  split at h
  · rename_i rest'
    obtain ⟨n, -, hn⟩ := Option.map_eq_some_iff.mp h
    have hlength := readEscaped_length n rest'
    rw [hn] at hlength
    simp only [List.length_cons] at hlength ⊢
    omega
  · obtain ⟨e, -, he⟩ := Option.map_eq_some_iff.mp h
    cases he
    simp only [List.length_cons]
    omega
  · split_ifs at h
    cases h
    exact Nat.lt_succ_self _
  · cases h

theorem quotedString_length {text rest s : List Char}
    (h : quotedString.read text = some (s, rest)) : rest.length < text.length := by
  have hread (n : ℕ) : ∀ text s rest, asciiChar.readUntil '"' n text = some (s, rest) →
      rest.length < text.length := by
    induction n with
    | zero => intro text s rest h; cases text <;> simp [PrefixCode.readUntil] at h
    | succ n ih =>
        intro text s rest h
        cases text with
        | nil => simp [PrefixCode.readUntil] at h
        | cons c cs =>
            rw [PrefixCode.readUntil] at h
            split_ifs at h
            · cases h
              exact Nat.lt_succ_self _
            · obtain ⟨⟨a, middle⟩, hchar, h⟩ := Option.bind_eq_some_iff.mp h
              obtain ⟨⟨symbols, rest'⟩, htail, h⟩ := Option.bind_eq_some_iff.mp h
              cases h
              exact Nat.lt_trans (ih _ _ _ htail) (readChar_length hchar)
  cases text with
  | nil => simp [quotedString, PrefixCode.delimited] at h
  | cons c cs =>
      simp only [quotedString, PrefixCode.delimited] at h
      split_ifs at h
      exact Nat.lt_trans (hread _ _ _ _ h) (Nat.lt_succ_self _)

theorem afterWord_length {word text rest : List Char} (hword : word ≠ [])
    (h : afterWord word text = some rest) : rest.length < text.length := by
  unfold afterWord at h
  split_ifs at h with hfront
  cases h
  obtain ⟨tail, htail⟩ := List.isPrefixOf_iff_prefix.mp hfront
  have hpos := List.length_pos_iff.mpr hword
  rw [← htail, List.length_append, List.drop_left]
  omega

theorem readWord_length {word : String} {value v : Json} {text rest : List Char}
    (hword : word.toList ≠ []) (h : readWord word value text = some (v, rest)) :
    rest.length < text.length := by
  obtain ⟨tail, htail, heq⟩ := Option.map_eq_some_iff.mp h
  cases heq
  exact afterWord_length hword htail

theorem spanDigits_length (text : List Char) :
    (spanDigits text).1.length + (spanDigits text).2.length = text.length := by
  rw [spanDigits, ← List.length_append, List.takeWhile_append_dropWhile]

theorem readWhole_length {text digits rest : List Char}
    (h : readWhole text = some (digits, rest)) : rest.length < text.length := by
  unfold readWhole at h
  split at h
  · cases h
    exact Nat.lt_succ_self _
  · rename_i c cs _
    split_ifs at h with hdigit
    have hlength := spanDigits_length (c :: cs)
    have hfirst : 0 < (spanDigits (c :: cs)).1.length := by
      simp [spanDigits, hdigit]
    rw [Option.some.inj h] at hlength hfirst
    simp only at hlength hfirst
    omega
  · cases h

theorem readFraction_length (text : List Char) : (readFraction text).2.length ≤ text.length := by
  unfold readFraction
  split
  · rename_i c rest
    split_ifs
    · have hlength := spanDigits_length (c :: rest)
      simp only [List.length_cons] at hlength ⊢
      omega
    · exact Nat.le_refl _
  · exact Nat.le_refl _

theorem readSign_length (text : List Char) : (readSign text).2.length ≤ text.length := by
  unfold readSign
  split <;> simp

theorem readExponent_length (text : List Char) : (readExponent text).2.length ≤ text.length := by
  cases text with
  | nil => simp [readExponent]
  | cons e rest =>
      by_cases he : e = 'e' ∨ e = 'E'
      · simp only [readExponent, he, if_true]
        have hsign := readSign_length rest
        have hspan := spanDigits_length (readSign rest).2
        split
        · exact Nat.le_refl _
        · rename_i digits tail _ hdigits
          rw [hdigits] at hspan
          simp only [List.length_cons] at hspan ⊢
          omega
      · simp [readExponent, he]

theorem readMagnitude_length {negative : Bool} {text rest : List Char} {v : Json}
    (h : readMagnitude negative text = some (v, rest)) : rest.length < text.length := by
  obtain ⟨⟨whole, tail⟩, hwhole, h⟩ := Option.bind_eq_some_iff.mp h
  have hlength := readWhole_length hwhole
  have hfraction := readFraction_length tail
  have hexponent := readExponent_length (readFraction tail).2
  have hrest : rest = (readExponent (readFraction tail).2).2 := by
    simp only at h
    split_ifs at h <;> cases h <;> rfl
  rw [hrest]
  omega

theorem readScalar_length {text rest : List Char} {v : Json}
    (h : readScalar text = some (v, rest)) : rest.length < text.length := by
  unfold readScalar at h
  split at h
  · obtain ⟨⟨s, tail⟩, htail, heq⟩ := Option.map_eq_some_iff.mp h
    cases heq
    exact quotedString_length htail
  · exact readWord_length (by decide) h
  · exact readWord_length (by decide) h
  · exact readWord_length (by decide) h
  · exact readWord_length (by decide) h
  · exact readWord_length (by decide) h
  · exact readWord_length (by decide) h
  · exact Nat.lt_succ_of_lt (readMagnitude_length h)
  · exact readMagnitude_length h

/-! ### The reader -/

/-- Why a text is not read: it is not JSON, its arrays and objects lie too deep, or an integer has
more digits than `int` takes. -/
inductive LoadsError where
  | invalid
  | recursion
  | digits
  deriving DecidableEq, Repr

/-- An array or an object that waits for its next value. -/
inductive Frame where
  | arr (items : List Json)
  | obj (members : List (String × Json)) (name : String)

/-- What may come next: a value; a value or the end of an array; a name (or the end of an object
that has no members yet); what follows a value. -/
inductive Mode where
  | value
  | first
  | name (members : List (String × Json)) (first : Bool)
  | done (value : Json)

structure Machine where
  stack : List Frame
  mode : Mode
  text : List Char

def isSpace (c : Char) : Bool := c == ' ' || c == '\t' || c == '\n' || c == '\r'

def skip (text : List Char) : List Char := text.dropWhile isSpace

theorem skip_length (text : List Char) : (skip text).length ≤ text.length :=
  (List.dropWhile_sublist isSpace).length_le

/-- The start of a value. -/
def valueStep (limit : ℕ) (stack : List Frame) (text : List Char) :
    Except LoadsError Machine :=
  match text with
  | '[' :: rest => if limit ≤ stack.length then .error .recursion else .ok ⟨stack, .first, rest⟩
  | '\x7b' :: rest =>
    if limit ≤ stack.length then .error .recursion else .ok ⟨stack, .name [] true, rest⟩
  | text =>
    match readScalar text with
    | some (value, rest) => .ok ⟨stack, .done value, rest⟩
    | none => .error (if beginsNumber text then .digits else .invalid)

/-- A name and the colon behind it. -/
def nameStep (stack : List Frame) (members : List (String × Json)) (text : List Char) :
    Except LoadsError Machine :=
  match quotedString.read text with
  | some (name, rest) =>
    match skip rest with
    | ':' :: rest => .ok ⟨.obj members (String.ofList name) :: stack, .value, rest⟩
    | _ => .error .invalid
  | none => .error .invalid

/-- What follows a value inside an array or an object. -/
def closeStep (frame : Frame) (stack : List Frame) (value : Json) (text : List Char) :
    Except LoadsError Machine :=
  match frame, text with
  | .arr items, ',' :: rest => .ok ⟨.arr (items ++ [value]) :: stack, .value, rest⟩
  | .arr items, ']' :: rest => .ok ⟨stack, .done (.arr (items ++ [value])), rest⟩
  | .obj members name, ',' :: rest => .ok ⟨stack, .name (members ++ [(name, value)]) false, rest⟩
  | .obj members name, '\x7d' :: rest =>
    .ok ⟨stack, .done (.obj (members ++ [(name, value)])), rest⟩
  | _, _ => .error .invalid

/-- One token, or the value of the whole text. -/
def Machine.step (limit : ℕ) (m : Machine) : Except LoadsError (Machine ⊕ Json) :=
  match m.mode, skip m.text with
  | .value, text => (valueStep limit m.stack text).map .inl
  | .first, ']' :: rest => .ok (.inl ⟨m.stack, .done (.arr []), rest⟩)
  | .first, text => (valueStep limit (.arr [] :: m.stack) text).map .inl
  | .name [] true, '\x7d' :: rest => .ok (.inl ⟨m.stack, .done (.obj []), rest⟩)
  | .name members _, text => (nameStep m.stack members text).map .inl
  | .done value, text =>
    match m.stack, text with
    | [], [] => .ok (.inr value)
    | [], _ :: _ => .error .invalid
    | frame :: stack, text => (closeStep frame stack value text).map .inl

theorem valueStep_length {limit : ℕ} {stack : List Frame} {text : List Char} {m : Machine}
    (h : valueStep limit stack text = .ok m) : m.text.length < text.length := by
  unfold valueStep at h
  split at h
  · split_ifs at h
    cases h
    exact Nat.lt_succ_self _
  · split_ifs at h
    cases h
    exact Nat.lt_succ_self _
  · split at h
    · rename_i hscalar
      cases h
      exact readScalar_length hscalar
    · cases h

theorem nameStep_length {stack : List Frame} {members : List (String × Json)} {text : List Char}
    {m : Machine} (h : nameStep stack members text = .ok m) : m.text.length < text.length := by
  unfold nameStep at h
  split at h
  · rename_i name rest hname
    split at h
    · rename_i hcolon
      cases h
      have hskip := skip_length rest
      have hstring := quotedString_length hname
      rw [hcolon, List.length_cons] at hskip
      exact Nat.lt_trans (Nat.lt_of_succ_le hskip) hstring
    · cases h
  · cases h

theorem closeStep_length {frame : Frame} {stack : List Frame} {value : Json} {text : List Char}
    {m : Machine} (h : closeStep frame stack value text = .ok m) :
    m.text.length < text.length := by
  unfold closeStep at h
  split at h
  iterate 4
    · cases h
      exact Nat.lt_succ_self _
  · cases h

theorem ok_of_map {x : Except LoadsError Machine} {m : Machine}
    (h : x.map Sum.inl = .ok (Sum.inl (β := Json) m)) : x = .ok m := by
  cases x with
  | error e => cases h
  | ok m => cases h; rfl

/-- Every token takes something of the text. -/
theorem Machine.step_length {limit : ℕ} {m m' : Machine} (h : m.step limit = .ok (.inl m')) :
    m'.text.length < m.text.length := by
  have hskip := skip_length m.text
  unfold Machine.step at h
  split at h
  · exact Nat.lt_of_lt_of_le (valueStep_length (ok_of_map h)) hskip
  · rename_i hclose
    cases h
    rw [hclose] at hskip
    exact Nat.lt_of_lt_of_le (Nat.lt_succ_self _) hskip
  · exact Nat.lt_of_lt_of_le (valueStep_length (ok_of_map h)) hskip
  · rename_i hclose
    cases h
    rw [hclose] at hskip
    exact Nat.lt_of_lt_of_le (Nat.lt_succ_self _) hskip
  · exact Nat.lt_of_lt_of_le (nameStep_length (ok_of_map h)) hskip
  · split at h
    · cases h
    · cases h
    · exact Nat.lt_of_lt_of_le (closeStep_length (ok_of_map h)) hskip

def Machine.run (limit : ℕ) (m : Machine) : Except LoadsError Json :=
  match _h : m.step limit with
  | .error e => .error e
  | .ok (.inr value) => .ok value
  | .ok (.inl m') => m'.run limit
termination_by m.text.length
decreasing_by exact Machine.step_length _h

theorem Machine.run_step {limit : ℕ} {m m' : Machine} (h : m.step limit = .ok (.inl m')) :
    m.run limit = m'.run limit := by
  rw [Machine.run]
  split <;> simp_all

theorem Machine.run_done {limit : ℕ} {m : Machine} {value : Json}
    (h : m.step limit = .ok (.inr value)) : m.run limit = .ok value := by
  rw [Machine.run]
  split <;> simp_all

theorem Machine.run_error {limit : ℕ} {m : Machine} {e : LoadsError}
    (h : m.step limit = .error e) : m.run limit = .error e := by
  rw [Machine.run]
  split <;> simp_all

/-- A run of at most so many tokens, for texts that are given. -/
def Machine.runFor (limit : ℕ) : ℕ → Machine → Option (Except LoadsError Json)
  | 0, _ => none
  | n + 1, m =>
    match m.step limit with
    | .error e => some (.error e)
    | .ok (.inr value) => some (.ok value)
    | .ok (.inl m') => m'.runFor limit n

theorem Machine.run_of_runFor {limit n : ℕ} {m : Machine} {r : Except LoadsError Json}
    (h : m.runFor limit n = some r) : m.run limit = r := by
  induction n generalizing m with
  | zero => cases h
  | succ n ih =>
      rw [Machine.runFor] at h
      split at h
      · rename_i hstep
        rw [Machine.run_error hstep]
        exact Option.some.inj h
      · rename_i hstep
        rw [Machine.run_done hstep]
        exact Option.some.inj h
      · rename_i hstep
        rw [Machine.run_step hstep]
        exact ih h

/-- A whole text. -/
def loads (limit : ℕ) (text : String) : Except LoadsError Json :=
  if text.toList.head? = some '\uFEFF' then .error .invalid
  else Machine.run limit ⟨[], .value, text.toList⟩

theorem loads_of_runFor {limit n : ℕ} {text : String} {r : Except LoadsError Json}
    (hmark : text.toList.head? ≠ some '\uFEFF')
    (h : Machine.runFor limit n ⟨[], .value, text.toList⟩ = some r) : loads limit text = r := by
  rw [loads, if_neg hmark]
  exact Machine.run_of_runFor h

/-! ### Objects of strings -/

def quoted (s : String) : List Char := quotedString.encode s.toList

def writeMember (m : String × String) : List Char := quoted m.1 ++ ':' :: quoted m.2

/-- An object of strings without blanks. -/
def dumpsStrings (members : List (String × String)) : String :=
  String.ofList ('\x7b' :: ([','].intercalate (members.map writeMember) ++ ['\x7d']))

theorem quoted_eq (s : String) :
    quoted s = '"' :: (asciiChar.encodeAll s.toList ++ ['"']) := rfl

theorem quoted_append (s : String) (rest : List Char) :
    ∃ tail, quoted s ++ rest = '"' :: tail := ⟨_, by rw [quoted_eq, List.cons_append]⟩

theorem read_quoted (s : String) (rest : List Char) :
    quotedString.read (quoted s ++ rest) = some (s.toList, rest) :=
  quotedString.read_encode _ _

theorem skip_quoted (s : String) (rest : List Char) :
    skip (quoted s ++ rest) = quoted s ++ rest := by
  simp [quoted_eq, skip, isSpace]

theorem skip_cons {c : Char} (hc : isSpace c = false) (rest : List Char) :
    skip (c :: rest) = c :: rest := by
  simp [skip, hc]

theorem nameStep_quoted (stack : List Frame) (members : List (String × Json)) (name : String)
    (rest : List Char) :
    nameStep stack members (quoted name ++ ':' :: rest) =
      .ok ⟨.obj members name :: stack, .value, rest⟩ := by
  rw [nameStep, read_quoted]
  simp only [skip_cons (by decide : isSpace ':' = false), String.ofList_toList]

theorem valueStep_quoted (limit : ℕ) (stack : List Frame) (s : String) (rest : List Char) :
    valueStep limit stack (quoted s ++ rest) = .ok ⟨stack, .done (.str s), rest⟩ := by
  obtain ⟨tail, htail⟩ := quoted_append s rest
  have hread := read_quoted s rest
  rw [htail] at hread ⊢
  simp [valueStep, readScalar, hread]

/-- A member, from its name to what follows its value. -/
theorem run_member (limit : ℕ) (stack : List Frame) (members : List (String × Json))
    (first : Bool) (m : String × String) (rest : List Char) :
    Machine.run limit ⟨stack, .name members first, writeMember m ++ rest⟩ =
      Machine.run limit ⟨.obj members m.1 :: stack, .done (.str m.2), rest⟩ := by
  have hname : Machine.step limit ⟨stack, .name members first, writeMember m ++ rest⟩ =
      .ok (.inl ⟨.obj members m.1 :: stack, .value, quoted m.2 ++ rest⟩) := by
    have hmember : writeMember m ++ rest = quoted m.1 ++ ':' :: (quoted m.2 ++ rest) := by
      simp [writeMember]
    have hstep := nameStep_quoted stack members m.1 (quoted m.2 ++ rest)
    obtain ⟨tail, htail⟩ := quoted_append m.1 (':' :: (quoted m.2 ++ rest))
    have hskip : skip ('"' :: tail) = '"' :: tail := skip_cons (by decide) tail
    have hother : Machine.step limit ⟨stack, .name members first, '"' :: tail⟩ =
        (nameStep stack members ('"' :: tail)).map .inl := by
      cases members <;> cases first <;> simp [Machine.step, hskip]
    rw [htail] at hstep
    rw [hmember, htail, hother, hstep]
    rfl
  have hvalue : Machine.step limit ⟨.obj members m.1 :: stack, .value, quoted m.2 ++ rest⟩ =
      .ok (.inl ⟨.obj members m.1 :: stack, .done (.str m.2), rest⟩) := by
    simp only [Machine.step, skip_quoted, valueStep_quoted, Except.map]
  rw [Machine.run_step hname, Machine.run_step hvalue]

/-- The members from the second on, and the end of the object. -/
theorem run_members (limit : ℕ) (members : List (String × Json)) (m : String × String)
    (more : List (String × String)) :
    Machine.run limit ⟨[.obj members m.1], .done (.str m.2),
        (more.flatMap fun m => ',' :: writeMember m) ++ ['\x7d']⟩ =
      .ok (.obj (members ++ (m :: more).map fun m => (m.1, .str m.2))) := by
  induction more generalizing members m with
  | nil =>
      have hclose : Machine.step limit ⟨[.obj members m.1], .done (.str m.2), ['\x7d']⟩ =
          .ok (.inl ⟨[], .done (.obj (members ++ [(m.1, .str m.2)])), []⟩) := rfl
      have hdone : Machine.step limit ⟨[], .done (.obj (members ++ [(m.1, .str m.2)])), []⟩ =
          .ok (.inr (.obj (members ++ [(m.1, .str m.2)]))) := rfl
      simp only [List.flatMap_nil, List.nil_append]
      rw [Machine.run_step hclose, Machine.run_done hdone]
      rfl
  | cons next more ih =>
      have hcomma (rest : List Char) :
          Machine.step limit ⟨[.obj members m.1], .done (.str m.2), ',' :: rest⟩ =
            .ok (.inl ⟨[], .name (members ++ [(m.1, .str m.2)]) false, rest⟩) := rfl
      rw [List.flatMap_cons, List.cons_append, List.cons_append, Machine.run_step (hcomma _),
        List.append_assoc, run_member, ih]
      simp

theorem toList_dumpsStrings (m : String × String) (more : List (String × String)) :
    (dumpsStrings (m :: more)).toList =
      '\x7b' :: (writeMember m ++ ((more.flatMap fun m => ',' :: writeMember m) ++ ['\x7d'])) := by
  rw [dumpsStrings, String.toList_ofList]
  congr 1
  rw [← List.append_assoc]
  congr 1
  induction more generalizing m with
  | nil => simp
  | cons next more ih =>
      rw [List.map_cons, List.map_cons, List.intercalate_cons_cons, ← List.map_cons, ih next]
      simp

/-- An object of strings is read back. -/
theorem loads_dumpsStrings {limit : ℕ} (hlimit : 1 ≤ limit) (m : String × String)
    (more : List (String × String)) :
    loads limit (dumpsStrings (m :: more)) =
      .ok (.obj ((m :: more).map fun m => (m.1, .str m.2))) := by
  have hopen (rest : List Char) : Machine.step limit ⟨[], .value, '\x7b' :: rest⟩ =
      .ok (.inl ⟨[], .name [] true, rest⟩) := by
    have hdeep : ¬ limit ≤ 0 := by omega
    simp [Machine.step, skip_cons (by decide : isSpace '\x7b' = false), valueStep, hdeep,
      Except.map]
  rw [loads, toList_dumpsStrings, if_neg (by simp), Machine.run_step (hopen _), run_member,
    run_members]
  rfl

end JsonText
